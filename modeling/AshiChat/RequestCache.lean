/-
The request cache over whole sequences of requests (`resolution.py`).  Ids
enter at the end with the time of their arrival, expire by time, and the oldest
ones are dropped beyond `MAX_CACHE`.  With a clock that does not go back the
order of entry is the order of time.
-/
import AshiChat.Resolution
import Mathlib.Data.Finset.Order

namespace AshiChat

open EventRun OrderedDict List

/-- One `RESOLVE_REQUEST`, with what the callbacks of the manager return while
it is handled. -/
structure ResolveReceipt where
  overlay : List PeerId
  table : PeerTable
  packet : ResolveRequestPayload
  senderAddr : Address
  now : ℚ

/-- Ids stand in the order of time, none is from after `now`, and there are
not too many. -/
structure Dated (cache : OrderedDict Bytes ℚ) (now : ℚ) : Prop where
  sorted : cache.entries.Pairwise (·.2 ≤ ·.2)
  past : ∀ entry ∈ cache.entries, entry.2 ≤ now
  bounded : cache.size ≤ maxCache

theorem Dated.mono {cache : OrderedDict Bytes ℚ} {now later : ℚ}
    (hdated : Dated cache now) (hle : now ≤ later) : Dated cache later :=
  ⟨hdated.sorted, fun entry hmem => (hdated.past entry hmem).trans hle,
    hdated.bounded⟩

/-- The request stands in the cache with its time, and only the others came
after it. -/
def Remembers (cache : OrderedDict Bytes ℚ) (requestId : Bytes) (time : ℚ)
    (others : Finset Bytes) : Prop :=
  ∃ older newer, cache.entries = older ++ (requestId, time) :: newer ∧
    ∀ entry ∈ newer, entry.1 ∈ others

theorem Remembers.get? {cache : OrderedDict Bytes ℚ} {requestId : Bytes}
    {time : ℚ} {others : Finset Bytes}
    (hheld : Remembers cache requestId time others) :
    cache.get? requestId = some time := by
  obtain ⟨_, _, hentries, -⟩ := hheld
  rw [← cache.mem_entries_iff, hentries]
  exact mem_append_cons_self

namespace Resolver

variable {resolver : Resolver} {receipt : ResolveReceipt}

/-- `handle_resolve_request` -/
def handle (localId : PeerId) (resolver : Resolver) (receipt : ResolveReceipt) :
    Resolver × List (ResolveRequestPayload × Address) :=
  { resolver with overlay := receipt.overlay }.handleResolveRequest localId
    receipt.table receipt.packet receipt.senderAddr receipt.now

def receive (localId : PeerId) (resolver : Resolver) (receipt : ResolveReceipt) :
    Resolver :=
  (resolver.handle localId receipt).1

/-- The id of the request, if it is not found in the cache. -/
def newId (resolver : Resolver) (receipt : ResolveReceipt) : List Bytes :=
  if (resolver.cleanupCache receipt.now).requestCache.contains
      receipt.packet.requestId then []
  else [receipt.packet.requestId]

theorem entries_cleanupCache (resolver : Resolver) (now : ℚ) :
    (resolver.cleanupCache now).requestCache.entries =
      resolver.requestCache.entries.filter fun entry =>
        now - cacheTtl ≤ entry.2 := by
  rw [cleanupCache, entries_foldl_erase]
  refine filter_congr fun entry hentry => decide_eq_decide.mpr ?_
  rw [← not_lt, not_iff_not, mem_map]
  constructor
  · rintro ⟨expired, hexpired, hkey⟩
    obtain ⟨hmem, hold⟩ := mem_filter.mp hexpired
    rw [inj_on_of_nodup_map resolver.requestCache.nodup hmem hentry
      hkey] at hold
    exact of_decide_eq_true hold
  · intro hold
    exact ⟨entry, mem_filter.mpr ⟨hentry, decide_eq_true hold⟩, rfl⟩

variable {requestId : Bytes}

/-- In the order of time, dropping the oldest ids drops the first ones. -/
theorem entries_remember {now : ℚ} (hdated : Dated resolver.requestCache now)
    (hnew : resolver.requestCache.get? requestId = none) :
    (resolver.remember requestId now).requestCache.entries =
      (resolver.requestCache.entries ++ [(requestId, now)]).drop
        (resolver.requestCache.size + 1 - maxCache) := by
  have hentries := entries_set_of_get?_eq_none hnew now
  have hsorted : (resolver.requestCache.set requestId now).entries.Pairwise
      (fun left right => decide (left.2 ≤ right.2) = true) := by
    rw [hentries, pairwise_append]
    simp only [decide_eq_true_eq]
    exact ⟨hdated.sorted, pairwise_singleton _ _, by simpa using hdated.past⟩
  have hsize := size_set_of_get?_eq_none hnew now
  simp only [remember, mergeSort_of_pairwise hsorted, hsize]
  split
  · rw [← map_take, ← hsize, entries_foldl_erase_take, hentries]
  · next hroom =>
    rw [hentries, Nat.sub_eq_zero_of_le (Nat.not_lt.mp hroom), drop_zero]

variable (localId : PeerId)

/-- What a request makes of the cache. -/
theorem requestCache_receive (resolver : Resolver) (receipt : ResolveReceipt) :
    (resolver.receive localId receipt).requestCache =
      if resolver.newId receipt = [] then
        (resolver.cleanupCache receipt.now).requestCache
      else ((resolver.cleanupCache receipt.now).remember
        receipt.packet.requestId receipt.now).requestCache := by
  simp only [receive, handle, handleResolveRequest, newId]
  split_ifs <;> first | rfl | contradiction

theorem get?_of_newId (hnew : resolver.newId receipt ≠ []) :
    (resolver.cleanupCache receipt.now).requestCache.get?
      receipt.packet.requestId = none := by
  rw [← contains_eq_false_iff]
  simpa [newId] using hnew

theorem dated_cleanupCache {now : ℚ}
    (hdated : Dated resolver.requestCache now) :
    Dated (resolver.cleanupCache now).requestCache now := by
  have hentries := resolver.entries_cleanupCache now
  constructor
  · exact hentries ▸ hdated.sorted.filter _
  · intro entry hmem
    exact hdated.past entry (mem_of_mem_filter (hentries ▸ hmem))
  · rw [size, hentries]
    exact (length_filter_le _ _).trans hdated.bounded

theorem dated_remember {now : ℚ} (hdated : Dated resolver.requestCache now)
    (hnew : resolver.requestCache.get? requestId = none) :
    Dated (resolver.remember requestId now).requestCache now := by
  have hentries := entries_remember hdated hnew
  constructor
  · rw [hentries]
    refine List.Pairwise.drop (pairwise_append.mpr
      ⟨hdated.sorted, pairwise_singleton _ _, ?_⟩)
    simpa using hdated.past
  · intro entry hmem
    rw [hentries] at hmem
    rcases mem_append.mp (mem_of_mem_drop hmem) with hold | hlast
    · exact hdated.past entry hold
    · rw [mem_singleton.mp hlast]
  · have hbounded := hdated.bounded
    rw [size, hentries, length_drop, length_append, length_singleton, ← size]
    omega

/-- The invariant over one request. -/
theorem dated_receive (hdated : Dated resolver.requestCache receipt.now) :
    Dated (resolver.receive localId receipt).requestCache receipt.now := by
  have hlive := dated_cleanupCache hdated
  rw [requestCache_receive]
  split
  · exact hlive
  · next hnew => exact dated_remember hlive (get?_of_newId hnew)

variable {others : Finset Bytes}

theorem remembers_cleanupCache {time now : ℚ} (httl : now ≤ time + cacheTtl)
    (hheld : Remembers resolver.requestCache requestId time others) :
    Remembers (resolver.cleanupCache now).requestCache requestId time others := by
  obtain ⟨_, _, hentries, hothers⟩ := hheld
  have hage : now - cacheTtl ≤ time := sub_le_iff_le_add.mpr httl
  have hlive := resolver.entries_cleanupCache now
  simp only [hentries, filter_append, filter_cons, hage,
    decide_true, ↓reduceIte] at hlive
  exact ⟨_, _, hlive, fun entry hmem =>
    hothers entry (mem_of_mem_filter hmem)⟩

theorem remembers_remember {requestId added : Bytes} {time now : ℚ}
    (hdated : Dated resolver.requestCache now)
    (hnew : resolver.requestCache.get? added = none)
    (hadded : added ∈ others) (hfew : others.card < maxCache)
    (hheld : Remembers resolver.requestCache requestId time others) :
    Remembers (resolver.remember added now).requestCache requestId time
      others := by
  obtain ⟨older, newer, hentries, hothers⟩ := hheld
  have hall : ∀ entry ∈ newer ++ [(added, now)], entry.1 ∈ others := by
    simpa [or_imp, forall_and, hadded] using hothers
  -- the ids after the request are distinct, so there are too few of them for
  -- the request to be among the dropped ones
  have hcard : newer.length + 1 ≤ others.card := by
    have hkeys := (resolver.requestCache.set added now).nodup
    rw [entries_set_of_get?_eq_none hnew, hentries,
      append_assoc, cons_append] at hkeys
    have hnodup := hkeys.sublist (((sublist_cons_self _ _).trans
      (sublist_append_right _ _)).map Prod.fst)
    have hsubset : ((newer ++ [(added, now)]).map Prod.fst).toFinset ⊆
        others := by
      intro requestId hmem
      obtain ⟨entry, hentry, rfl⟩ := mem_map.mp (mem_toFinset.mp hmem)
      exact hall entry hentry
    have hle := Finset.card_le_card hsubset
    rwa [toFinset_card_of_nodup hnodup, length_map,
      length_append, length_singleton] at hle
  have hdrop : resolver.requestCache.size + 1 - maxCache ≤ older.length := by
    rw [size, hentries, length_append, length_cons]
    omega
  have hafter := entries_remember hdated hnew
  rw [hentries, append_assoc, drop_append_of_le_length hdrop,
    cons_append] at hafter
  exact ⟨_, _, hafter, hall⟩

variable {time : ℚ}

/-- A request that stands in the cache stays there over one receipt. -/
theorem remembers_receive (hdated : Dated resolver.requestCache receipt.now)
    (httl : receipt.now ≤ time + cacheTtl) (hfew : others.card < maxCache)
    (hadded : ∀ added ∈ resolver.newId receipt, added ≠ requestId →
      added ∈ others)
    (hheld : Remembers resolver.requestCache requestId time others) :
    Remembers (resolver.receive localId receipt).requestCache requestId time
      others := by
  have hlive := remembers_cleanupCache httl hheld
  rw [requestCache_receive]
  split
  · exact hlive
  · next hnew =>
    have hget := get?_of_newId hnew
    have hne : receipt.packet.requestId ≠ requestId := by
      intro heq
      rw [heq, hlive.get?] at hget
      cases hget
    have hmem : receipt.packet.requestId ∈ resolver.newId receipt := by
      unfold newId at hnew ⊢
      split at hnew
      · exact absurd rfl hnew
      · next hcached => rw [if_neg hcached]; exact mem_singleton_self _
    exact remembers_remember (dated_cleanupCache hdated) hget
      (hadded _ hmem hne) hfew hlive

/-- A request that is processed stands last in the cache. -/
theorem remembers_of_newId (others : Finset Bytes)
    (hdated : Dated resolver.requestCache receipt.now)
    (hnew : resolver.newId receipt ≠ []) :
    Remembers (resolver.receive localId receipt).requestCache
      receipt.packet.requestId receipt.now others := by
  have hlive := dated_cleanupCache hdated
  have hafter := entries_remember hlive (get?_of_newId hnew)
  have hdrop : (resolver.cleanupCache receipt.now).requestCache.size + 1 -
      maxCache ≤
        (resolver.cleanupCache receipt.now).requestCache.entries.length :=
    Nat.sub_le_of_le_add (Nat.add_le_add_left (by decide) _)
  rw [drop_append_of_le_length hdrop] at hafter
  rw [requestCache_receive, if_neg hnew]
  exact ⟨_, [], hafter, by simp⟩

variable {receipts : List ResolveReceipt} {later : ℚ}

theorem dated_run (hclock : (receipts.map ResolveReceipt.now).Pairwise (· ≤ ·))
    (hle : ∀ receipt ∈ receipts, receipt.now ≤ later)
    (hdated : ∀ receipt ∈ receipts, Dated resolver.requestCache receipt.now)
    (hlater : Dated resolver.requestCache later) :
    Dated (run (receive localId) resolver receipts).requestCache later := by
  induction receipts generalizing resolver with
  | nil => exact hlater
  | cons _ _ ih =>
    rw [map_cons, pairwise_cons, forall_mem_map] at hclock
    rw [forall_mem_cons] at hle hdated
    have hnext := dated_receive localId hdated.1
    exact ih hclock.2 hle.2 (fun other hother => hnext.mono (hclock.1 other
      hother)) (hnext.mono hle.1)

theorem remembers_run (hfew : others.card < maxCache)
    (hclock : (receipts.map ResolveReceipt.now).Pairwise (· ≤ ·))
    (httl : ∀ receipt ∈ receipts, receipt.now ≤ time + cacheTtl)
    (hadded : ∀ added ∈ outputs (receive localId) newId resolver receipts,
      added ≠ requestId → added ∈ others)
    (hdated : ∀ receipt ∈ receipts, Dated resolver.requestCache receipt.now)
    (hheld : Remembers resolver.requestCache requestId time others) :
    Remembers (run (receive localId) resolver receipts).requestCache requestId
      time others := by
  induction receipts generalizing resolver with
  | nil => exact hheld
  | cons _ _ ih =>
    rw [map_cons, pairwise_cons, forall_mem_map] at hclock
    rw [forall_mem_cons] at httl hdated
    rw [outputs_cons, forall_mem_append] at hadded
    have hnext := dated_receive localId hdated.1
    exact ih hclock.2 httl.2 hadded.2
      (fun other hother => hnext.mono (hclock.1 other hother))
      (remembers_receive localId hdated.1 httl.1 hfew hadded.1 hheld)

/-- A request that stands in the cache is not forwarded. -/
theorem handle_of_remembers (httl : receipt.now ≤ time + cacheTtl)
    (hheld : Remembers resolver.requestCache receipt.packet.requestId time
      others) :
    (resolver.handle localId receipt).2 = [] := by
  have hget := (remembers_cleanupCache httl hheld).get?
  have hcached : ({ resolver with overlay := receipt.overlay }.cleanupCache
      receipt.now).requestCache.contains receipt.packet.requestId = true :=
    Option.isSome_of_eq_some hget
  simp [handle, handleResolveRequest, hcached]

theorem dated_empty (now : ℚ) : Dated empty.requestCache now :=
  ⟨List.Pairwise.nil, fun _ hmem => absurd hmem not_mem_nil, Nat.zero_le _⟩

/-- Under a clock that does not go back, the cache never holds more than
`MAX_CACHE` ids, and a request that was processed is not forwarded again within
`CACHE_TTL`, unless `MAX_CACHE` other ids were processed in between. -/
theorem requests_deduplicated (localId : PeerId)
    (hclock : (receipts.map ResolveReceipt.now).Pairwise (· ≤ ·)) :
    Along (receive localId)
        (fun resolver => resolver.requestCache.size ≤ maxCache) empty
        receipts ∧
      ∀ before first between last,
        before ++ first :: (between ++ [last]) <+: receipts →
        (run (receive localId) empty before).newId first ≠ [] →
        last.packet.requestId = first.packet.requestId →
        last.now ≤ first.now + cacheTtl →
        ((outputs (receive localId) newId
          (run (receive localId) empty (before ++ [first]))
          between).toFinset.erase first.packet.requestId).card < maxCache →
        ((run (receive localId) empty (before ++ first :: between)).handle
          localId last).2 = [] := by
  constructor
  · intro pre hpre
    obtain ⟨later, hlater⟩ := (pre.map ResolveReceipt.now).toFinset.exists_le
    exact (dated_run localId (hclock.sublist (hpre.sublist.map _))
      (fun receipt hmem => hlater _ (mem_toFinset.mpr (mem_map_of_mem hmem)))
      (fun _ _ => dated_empty _) (dated_empty later)).bounded
  · intro before first between last hpre hprocessed hsame httl hfew
    have hsorted := hclock.sublist (hpre.sublist.map _)
    simp only [map_append, map_cons, map_nil, pairwise_append, pairwise_cons,
      forall_mem_append, forall_mem_cons, forall_mem_map] at hsorted
    obtain ⟨hbefore, ⟨⟨hfirst, -⟩, hbetween, -, hlast⟩, hearlier⟩ := hsorted
    have hdated := dated_run localId hbefore
      (fun receipt hmem => (hearlier receipt hmem).1)
      (fun _ _ => dated_empty _) (dated_empty first.now)
    rw [run_append, run_cons] at hfew ⊢
    have hheld := remembers_run localId hfew hbetween
      (fun receipt hmem => ((hlast receipt hmem).1.trans httl))
      (fun added hmem hne =>
        Finset.mem_erase.mpr ⟨hne, mem_toFinset.mpr hmem⟩)
      (fun receipt hmem =>
        (dated_receive localId hdated).mono (hfirst receipt hmem))
      (remembers_of_newId localId _ hdated hprocessed)
    exact handle_of_remembers localId httl (hsame ▸ hheld)

end Resolver

namespace RequestCacheWitness

open Resolver

/-- The overlay peer with an endpoint, for whom the request is forwarded. -/
def table : PeerTable :=
  (PeerTable.empty [0]).addDirectPeer [1] [] none (some ("192.0.2.1", 9000)) 0

/-- The request with this id, at this time. -/
def receipt (requestId : Bytes) (now : ℚ) : ResolveReceipt where
  overlay := [[1]]
  table := table
  packet := ⟨requestId, [2], 5⟩
  senderAddr := ("192.0.2.2", 9000)
  now := now

def receipts : List ResolveReceipt :=
  [receipt [7] 0, receipt [8] 100, receipt [7] 300]

/-- The first request is forwarded, its repetition at the end of `CACHE_TTL`
is not. -/
theorem requests_deduplicated_repeated :
    (empty.handle [0] (receipt [7] 0)).2 ≠ [] ∧
      ((run (receive [0]) empty [receipt [7] 0, receipt [8] 100]).handle [0]
        (receipt [7] 300)).2 = [] := by
  refine ⟨by decide +kernel, ?_⟩
  have hclock : (receipts.map ResolveReceipt.now).Pairwise (· ≤ ·) := by
    decide +kernel
  exact (requests_deduplicated [0] hclock).2 [] (receipt [7] 0)
    [receipt [8] 100] (receipt [7] 300) prefix_rfl (by decide +kernel)
    rfl (by decide +kernel) (by decide +kernel)

end RequestCacheWitness

end AshiChat
