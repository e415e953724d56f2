/-
The peer table under arbitrary calls (`overlay.py`).  A peer that is not a
contact enters through `add_peer`, which evicts an entry of a full table; a
contact enters through `add_direct_peer`, which never looks at the size.
-/
import AshiChat.Peers
import AshiChat.Kit.BigEndian
import AshiChat.Kit.EventRun
import Mathlib.Data.Prod.Lex
import Mathlib.Order.Defs.LinearOrder

namespace AshiChat

open EventRun OrderedDict List Nat PeerTable

def maxPeerTable : Nat := 500

/-- The sort key of `_evict`; tuples are compared from the left. -/
def PeerEntry.evictionKey (entry : PeerEntry) : ℚ ×ₗ Nat :=
  toLex (entry.lastSeen, entry.versionCounter)

def PeerEntry.evictedBefore (left right : PeerEntry) : Bool :=
  left.evictionKey ≤ right.evictionKey

namespace PeerTable

def size (table : PeerTable) : Nat := table.peers.size

def getAllNonDirect (table : PeerTable) : List PeerEntry :=
  table.peers.values.filter fun entry => !entry.isDirect

def updateLastSeen (table : PeerTable) (peerId : PeerId) (now : ℚ) :
    PeerTable :=
  table.modifyEntry peerId (fun entry => { entry with lastSeen := now })
    (fun _ => rfl)

/-- `_evict`.  The entry is kept under its own id, so `del` finds it. -/
def evict (table : PeerTable) : PeerTable :=
  match table.getAllNonDirect.mergeSort PeerEntry.evictedBefore with
  | [] => table
  | evicted :: _ => table.removePeer evicted.peerId

/-- The size check of `add_peer`. -/
def makeRoom (table : PeerTable) : PeerTable :=
  if maxPeerTable ≤ table.size then table.evict else table

/-- `self._peers[entry.peer_id] = entry` -/
def enter (table : PeerTable) (entry : PeerEntry)
    (hlocal : entry.peerId ≠ table.localId) : PeerTable :=
  { table with
    peers := table.peers.set entry.peerId entry
    keyed := by
      intro other found hget
      rcases get?_set_cases hget with ⟨rfl, rfl⟩ | ⟨-, hold⟩
      · rfl
      · exact table.keyed other found hold
    localAbsent := by
      rw [get?_set, if_neg hlocal]
      exact table.localAbsent }

theorem localId_makeRoom (table : PeerTable) :
    table.makeRoom.localId = table.localId := by
  unfold makeRoom evict
  split
  · split <;> rfl
  · rfl

def addPeer (table : PeerTable) (peerId : PeerId) (publicKey : Bytes)
    (endpoint : Option Address) (now : ℚ) : PeerTable :=
  if hlocal : peerId = table.localId then table
  else if table.peers.contains peerId then
    table.modifyEntry peerId (fun entry =>
      { entry with lastSeen := now, endpoint := endpoint <|> entry.endpoint })
      (fun _ => rfl)
  else
    table.makeRoom.enter {
      peerId := peerId
      publicKey := publicKey
      endpoint := endpoint
      lastSeen := now } (by rwa [localId_makeRoom])

/-- The calls that change the table; each brings its reading of the clock. -/
inductive Call where
  | addDirectPeer (peerId : PeerId) (publicKey : Bytes)
      (nickname : Option String) (endpoint : Option Address) (now : ℚ)
  | addPeer (peerId : PeerId) (publicKey : Bytes) (endpoint : Option Address)
      (now : ℚ)
  | updateLastSeen (peerId : PeerId) (now : ℚ)
  | removePeer (peerId : PeerId)

def step (table : PeerTable) : Call → PeerTable
  | .addDirectPeer peerId publicKey nickname endpoint now =>
    table.addDirectPeer peerId publicKey nickname endpoint now
  | .addPeer peerId publicKey endpoint now =>
    table.addPeer peerId publicKey endpoint now
  | .updateLastSeen peerId now => table.updateLastSeen peerId now
  | .removePeer peerId => table.removePeer peerId

variable {table : PeerTable}

theorem mem_getAllNonDirect {entry : PeerEntry} :
    entry ∈ table.getAllNonDirect ↔
      table.peers.get? entry.peerId = some entry ∧ entry.isDirect = false := by
  rw [getAllNonDirect, mem_filter, mem_values_iff, Bool.not_eq_true']
  refine and_congr_left fun _ => ⟨?_, fun hget => ⟨_, hget⟩⟩
  rintro ⟨peerId, hget⟩
  rwa [table.keyed peerId entry hget]

/-- The entry is one that `_evict` may choose: not direct, and none of those
has a smaller key. -/
def Evictable (table : PeerTable) (evicted : PeerEntry) : Prop :=
  evicted ∈ table.getAllNonDirect ∧ ∀ entry ∈ table.getAllNonDirect,
    evicted.evictionKey ≤ entry.evictionKey

theorem evict_cases (table : PeerTable) :
    (table.getAllNonDirect = [] ∧ table.evict = table) ∨
      ∃ evicted, table.Evictable evicted ∧
        table.evict = table.removePeer evicted.peerId := by
  have hsorted : (table.getAllNonDirect.mergeSort
      PeerEntry.evictedBefore).Pairwise (PeerEntry.evictedBefore · ·) := by
    refine pairwise_mergeSort ?_ ?_ _
    · simpa [PeerEntry.evictedBefore] using fun _ _ _ => le_trans
    · simpa [PeerEntry.evictedBefore] using fun _ _ => le_total _ _
  have hperm := mergeSort_perm table.getAllNonDirect PeerEntry.evictedBefore
  unfold evict
  split
  · next hnil =>
    rw [hnil] at hperm
    exact .inl ⟨nil_perm.mp hperm, rfl⟩
  · next evicted _ hcons =>
    rw [hcons] at hperm hsorted
    refine .inr ⟨evicted, ⟨hperm.mem_iff.mp mem_cons_self, ?_⟩, rfl⟩
    intro entry hentry
    rcases mem_cons.mp (hperm.mem_iff.mpr hentry) with rfl | hrest
    · exact le_refl _
    · exact of_decide_eq_true (rel_of_pairwise_cons hsorted hrest)

/-- `add_peer` evicts at most one entry, and only if the table is full. -/
theorem makeRoom_cases (table : PeerTable) :
    ((maxPeerTable ≤ table.size → table.getAllNonDirect = []) ∧
        table.makeRoom = table) ∨
      maxPeerTable ≤ table.size ∧ ∃ evicted, table.Evictable evicted ∧
        table.makeRoom = table.removePeer evicted.peerId := by
  unfold makeRoom
  split
  · next hfull =>
    rcases table.evict_cases with ⟨hnone, hsame⟩ | hevicted
    · exact .inl ⟨fun _ => hnone, hsame⟩
    · exact .inr ⟨hfull, hevicted⟩
  · next hroom => exact .inl ⟨fun hfull => absurd hfull hroom, rfl⟩

theorem get?_makeRoom_eq_none {peerId : PeerId}
    (hnew : table.peers.get? peerId = none) :
    table.makeRoom.peers.get? peerId = none := by
  rcases table.makeRoom_cases with ⟨-, hsame⟩ | ⟨-, _, -, hremoved⟩
  · rwa [hsame]
  · rw [hremoved, removePeer, get?_erase, hnew, ite_self]

/-- The call enters a new id into a full table, and nothing makes room. -/
def Overflows (table : PeerTable) : Call → Prop
  | .addDirectPeer peerId _ _ _ _ =>
    peerId ≠ table.localId ∧ table.peers.get? peerId = none ∧
      maxPeerTable ≤ table.size
  | .addPeer peerId _ _ _ =>
    peerId ≠ table.localId ∧ table.peers.get? peerId = none ∧
      maxPeerTable ≤ table.size ∧ table.getAllNonDirect = []
  | .updateLastSeen _ _ | .removePeer _ => False

theorem size_addDirectPeer (table : PeerTable) (peerId : PeerId)
    (publicKey : Bytes) (nickname : Option String) (endpoint : Option Address)
    (now : ℚ) :
    (table.addDirectPeer peerId publicKey nickname endpoint now).size =
      if peerId ≠ table.localId ∧ table.peers.get? peerId = none then
        table.size + 1
      else table.size := by
  unfold addDirectPeer
  by_cases hlocal : peerId = table.localId
  · simp [hlocal]
  · simp [hlocal, size, size_set]

theorem size_makeRoom (hcapacity : table.size ≤ maxPeerTable) :
    table.makeRoom.size + 1 ≤ maxPeerTable ↔
      ¬ (maxPeerTable ≤ table.size ∧ table.getAllNonDirect = []) := by
  rcases table.makeRoom_cases with
    ⟨hroom, hsame⟩ | ⟨hfull, evicted, hevictable, hremoved⟩
  · rw [hsame, succ_le_iff, ← Nat.not_le]
    exact not_congr ⟨fun hfull => ⟨hfull, hroom hfull⟩, And.left⟩
  · have hget := (mem_getAllNonDirect.mp hevictable.1).1
    have hsize : (table.removePeer evicted.peerId).size + 1 = table.size :=
      size_erase_of_get? hget
    rw [hremoved, hsize]
    refine iff_of_true hcapacity fun hnone => ?_
    exact not_mem_nil (hnone.2 ▸ hevictable.1)

theorem size_step_le_iff (hcapacity : table.size ≤ maxPeerTable) (call : Call) :
    (table.step call).size ≤ maxPeerTable ↔ ¬ table.Overflows call := by
  cases call with
  | addDirectPeer =>
    rw [step, size_addDirectPeer, Overflows, ← and_assoc]
    split
    · next hnew => rw [and_iff_right hnew, succ_le_iff, Nat.not_le]
    · next hold => exact iff_of_true hcapacity fun hover => hold hover.1
  | addPeer =>
    simp only [step, addPeer, Overflows]
    split
    · next hlocal => exact iff_of_true hcapacity fun hover => hover.1 hlocal
    · next hlocal =>
      split
      · next hknown =>
        rw [OrderedDict.contains, Option.isSome_iff_ne_none] at hknown
        refine iff_of_true ?_ fun hover => hknown hover.2.1
        simpa only [size, modifyEntry, size_modify] using hcapacity
      · next hnew =>
        rw [Bool.not_eq_true, contains_eq_false_iff] at hnew
        rw [size, enter, size_set_of_get?_eq_none (get?_makeRoom_eq_none hnew)]
        simpa only [ne_eq, hlocal, hnew, not_false_eq_true, true_and,
          size] using size_makeRoom hcapacity
  | updateLastSeen =>
    refine iff_of_true ?_ not_false
    simpa only [step, updateLastSeen, size, modifyEntry,
      size_modify] using hcapacity
  | removePeer peerId =>
    exact iff_of_true ((table.peers.size_erase_le peerId).trans hcapacity)
      not_false

/-- The table stays within its limit exactly as long as no contact, and no
peer for whom no entry can be evicted, is entered into a full table. -/
theorem capacity_kept_iff (localId : PeerId) (calls : List Call) :
    Along step (fun table => table.size ≤ maxPeerTable) (.empty localId) calls ↔
      EveryStep step (fun table call => ¬ table.Overflows call)
        (.empty localId) calls :=
  along_iff_everyStep (fun _ call hcapacity => size_step_le_iff hcapacity call)
    (zero_le _) calls

variable {peerId : PeerId}

/-- What an `add_peer` call does to the entries of the other peers: nothing,
or it drops an evictable one from a full table. -/
def EvictsOldest (table : PeerTable) : Call → Prop
  | .addPeer peerId publicKey endpoint now =>
    let after := table.addPeer peerId publicKey endpoint now
    (∀ other ≠ peerId, after.peers.get? other = table.peers.get? other) ∨
      maxPeerTable ≤ table.size ∧ ∃ evicted, table.Evictable evicted ∧
        ∀ other ≠ peerId, after.peers.get? other =
          if evicted.peerId = other then none else table.peers.get? other
  | _ => True

theorem evictsOldest (table : PeerTable) (call : Call) :
    table.EvictsOldest call := by
  cases call with
  | addPeer =>
    simp only [EvictsOldest, addPeer]
    split
    · exact .inl fun _ _ => rfl
    · split
      · refine .inl fun other hother => ?_
        rw [modifyEntry, get?_modify, if_neg hother.symm]
      · rcases table.makeRoom_cases with
          ⟨-, hsame⟩ | ⟨hfull, evicted, hevictable, hremoved⟩
        · refine .inl fun other hother => ?_
          rw [enter, get?_set, if_neg hother.symm, hsame]
        · refine .inr ⟨hfull, evicted, hevictable, fun other hother => ?_⟩
          rw [enter, get?_set, if_neg hother.symm, hremoved,
            removePeer, get?_erase]
  | addDirectPeer | updateLastSeen | removePeer => trivial

section

variable (hdirect : table.isDirect peerId = true)

include hdirect

theorem isDirect_addPeer (added : PeerId) (publicKey : Bytes)
    (endpoint : Option Address) (now : ℚ) :
    (table.addPeer added publicKey endpoint now).isDirect peerId = true := by
  obtain ⟨_, hentry, hisDirect⟩ :=
    mem_getDirectPeerIds.mp (isDirect_iff.mp hdirect)
  by_cases hadded : peerId = added
  · subst hadded
    have hknown : table.peers.contains peerId = true := by
      rw [OrderedDict.contains, hentry, Option.isSome_some]
    simp only [addPeer, hknown, ↓reduceIte]
    split
    · exact hdirect
    · refine (isDirect_modifyEntry table _ peerId _ ?_).trans hdirect
      exact fun _ => rfl
  · rcases table.evictsOldest (.addPeer added publicKey endpoint now) with
      hsame | ⟨-, evicted, hevictable, hothers⟩
    · rwa [isDirect, hsame peerId hadded]
    · have hnonDirect := mem_getAllNonDirect.mp hevictable.1
      have hne : evicted.peerId ≠ peerId := by
        intro heq
        rw [heq, hentry] at hnonDirect
        cases hnonDirect.1
        exact Bool.false_ne_true (hnonDirect.2.symm.trans hisDirect)
      rwa [isDirect, hothers peerId hadded, if_neg hne]

/-- Only `remove_peer` takes a contact out of the table. -/
theorem isDirect_step {call : Call} (hkept : call ≠ .removePeer peerId) :
    (table.step call).isDirect peerId = true := by
  cases call with
  | addDirectPeer =>
    rw [step, isDirect_addDirectPeer, hdirect, ite_self]
  | addPeer added publicKey endpoint now =>
    exact isDirect_addPeer hdirect added publicKey endpoint now
  | updateLastSeen =>
    rw [step, updateLastSeen, isDirect_modifyEntry]
    · exact hdirect
    · exact fun _ => rfl
  | removePeer removed =>
    have hne : removed ≠ peerId := fun heq => hkept (heq ▸ rfl)
    rw [step, isDirect_removePeer, if_neg hne, hdirect]

theorem isDirect_run {calls : List Call} (hkept : .removePeer peerId ∉ calls) :
    (run step table calls).isDirect peerId = true := by
  induction calls generalizing table with
  | nil => exact hdirect
  | cons _ _ ih =>
    rw [mem_cons, not_or] at hkept
    exact ih (isDirect_step hdirect (Ne.symm hkept.1)) hkept.2

end

theorem localId_step (table : PeerTable) (call : Call) :
    (table.step call).localId = table.localId := by
  cases call with
  | addDirectPeer => exact localId_addDirectPeer ..
  | addPeer =>
    simp only [step, addPeer]
    split
    · rfl
    · split
      · rfl
      · exact localId_makeRoom table
  | updateLastSeen | removePeer => rfl

/-- Whatever is called on a table: the local id has no entry, an entry stands
under its own id, a contact is lost through `remove_peer` only, and `add_peer`
evicts at most one entry, from a full table, that is not direct and has the
least `(last_seen, version_counter)`. -/
theorem integrity_under_churn (table : PeerTable) (calls : List Call) :
    (run step table calls).peers.get? table.localId = none ∧
      (∀ peerId entry, (run step table calls).peers.get? peerId = some entry →
          entry.peerId = peerId) ∧
      (∀ peerId, table.isDirect peerId = true →
        (run step table calls).isDirect peerId = false →
          .removePeer peerId ∈ calls) ∧
      EveryStep step EvictsOldest table calls := by
  have hstep : ∀ state call, state.localId = table.localId →
      (step state call).localId = table.localId :=
    fun state call hlocal => (localId_step state call).trans hlocal
  have hlocal := inv_run hstep rfl calls
  refine ⟨hlocal ▸ localAbsent _, keyed _, ?_,
    everyStep_of_forall (fun call _ state => evictsOldest state call) table⟩
  intro peerId hdirect hlost
  by_contra hkept
  exact Bool.false_ne_true (hlost.symm.trans (isDirect_run hdirect hkept))

end PeerTable

namespace TableCallsWitness

open PeerTable

def peer (number : Nat) : PeerId := BigEndian.encode 32 number

theorem peer_ne {left right : Nat} (hlt : left < right)
    (hright : right < 1000) : peer left ≠ peer right := by
  intro heq
  have hbound : 1000 ≤ 256 ^ 32 := by decide
  exact hlt.ne (BigEndian.encode_injective
    ((hlt.trans hright).trans_le hbound) (hright.trans_le hbound) heq)

/-- The table of peer 0 after it has added as many contacts. -/
def contacts (count : Nat) : PeerTable :=
  run step (.empty (peer 0)) ((List.range count).map fun number =>
    .addDirectPeer (peer (number + 1)) [] none none 0)

theorem size_contacts {count : Nat} (hcount : count < 1000) :
    (contacts count).localId = peer 0 ∧ (contacts count).size = count ∧
      ∀ number, count < number → number < 1000 →
        (contacts count).peers.get? (peer number) = none := by
  induction count with
  | zero => exact ⟨rfl, rfl, fun _ _ _ => rfl⟩
  | succ count ih =>
    obtain ⟨hlocal, hsize, hnew⟩ := ih (lt_of_succ_lt hcount)
    have hother : peer (count + 1) ≠ (contacts count).localId := by
      rw [hlocal]
      exact (peer_ne (succ_pos count) hcount).symm
    have hstep : contacts (count + 1) = (contacts count).addDirectPeer
        (peer (count + 1)) [] none none 0 := by
      rw [contacts, range_succ, map_append, run_append, ← contacts,
        map_singleton, run_cons, run_nil, step]
    refine ⟨by rw [hstep, localId_addDirectPeer, hlocal], ?_, ?_⟩
    · rw [hstep, size_addDirectPeer, if_pos
        ⟨hother, hnew _ (lt_succ_self count) hcount⟩, hsize]
    · intro number hlt hnumber
      simp only [hstep, addDirectPeer, hother, ↓reduceDIte,
        get?_set, peer_ne hlt hnumber, ↓reduceIte]
      exact hnew number (lt_of_succ_lt hlt) hnumber

/-- One contact more than the table may hold. -/
theorem contacts_exceed_capacity : maxPeerTable < (contacts 501).size := by
  rw [(size_contacts (by decide)).2.1]
  decide

end TableCallsWitness

end AshiChat
