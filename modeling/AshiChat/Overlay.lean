/-
The overlay (`overlay.py`): a bounded random part of the peers that are not
contacts.  Every shuffle brings its own permutation and every entry that is
examined its own reading of the clock.
-/
import AshiChat.TableCalls
import Mathlib.Data.List.FinRange

namespace AshiChat

open EventRun List

/-- `items[:count]` -/
def upTo (count : Int) (items : List α) : List α :=
  match count with
  | .ofNat n => items.take n
  | .negSucc n => items.take (items.length - (n + 1))

/-- An outcome of `random.shuffle`: a permutation of the positions of every
list. -/
def Shuffle := (n : Nat) → Equiv.Perm (Fin n)

def Shuffle.order (shuffle : Shuffle) (items : List α) : List α :=
  List.ofFn (items.get ∘ shuffle items.length)

theorem Shuffle.order_perm (shuffle : Shuffle) (items : List α) :
    (shuffle.order items).Perm items := by
  have hperm := Equiv.Perm.ofFn_comp_perm (shuffle items.length) items.get
  rwa [ofFn_get] at hperm

/-- Filling up: the items, then new ones from a shuffled pool, up to `k`. -/
def fillUp (k : Nat) (shuffle : Shuffle) (items pool : List α) : List α :=
  items ++ upTo (k - items.length) (shuffle.order pool)

section Filling

variable {k : Nat} {items pool : List α}

section

variable (hroom : items.length ≤ k)

include hroom

variable (shuffle : Shuffle)

theorem fillUp_eq : fillUp k shuffle items pool =
      items ++ (shuffle.order pool).take (k - items.length) := by
  rw [fillUp, ← Nat.cast_sub hroom]
  rfl

theorem mem_of_mem_fillUp {shuffle : Shuffle}
    {item : α} (hmem : item ∈ fillUp k shuffle items pool) :
    item ∈ items ∨ item ∈ pool := by
  rw [fillUp_eq hroom, mem_append] at hmem
  exact hmem.imp_right fun htaken =>
    (shuffle.order_perm pool).mem_iff.mp (mem_of_mem_take htaken)

theorem length_fillUp : (fillUp k shuffle items pool).length =
      min k (items.length + pool.length) := by
  rw [fillUp_eq hroom, length_append, length_take,
    (shuffle.order_perm pool).length_eq]
  omega

theorem nodup_fillUp (hitems : items.Nodup) (hpool : pool.Nodup)
    (hnew : ∀ item ∈ pool, item ∉ items) :
    (fillUp k shuffle items pool).Nodup := by
  rw [fillUp_eq hroom]
  refine hitems.append (((shuffle.order_perm pool).nodup_iff.mpr
    hpool).sublist (take_sublist _ _)) ?_
  intro item hitem htaken
  exact hnew item ((shuffle.order_perm pool).mem_iff.mp
    (mem_of_mem_take htaken)) hitem

end

end Filling

def maxOverlayK : Nat := 50

def inactiveThreshold : ℚ := 3600

/-- `now - entry.last_seen < INACTIVE_THRESHOLD` -/
def PeerEntry.activeAt (entry : PeerEntry) (now : ℚ) : Bool :=
  now - entry.lastSeen < inactiveThreshold

/-- The ids of `get_all_non_direct`. -/
def PeerTable.nonDirectIds (table : PeerTable) : List PeerId :=
  table.getAllNonDirect.map PeerEntry.peerId

theorem PeerTable.nodup_nonDirectIds (table : PeerTable) :
    table.nonDirectIds.Nodup := by
  have hkeys : table.peers.values.map PeerEntry.peerId = table.peers.keys := by
    rw [OrderedDict.values, OrderedDict.keys, map_map]
    exact map_congr_left fun binding hmem =>
      table.keyed _ _ (table.peers.get?_eq_of_mem_entries hmem)
  have hnodup : (table.peers.values.map PeerEntry.peerId).Nodup :=
    hkeys ▸ table.peers.nodup
  exact hnodup.sublist (filter_sublist.map PeerEntry.peerId)

theorem PeerTable.mem_nonDirectIds {table : PeerTable} {peerId : PeerId} :
    peerId ∈ table.nonDirectIds ↔
      ∃ entry, table.peers.get? peerId = some entry ∧
        entry.isDirect = false := by
  simp only [nonDirectIds, mem_map, mem_getAllNonDirect]
  constructor
  · rintro ⟨entry, hentry, rfl⟩
    exact ⟨entry, hentry⟩
  · rintro ⟨entry, hget, hdirect⟩
    obtain rfl := table.keyed peerId entry hget
    exact ⟨entry, ⟨hget, hdirect⟩, rfl⟩

/-- The members are pairwise distinct and at most `k`. -/
structure OverlayManager where
  k : Nat
  overlay : List PeerId
  distinct : overlay.Nodup
  bounded : overlay.length ≤ k

namespace OverlayManager

def init (overlayK : Nat) : OverlayManager where
  k := min overlayK maxOverlayK
  overlay := []
  distinct := .nil
  bounded := Nat.zero_le _

variable (table : PeerTable) (now later : PeerId → ℚ) (first second : Shuffle)

/-- The active part of a selection.  For `k` up to 50 the floating-point
product `k * 0.6` truncates to `k * 3 / 5`. -/
def priority (k : Nat) : List PeerId :=
  ((first.order (table.getAllNonDirect.filter fun entry =>
    entry.activeAt (now entry.peerId))).take (k * 3 / 5)).map PeerEntry.peerId

/-- The non-direct peers that are left for the random part. -/
def remainingPool (k : Nat) : List PeerId :=
  table.nonDirectIds.filter (· ∉ priority table now first k)

variable (k : Nat)

theorem length_priority : (priority table now first k).length ≤ k := by
  rw [priority, length_map]
  exact (length_take_le _ _).trans (by omega)

theorem priority_subperm :
    (priority table now first k).Subperm table.nonDirectIds := by
  have hactive := (take_sublist (k * 3 / 5) _).subperm.trans
    ((first.order_perm (table.getAllNonDirect.filter fun entry =>
      entry.activeAt (now entry.peerId))).subperm.trans filter_sublist.subperm)
  obtain ⟨_, hperm, hsublist⟩ := hactive
  exact ⟨_, hperm.map _, hsublist.map _⟩

theorem nodup_priority : (priority table now first k).Nodup := by
  obtain ⟨_, hperm, hsublist⟩ := priority_subperm table now first k
  exact hperm.nodup_iff.mp (table.nodup_nonDirectIds.sublist hsublist)

/-- A selection draws from all non-direct peers. -/
theorem length_remainingPool : (priority table now first k).length +
        (remainingPool table now first k).length =
      table.nonDirectIds.length := by
  rw [remainingPool, ← table.nodup_nonDirectIds.sdiff_eq_filter,
    ← length_append]
  exact (subperm_append_diff_self_of_count_le
    (subperm_ext_iff.mp (priority_subperm table now first k))).length_eq

def selectOverlay (manager : OverlayManager) : OverlayManager where
  k := manager.k
  overlay := fillUp manager.k second (priority table now first manager.k)
    (remainingPool table now first manager.k)
  distinct := nodup_fillUp (length_priority table now first _) second
    (nodup_priority table now first _) (table.nodup_nonDirectIds.filter _)
    (by simp [remainingPool])
  bounded := by
    rw [length_fillUp (length_priority table now first _)]
    exact Nat.min_le_left _ _

/-- The members that `rotate` does not drop as gone or inactive. -/
def kept (manager : OverlayManager) : List PeerId :=
  manager.overlay.filter fun peerId =>
    (table.peers.get? peerId).any (PeerEntry.activeAt · (now peerId))

/-- The members left once a tenth, and at least one, made room.  For up to 50
members `int(len * 0.10)` is `len / 10`. -/
def trimmed (manager : OverlayManager) : List PeerId :=
  let kept := manager.kept table now
  let replaceCount := max 1 (kept.length / 10)
  if kept.length > replaceCount then kept.drop replaceCount else kept

variable (manager : OverlayManager)

theorem trimmed_sublist :
    (manager.trimmed table now).Sublist (manager.kept table now) := by
  simp only [trimmed]
  split
  · exact drop_sublist _ _
  · exact .refl _

/-- The active peers that `rotate` may add. -/
def candidates (manager : OverlayManager) : List PeerId :=
  (table.getAllNonDirect.filter fun entry =>
    entry.peerId ∉ manager.trimmed table now ∧
      entry.activeAt (later entry.peerId)).map PeerEntry.peerId

theorem mem_candidates {manager : OverlayManager} {peerId : PeerId}
    (hmem : peerId ∈ manager.candidates table now later) :
    peerId ∉ manager.trimmed table now ∧
      ∃ entry, table.peers.get? peerId = some entry ∧
        entry.activeAt (later peerId) = true := by
  obtain ⟨entry, hentry, rfl⟩ := mem_map.mp hmem
  obtain ⟨hnonDirect, hfits⟩ := mem_filter.mp hentry
  obtain ⟨hnew, hactive⟩ := of_decide_eq_true hfits
  exact ⟨hnew, entry, (PeerTable.mem_getAllNonDirect.mp hnonDirect).1, hactive⟩

theorem length_trimmed : (manager.trimmed table now).length ≤ manager.k :=
  ((trimmed_sublist table now manager).trans
    filter_sublist).length_le.trans manager.bounded

def rotate (manager : OverlayManager) : OverlayManager :=
  if manager.overlay = [] then manager.selectOverlay table now first second
  else
    { k := manager.k
      overlay := fillUp manager.k first (manager.trimmed table now)
        (manager.candidates table now later)
      distinct := nodup_fillUp (length_trimmed table now manager) first
        (manager.distinct.sublist ((trimmed_sublist table now manager).trans
          filter_sublist))
        (table.nodup_nonDirectIds.sublist (filter_sublist.map PeerEntry.peerId))
        (fun _ hmem => (mem_candidates table now later hmem).1)
      bounded := by
        rw [length_fillUp (length_trimmed table now manager)]
        exact Nat.min_le_left _ _ }

variable {table now later first second}

/-- A selection has only non-direct peers, and as many as there are. -/
theorem selectOverlay_spec :
    let overlay := (manager.selectOverlay table now first second).overlay
    (∀ peerId ∈ overlay, ∃ entry, table.peers.get? peerId = some entry ∧
        entry.isDirect = false) ∧
      overlay.length = min manager.k table.getAllNonDirect.length := by
  refine ⟨fun peerId hmem => ?_, ?_⟩
  · refine PeerTable.mem_nonDirectIds.mp ?_
    rcases mem_of_mem_fillUp (length_priority table now first _) hmem with
      hpriority | hpool
    · exact (priority_subperm table now first _).subset hpriority
    · exact mem_of_mem_filter hpool
  · rw [selectOverlay, length_fillUp (length_priority table now first _),
      length_remainingPool, PeerTable.nonDirectIds, length_map]

/-- After a rotation every member was active when it was examined. -/
theorem rotate_spec {manager : OverlayManager} (hsome : manager.overlay ≠ [])
    {peerId : PeerId}
    (hmem : peerId ∈ (manager.rotate table now later first second).overlay) :
    ∃ entry, table.peers.get? peerId = some entry ∧
      (entry.activeAt (now peerId) = true ∨
        entry.activeAt (later peerId) = true) := by
  rw [rotate, if_neg hsome] at hmem
  rcases mem_of_mem_fillUp (length_trimmed table now manager) hmem with
    hkept | hadded
  · have hactive := (mem_filter.mp
      ((trimmed_sublist table now manager).subset hkept)).2
    obtain ⟨entry, hget, hentry⟩ := (Option.any_eq_true _ _).mp hactive
    exact ⟨entry, hget, .inl hentry⟩
  · obtain ⟨-, entry, hget, hentry⟩ := mem_candidates table now later hadded
    exact ⟨entry, hget, .inr hentry⟩

end OverlayManager

/-- The manager and the table it looks at. -/
structure OverlayState where
  table : PeerTable
  manager : OverlayManager

/-- What happens to them: any change of the table, and the two calls that
draw an overlay. -/
inductive OverlayEvent where
  | change (f : PeerTable → PeerTable)
  | selectOverlay (now : PeerId → ℚ) (first second : Shuffle)
  | rotate (now later : PeerId → ℚ) (first second : Shuffle)

namespace OverlayState

def step (state : OverlayState) : OverlayEvent → OverlayState
  | .change f => { state with table := f state.table }
  | .selectOverlay now first second =>
    { state with
      manager := state.manager.selectOverlay state.table now first second }
  | .rotate now later first second =>
    { state with
      manager := state.manager.rotate state.table now later first second }

/-- The overlay has no duplicates and at most `limit` members, and all of them
meet the condition. -/
def Draws (state : OverlayState) (limit : Nat)
    (member : PeerId → PeerEntry → Prop) : Prop :=
  state.manager.overlay.Nodup ∧ state.manager.overlay.length ≤ limit ∧
    ∀ peerId ∈ state.manager.overlay, ∃ entry,
      state.table.peers.get? peerId = some entry ∧ member peerId entry

/-- What the two calls promise about the overlay they leave behind. -/
def Promise (limit : Nat) (state : OverlayState) (event : OverlayEvent) :
    Prop :=
  let after := state.step event
  let drawn := after.Draws limit (fun _ entry => entry.isDirect = false) ∧
    after.manager.overlay.length = min limit state.table.getAllNonDirect.length
  match event with
  | .change _ => True
  | .selectOverlay _ _ _ => drawn
  | .rotate now later _ _ =>
    if state.manager.overlay = [] then drawn
    else after.Draws limit fun peerId entry =>
      now peerId - entry.lastSeen < inactiveThreshold ∨
        later peerId - entry.lastSeen < inactiveThreshold

theorem promise_kept (state : OverlayState) (event : OverlayEvent) :
    state.Promise state.manager.k event := by
  cases event with
  | change => trivial
  | selectOverlay =>
    obtain ⟨hmembers, hlength⟩ := state.manager.selectOverlay_spec
    exact ⟨⟨OverlayManager.distinct _, OverlayManager.bounded _, hmembers⟩,
      hlength⟩
  | rotate now later first second =>
    simp only [Promise, step]
    split
    · next hempty =>
      rw [OverlayManager.rotate, if_pos hempty]
      obtain ⟨hmembers, hlength⟩ := state.manager.selectOverlay_spec
      exact ⟨⟨OverlayManager.distinct _, OverlayManager.bounded _,
        hmembers⟩, hlength⟩
    · next hsome =>
      have hk : (state.manager.rotate state.table now later first
          second).k = state.manager.k := by
        rw [OverlayManager.rotate, if_neg hsome]
      refine ⟨OverlayManager.distinct _,
        hk ▸ OverlayManager.bounded _, fun peerId hmem => ?_⟩
      simpa only [PeerEntry.activeAt, decide_eq_true_eq] using
        OverlayManager.rotate_spec hsome hmem

theorem k_step (state : OverlayState) (event : OverlayEvent) :
    (state.step event).manager.k = state.manager.k := by
  cases event with
  | change | selectOverlay => rfl
  | rotate =>
    simp only [step, OverlayManager.rotate]
    split <;> rfl

/-- Over every history of the table, every clock and every shuffle, the
overlay is what `select_overlay` and `rotate` promise. -/
theorem overlay_invariant (overlayK : Nat) (table : PeerTable)
    (events : List OverlayEvent) :
    EveryStep step (Promise (min overlayK maxOverlayK))
      ⟨table, .init overlayK⟩ events := by
  have hstep : ∀ state event, state.manager.k = min overlayK maxOverlayK →
        (step state event).manager.k = min overlayK maxOverlayK :=
    fun state event hk => (k_step state event).trans hk
  refine everyStep_of_inv hstep (fun state event hk => ?_) rfl events
  exact hk ▸ promise_kept state event

end OverlayState

end AshiChat
