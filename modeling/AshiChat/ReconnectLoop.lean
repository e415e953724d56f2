/-
The loop of the `ReconnectManager`.  A pass reads the clock once, walks over a
copy of the entries and waits for a callback at every peer whose time has come;
handshakes and disconnects are recorded while it waits.  The walk keeps
references to the state dicts, also to one that is taken out under it.
-/
import AshiChat.EndpointNode

namespace AshiChat

open EventRun OrderedDict

/-- `ARCHIVE_DAYS`, in seconds. -/
def archiveAfter : ℚ := 7 * 86400

def archiveRetry : ℚ := 86400

/-- A reference of the walk: to the dict that `_state` holds for the peer, or
to one that `record_connect` has taken out since. -/
inductive StateRef where
  | held
  | dropped (entry : ReconnectEntry)
deriving DecidableEq

abbrev LoopItem := PeerId × StateRef

/-- Where `_reconnect_loop` is.  While it iterates nothing else runs. -/
inductive LoopPhase where
  | asleep
  | iterating (now : ℚ) (rest : List LoopItem)
  | archiving (now : ℚ) (item : LoopItem) (rest : List LoopItem)
  | connecting (now : ℚ) (peerId : PeerId) (rest : List LoopItem)
deriving DecidableEq

namespace LoopPhase

/-- `record_connect` takes the dict away; the references to it stay. -/
def detach (peerId : PeerId) (entry : ReconnectEntry) : LoopPhase → LoopPhase
  | .asleep => .asleep
  | .iterating now rest => .iterating now (rest.map drop)
  | .archiving now item rest => .archiving now (drop item) (rest.map drop)
  | .connecting now current rest => .connecting now current (rest.map drop)
where
  drop (item : LoopItem) : LoopItem :=
    if item = (peerId, .held) then (peerId, .dropped entry) else item

def suspended : LoopPhase → Bool
  | .iterating .. => false
  | _ => true

/-- The peer whose connect callback is awaited. -/
def attempted : LoopPhase → Option PeerId
  | .connecting _ peerId _ => some peerId
  | _ => none

/-- What the pass under way has still to look at, with its clock. -/
def ahead : LoopPhase → List (ℚ × LoopItem)
  | .asleep => []
  | .iterating now rest | .archiving now _ rest | .connecting now _ rest =>
    rest.map (Prod.mk now)

end LoopPhase

structure ReconnectManager where
  states : Reconnect
  phase : LoopPhase
deriving DecidableEq

inductive ReconnectEvent where
  | recordConnect (peerId : PeerId)
  | recordDisconnect (peerId : PeerId) (now : ℚ)
  /-- The sleep is over: a pass begins. -/
  | wake (now : ℚ)
  /-- The next round of the `for`; `should_archive` reads the clock again. -/
  | advance (clock : ℚ)
  /-- The callback has returned or raised. -/
  | returned (clock : ℚ)
deriving DecidableEq

/-- The callbacks of the loop. -/
inductive LoopCall where
  | connect (peerId : PeerId)
  | archive (peerId : PeerId)
deriving DecidableEq

namespace ReconnectManager

def start : ReconnectManager := ⟨.empty, .asleep⟩

/-- The dict behind a reference. -/
def entryOf (manager : ReconnectManager) : LoopItem → Option ReconnectEntry
  | (peerId, .held) => manager.states.get? peerId
  | (_, .dropped entry) => some entry

/-- `now < state["next_retry"]` does not hold. -/
def due (manager : ReconnectManager) (now : ℚ) (item : LoopItem) : Bool :=
  (manager.entryOf item).any fun entry => decide (entry.nextRetry ≤ now)

/-- `should_archive`, which looks the peer up again. -/
def shouldArchive (manager : ReconnectManager) (peerId : PeerId) (clock : ℚ) :
    Bool :=
  (manager.states.get? peerId).any fun entry =>
    decide (archiveAfter < clock - entry.firstDisconnect)

/-- The callback that is called for an item, if any. -/
def callFor (manager : ReconnectManager) (now clock : ℚ) (item : LoopItem) :
    Option LoopCall :=
  if manager.due now item then
    if manager.shouldArchive item.1 clock then some (.archive item.1)
    else some (.connect item.1)
  else none

/-- One round of the `for`, up to the callback it waits for. -/
def advance (manager : ReconnectManager) (now clock : ℚ) :
    List LoopItem → LoopPhase
  | [] => .asleep
  | item :: rest =>
    match manager.callFor now clock item with
    | none => .iterating now rest
    | some (.archive _) => .archiving now item rest
    | some (.connect peerId) => .connecting now peerId rest

/-- `state["next_retry"] = now + ARCHIVE_RETRY` -/
def postpone (manager : ReconnectManager) (now : ℚ) : LoopItem → Reconnect
  | (peerId, .held) =>
    manager.states.modify peerId fun entry =>
      { entry with nextRetry := now + archiveRetry }
  | (_, .dropped _) => manager.states

def step (manager : ReconnectManager) : ReconnectEvent → ReconnectManager
  | .recordConnect peerId =>
    if manager.phase.suspended then
      { states := manager.states.recordConnect peerId
        phase := match manager.states.get? peerId with
          | none => manager.phase
          | some entry => manager.phase.detach peerId entry }
    else manager
  | .recordDisconnect peerId now =>
    if manager.phase.suspended then
      { manager with states := manager.states.recordDisconnect peerId now }
    else manager
  | .wake now =>
    match manager.phase with
    | .asleep =>
      { manager with
        phase := .iterating now ((manager.states.keys).map (·, .held)) }
    | _ => manager
  | .advance clock =>
    match manager.phase with
    | .iterating now rest =>
      { manager with phase := manager.advance now clock rest }
    | _ => manager
  | .returned clock =>
    match manager.phase with
    | .archiving now item rest =>
      ⟨manager.postpone now item, .iterating now rest⟩
    | .connecting now peerId rest =>
      -- the attempt is recorded whatever has happened meanwhile
      ⟨manager.states.recordAttempt peerId clock, .iterating now rest⟩
    | _ => manager

/-- The callbacks that are called in a step. -/
def calls (manager : ReconnectManager) : ReconnectEvent → List LoopCall
  | .advance clock =>
    match manager.phase with
    | .iterating now (item :: _) => (manager.callFor now clock item).toList
    | _ => []
  | _ => []

def getAttemptCount (manager : ReconnectManager) (peerId : PeerId) : Nat :=
  manager.states.getAttemptCount peerId

variable {manager : ReconnectManager} {peerId : PeerId}

/-- The pass under way, if any, is done with the peer: its attempt is not
awaited, and what lies ahead of it is not due. -/
structure Clear (manager : ReconnectManager) (peerId : PeerId) : Prop where
  attempted : manager.phase.attempted ≠ some peerId
  ahead : ∀ pair ∈ manager.phase.ahead, pair.2.1 = peerId →
    manager.due pair.1 pair.2 = false

instance (manager : ReconnectManager) (peerId : PeerId) :
    Decidable (manager.Clear peerId) :=
  decidable_of_iff (manager.phase.attempted ≠ some peerId ∧
      ∀ pair ∈ manager.phase.ahead, pair.2.1 = peerId →
        manager.due pair.1 pair.2 = false)
    ⟨fun hclear => ⟨hclear.1, hclear.2⟩, fun hclear => ⟨hclear.1, hclear.2⟩⟩

theorem attempted_detach (phase : LoopPhase) (peerId : PeerId)
    (entry : ReconnectEntry) :
    (phase.detach peerId entry).attempted = phase.attempted := by
  cases phase <;> rfl

theorem fst_drop (peerId : PeerId) (entry : ReconnectEntry) (item : LoopItem) :
    (LoopPhase.detach.drop peerId entry item).1 = item.1 := by
  unfold LoopPhase.detach.drop
  split
  · next hitem => rw [hitem]
  · rfl

theorem ahead_detach (phase : LoopPhase) (peerId : PeerId)
    (entry : ReconnectEntry) :
    (phase.detach peerId entry).ahead =
      phase.ahead.map (Prod.map id (LoopPhase.detach.drop peerId entry)) := by
  cases phase <;> simp [LoopPhase.detach, LoopPhase.ahead, Function.comp_def]

theorem due_congr {other : ReconnectManager} {item : LoopItem}
    (hstate : other.states.get? item.1 = manager.states.get? item.1) (now : ℚ) :
    other.due now item = manager.due now item := by
  obtain ⟨_, ref⟩ := item
  cases ref with
  | held => simp only [due, entryOf, hstate]
  | dropped => rfl

/-- A reference to a dict that is taken out shows what it showed before. -/
theorem due_detach {entry : ReconnectEntry}
    (hentry : manager.states.get? peerId = some entry)
    (item : LoopItem) (now : ℚ) :
    (ReconnectManager.mk (manager.states.recordConnect peerId)
        (manager.phase.detach peerId entry)).due now
          (LoopPhase.detach.drop peerId entry item) =
      manager.due now item := by
  unfold LoopPhase.detach.drop
  split
  · next hitem =>
    subst hitem
    simp only [due, entryOf, hentry]
  · next hitem =>
    obtain ⟨owner, ref⟩ := item
    cases ref with
    | held =>
      have howner : peerId ≠ owner := fun heq => hitem (by rw [heq])
      refine due_congr ?_ now
      simp only [Reconnect.recordConnect, get?_erase, if_neg howner]
    | dropped => rfl

theorem Clear.recordConnect (hclear : manager.Clear peerId) (other : PeerId) :
    (manager.step (.recordConnect other)).Clear peerId := by
  simp only [step]
  split
  · cases hentry : manager.states.get? other with
    | none =>
      have hsame : manager.states.recordConnect other = manager.states :=
        (erase_eq_self_iff ..).mpr hentry
      simp only [hsame]
      exact ⟨hclear.attempted, hclear.ahead⟩
    | some =>
      refine ⟨by simpa only [attempted_detach] using hclear.attempted, ?_⟩
      simp only [ahead_detach, List.forall_mem_map]
      intro pair hpair howner
      refine (due_detach hentry pair.2 pair.1).trans
        (hclear.ahead pair hpair ?_)
      rwa [Prod.map_snd, fst_drop] at howner
  · exact hclear

/-- The manager knows nothing of the peer, and the pass will not bring it
back. -/
structure Quiet (manager : ReconnectManager) (peerId : PeerId) : Prop where
  absent : manager.states.get? peerId = none
  clear : manager.Clear peerId

theorem quiet_recordConnect (hclear : manager.Clear peerId)
    (hsuspended : manager.phase.suspended = true) :
    (manager.step (.recordConnect peerId)).Quiet peerId := by
  refine ⟨?_, hclear.recordConnect peerId⟩
  simp only [step, hsuspended, if_true]
  exact get?_erase_self ..

theorem Clear.of_ahead {later : ReconnectManager}
    (hclear : manager.Clear peerId)
    (hattempted : later.phase.attempted ≠ some peerId)
    (hahead : later.phase.ahead ⊆ manager.phase.ahead)
    (hstate : later.states.get? peerId =
      manager.states.get? peerId) : later.Clear peerId := by
  refine ⟨hattempted, fun pair hpair howner => ?_⟩
  have hsame : later.states.get? pair.2.1 =
      manager.states.get? pair.2.1 := by rw [howner, hstate]
  rw [due_congr hsame]
  exact hclear.ahead pair (hahead hpair) howner

theorem Quiet.of_ahead {later : ReconnectManager}
    (hquiet : manager.Quiet peerId)
    (hattempted : later.phase.attempted ≠ some peerId)
    (hahead : later.phase.ahead ⊆ manager.phase.ahead)
    (hstate : later.states.get? peerId =
      manager.states.get? peerId) : later.Quiet peerId :=
  ⟨hstate.trans hquiet.absent, hquiet.clear.of_ahead hattempted hahead hstate⟩

/-- What a round of the `for` can do. -/
theorem step_advance_cases {now : ℚ} {item : LoopItem} {rest : List LoopItem}
    (hphase : manager.phase = .iterating now (item :: rest)) (clock : ℚ) :
    (manager.due now item = false ∧ manager.step (.advance clock) =
        { manager with phase := .iterating now rest } ∧
      manager.calls (.advance clock) = []) ∨
    (manager.due now item = true ∧ manager.shouldArchive item.1 clock = true ∧
      manager.step (.advance clock) =
        { manager with phase := .archiving now item rest } ∧
      manager.calls (.advance clock) = [.archive item.1]) ∨
    (manager.due now item = true ∧ manager.shouldArchive item.1 clock = false ∧
      manager.step (.advance clock) =
        { manager with phase := .connecting now item.1 rest } ∧
      manager.calls (.advance clock) = [.connect item.1]) := by
  simp only [step, calls, hphase, advance, callFor]
  cases manager.due now item with
  | false => exact .inl ⟨rfl, rfl, rfl⟩
  | true =>
    cases manager.shouldArchive item.1 clock with
    | true => exact .inr (.inl ⟨rfl, rfl, rfl, rfl⟩)
    | false => exact .inr (.inr ⟨rfl, rfl, rfl, rfl⟩)

section

variable (hquiet : manager.Quiet peerId)

include hquiet

theorem Quiet.advance (clock : ℚ) :
    (manager.step (.advance clock)).Quiet peerId ∧
      .connect peerId ∉ manager.calls (.advance clock) := by
  cases hphase : manager.phase with
  | iterating now rest =>
    cases rest with
    | nil =>
      simp only [step, calls, hphase]
      refine ⟨hquiet.of_ahead ?_ ?_ rfl, List.not_mem_nil⟩
      · rintro ⟨⟩
      · exact List.nil_subset _
    | cons item rest =>
      have hahead : manager.phase.ahead =
          (now, item) :: rest.map (Prod.mk now) := by
        rw [hphase]
        rfl
      have hrest : rest.map (Prod.mk now) ⊆ manager.phase.ahead := by
        rw [hahead]
        exact List.subset_cons_self _ _
      obtain ⟨-, hnext, hcalls⟩ | ⟨-, -, hnext, hcalls⟩ |
        ⟨hdue, -, hnext, hcalls⟩ := step_advance_cases hphase clock
      · rw [hcalls, hnext]
        refine ⟨hquiet.of_ahead ?_ hrest rfl, List.not_mem_nil⟩
        rintro ⟨⟩
      · rw [hcalls, hnext]
        refine ⟨hquiet.of_ahead ?_ hrest rfl, by simp⟩
        rintro ⟨⟩
      · -- only an item that is due is taken up
        have hother : item.1 ≠ peerId := by
          intro howner
          have hidle := hquiet.clear.ahead (now, item)
            (by rw [hahead]; exact List.mem_cons_self) howner
          rw [hdue] at hidle
          cases hidle
        rw [hcalls, hnext]
        refine ⟨hquiet.of_ahead ?_ hrest rfl, ?_⟩
        · rintro ⟨⟩
          exact hother rfl
        · simpa using hother.symm
  | _ =>
    simp only [step, calls, hphase]
    exact ⟨hquiet, List.not_mem_nil⟩

theorem Quiet.returned (clock : ℚ) :
    (manager.step (.returned clock)).Quiet peerId := by
  cases hphase : manager.phase with
  | archiving now item rest =>
    have hahead : rest.map (Prod.mk now) ⊆ manager.phase.ahead := by
      rw [hphase]
      exact List.Subset.refl _
    simp only [step, hphase]
    refine hquiet.of_ahead (by rintro ⟨⟩) hahead ?_
    obtain ⟨_, ref⟩ := item
    cases ref with
    | held =>
      simp only [postpone, get?_modify]
      split
      · rw [hquiet.absent, Option.map_none]
      · rfl
    | dropped => rfl
  | connecting now other rest =>
    have hahead : rest.map (Prod.mk now) ⊆ manager.phase.ahead := by
      rw [hphase]
      exact List.Subset.refl _
    have hother : other ≠ peerId := by
      rintro rfl
      exact hquiet.clear.attempted (by rw [hphase]; rfl)
    simp only [step, hphase]
    refine hquiet.of_ahead (by rintro ⟨⟩) hahead ?_
    simp only [Reconnect.recordAttempt, get?_set, if_neg hother]
  | _ =>
    simp only [step, hphase]
    exact hquiet

theorem Quiet.wake (now : ℚ) : (manager.step (.wake now)).Quiet peerId := by
  cases hphase : manager.phase with
  | asleep =>
    simp only [step, hphase]
    refine ⟨hquiet.absent, by rintro ⟨⟩, ?_⟩
    simp only [LoopPhase.ahead, List.map_map, List.forall_mem_map]
    intro owner _ howner
    have hnone : manager.states.get? owner = none :=
      (congrArg _ howner).trans hquiet.absent
    simp [due, entryOf, hnone]
  | _ =>
    simp only [step, hphase]
    exact hquiet

theorem Quiet.step {event : ReconnectEvent}
    (hevent : ∀ now, event ≠ .recordDisconnect peerId now) :
    (manager.step event).Quiet peerId ∧
      .connect peerId ∉ manager.calls event := by
  cases event with
  | recordConnect other =>
    refine ⟨⟨?_, hquiet.clear.recordConnect other⟩, List.not_mem_nil⟩
    simp only [ReconnectManager.step]
    split
    · simp only [Reconnect.recordConnect, get?_erase]
      split
      · rfl
      · exact hquiet.absent
    · exact hquiet.absent
  | recordDisconnect other now =>
    refine ⟨?_, List.not_mem_nil⟩
    have hother : other ≠ peerId := fun heq => hevent now (by rw [heq])
    simp only [ReconnectManager.step]
    split
    · refine hquiet.of_ahead hquiet.clear.attempted (List.Subset.refl _) ?_
      simp only [Reconnect.recordDisconnect]
      split
      · rfl
      · rw [get?_set, if_neg hother]
    · exact hquiet
  | wake now => exact ⟨hquiet.wake now, List.not_mem_nil⟩
  | advance clock => exact hquiet.advance clock
  | returned clock => exact ⟨hquiet.returned clock, List.not_mem_nil⟩

end

/-- After `record_connect` at a moment at which the pass under way is done with
the peer, the manager holds nothing for the peer and calls no callback for it
until the next `record_disconnect`. -/
theorem connect_ends_reconnection (hsuspended : manager.phase.suspended = true)
    (hclear : manager.Clear peerId) (events : List ReconnectEvent)
    (hevents : ∀ event ∈ events, ∀ now, event ≠ .recordDisconnect peerId now) :
    Along step (fun manager =>
          manager.states.get? peerId = none ∧
            manager.getAttemptCount peerId = 0)
        (manager.step (.recordConnect peerId)) events ∧
      .connect peerId ∉ outputs step calls
        (manager.step (.recordConnect peerId)) events := by
  have hquiet := quiet_recordConnect hclear hsuspended
  have hgood : EveryStep step
      (fun _ event => ∀ now, event ≠ .recordDisconnect peerId now)
      (manager.step (.recordConnect peerId)) events :=
    everyStep_of_forall (fun event hmem _ => hevents event hmem) _
  have hkeep : ∀ (manager : ReconnectManager) (event : ReconnectEvent),
      manager.Quiet peerId → (∀ now, event ≠ .recordDisconnect peerId now) →
          (manager.step event).Quiet peerId :=
    fun _ _ hquiet hevent => (hquiet.step hevent).1
  constructor
  · refine along_of_everyStep hkeep ?_ hquiet hgood
    intro manager hquiet
    refine ⟨hquiet.absent, ?_⟩
    rw [getAttemptCount, Reconnect.getAttemptCount, hquiet.absent]
    rfl
  · have hsilent : ∀ call ∈ outputs step calls
        (manager.step (.recordConnect peerId)) events,
          call ≠ .connect peerId := by
      rw [forall_mem_outputs_iff]
      refine everyStep_of_good hkeep ?_ hquiet hgood
      rintro manager event hquiet hevent call hcall rfl
      exact (hquiet.step hevent).2 hcall
    exact fun hcall => hsilent _ hcall rfl

end ReconnectManager

namespace ReconnectLoopWitness

open ReconnectManager

def peer : PeerId := [1]

/-- A peer that was lost at time zero. -/
def lost : ReconnectManager := start.step (.recordDisconnect peer 0)

/-- The loop waits for the peer's connect callback. -/
def attempting : ReconnectManager := run step lost [.wake 10, .advance 10]

/-- The connection is recorded while the callback runs, and the attempt after
it: the peer has an entry again, and the next pass tries it. -/
theorem attempt_recorded_after_connect : attempting.phase.suspended = true ∧
      get? (attempting.step (.recordConnect peer)).states peer = none ∧
      (run step (attempting.step (.recordConnect peer))
        [.returned 11]).getAttemptCount peer = 1 ∧
      .connect peer ∈ outputs step calls (attempting.step (.recordConnect peer))
        [.returned 11, .advance 11, .wake 20, .advance 20] := by
  decide +kernel

theorem connect_ends_reconnection_asleep : lost.Clear peer ∧
      .connect peer ∉ outputs step calls (lost.step (.recordConnect peer))
        [.wake 10, .advance 10, .wake 15] := by
  have hclear : lost.Clear peer := by decide +kernel
  have hevents : ∀ event ∈ [ReconnectEvent.wake 10, .advance 10, .wake 15],
      ∀ now, event ≠ .recordDisconnect peer now := by
    rintro event hmem now rfl
    simp at hmem
  exact ⟨hclear, (connect_ends_reconnection rfl hclear _ hevents).2⟩

end ReconnectLoopWitness

end AshiChat
