/-
What becomes of the heartbeat's suspicion.  The third missed PONG starts a task
that asks the state machine for SUSPECT; the table allows that from IDLE only,
and nothing ever makes a peer IDLE.  The exception ends in the task.
-/
import AshiChat.HeartbeatMoves

namespace AshiChat

open EventRun

namespace Contact

/-- The contact is neither IDLE nor SUSPECT. -/
def Unsuspected (contact : Contact) : Prop :=
  contact.state ≠ .idle ∧ contact.state ≠ .suspect

theorem unsuspected_after {state new : PeerState}
    (hstate : state ≠ .idle ∧ state ≠ .suspect) (hnew : new ≠ .idle) :
    state.after new ≠ .idle ∧ state.after new ≠ .suspect := by
  cases state <;> cases new <;> simp_all [PeerState.after,
    PeerState.validTransitions]

theorem unsuspected_archivedAs {state : PeerState}
    (hstate : state ≠ .idle ∧ state ≠ .suspect) (archived : Bool) :
    state.archivedAs archived ≠ .idle ∧
      state.archivedAs archived ≠ .suspect := by
  cases archived <;> cases state <;> simp_all [PeerState.archivedAs]

theorem unsuspected_restarted (contact : Contact) (self : Bool) :
    (contact.step (.restarted self)).Unsuspected := by
  simp only [Contact.step, Unsuspected]
  split <;> exact ⟨by decide, by decide⟩

theorem Unsuspected.step {contact : Contact} (hcontact : contact.Unsuspected)
    (occurrence : Occurrence) : (contact.step occurrence).Unsuspected := by
  have hafter : ∀ {new : PeerState}, new ≠ .idle →
      contact.state.after new ≠ .idle ∧ contact.state.after new ≠ .suspect :=
    unsuspected_after hcontact
  cases occurrence with
  | helloArrived =>
    simp only [Contact.step]
    split <;> exact hcontact
  | marked => exact ⟨by rintro ⟨⟩, by rintro ⟨⟩⟩
  | connect =>
    simp only [Contact.step]
    split <;> exact hcontact
  | retry =>
    simp only [Contact.step]
    split
    · exact hcontact
    · split
      · exact hcontact
      · split
        · exact hafter (by decide)
        · exact hcontact
  | helloSent | disconnected session | resolving | unresolved | suspected =>
    exact hafter (by decide)
  | unplanned =>
    simp only [Contact.step]
    split <;> exact hcontact
  | archived flag => exact unsuspected_archivedAs hcontact flag
  | restarted self => exact unsuspected_restarted contact self
  | _ => exact hcontact

end Contact

variable {P : Primitives}

namespace ChatNode

variable {state : ChatNode P} {peerId : PeerId}

/-- No peer of the node is IDLE or SUSPECT. -/
structure Unsuspecting (state : ChatNode P) : Prop where
  coherent : state.contacts.inner.process.Coherent
  states : ∀ peerId, (state.contacts.contact peerId).Unsuspected

theorem unsuspecting_start (identity : LocalIdentity P) (storage : Storage)
    (messages : OrderedDict MessageId MessageRecord)
    (outbox : OrderedDict MessageId Bytes) (now : ℚ) :
    (start identity storage messages outbox now).Unsuspecting := by
  refine ⟨ContactNode.coherent_start identity storage now, fun peerId => ?_⟩
  show ((ContactNode.start identity storage now).contact peerId).Unsuspected
  rw [ContactNode.contact_start_eq]
  exact Contact.unsuspected_restarted _ _

theorem Unsuspecting.step (hstate : state.Unsuspecting) (event : ChatEvent) :
    (state.step event).Unsuspecting := by
  have hkept : ∀ (contact : Contact) (occurrence : Occurrence),
      contact.Unsuspected → True → (contact.step occurrence).Unsuspected :=
    fun _ occurrence hcontact _ => hcontact.step occurrence
  have hany : ∀ (contacts : ContactNode P) (event : ContactEvent)
      (peerId : PeerId), contacts.inner.process.Coherent → True →
        EveryStep Contact.step (fun _ _ => True) (contacts.contact peerId)
          (contacts.occurrences peerId event) :=
    fun _ _ _ _ _ => everyStep_of_forall (fun _ _ _ => trivial) _
  have hnext := contacts_rule
    (motive := fun contacts => contacts.inner.process.Coherent ∧
      ∀ peerId, (contacts.contact peerId).Unsuspected) state event
    (fun event' _ _ => ContactNode.contacts_step hkept hany state.contacts
      event' ⟨hstate.coherent, hstate.states⟩ trivial)
    (fun _ _ _ => ⟨hstate.coherent, hstate.states⟩)
    ⟨hstate.coherent, hstate.states⟩
  exact ⟨hnext.1, hnext.2⟩

/-- The peer whose `on_suspect` task runs in the event. -/
def suspects (state : ChatNode P) : ChatEvent → Option PeerId
  | .callback index _ =>
    match state.callbacks[index]? with
    | some (.suspect peerId) => some peerId
    | _ => none
  | _ => none

/-- The transition such a task asks for is permitted, or the peer is SUSPECT
already. -/
def VerdictLands (state : ChatNode P) (event : ChatEvent) : Prop :=
  ∀ peerId, state.suspects event = some peerId →
    (state.node.peerStates.updateState peerId .suspect).2 = none ∨
      state.node.peerStates.getState peerId = .suspect

/-- A loop finds the third PING in a row, or a later one, unanswered. -/
def missesThird (state : ChatNode P) : ChatEvent → Bool
  | .heartbeat peerId _ =>
    match state.loops.get? peerId with
    | some ⟨true, missed⟩ =>
      state.pendingPings.contains peerId && decide (3 ≤ missed + 1)
    | _ => false
  | _ => false

/-- A peer whose loop has missed three or more is shown as SUSPECT. -/
def ShowsSuspect (state : ChatNode P) : Prop :=
  ∀ peerId loop, state.loops.get? peerId = some loop → 3 ≤ loop.missed →
    state.node.peerStates.getState peerId = .suspect

/-- The task always raises, and the peer is not SUSPECT. -/
theorem not_verdictLands (hstate : state.Unsuspecting) {event : ChatEvent}
    (hsuspects : state.suspects event = some peerId) :
    ¬ state.VerdictLands event := by
  intro hlands
  have hstates : state.node.peerStates.getState peerId ≠ .idle ∧
      state.node.peerStates.getState peerId ≠ .suspect := hstate.states peerId
  rcases hlands peerId hsuspects with hpermitted | hshown
  · simp only [PeerStates.updateState] at hpermitted
    split at hpermitted
    · next _ =>
      cases hold : state.node.peerStates.getState peerId <;>
        simp_all [PeerState.validTransitions]
    · cases hpermitted
  · exact hstates.2 hshown

/-- No loop has missed three PONGs, and none has told anyone so. -/
structure Unmissed (state : ChatNode P) : Prop where
  loops : ∀ peerId loop, state.loops.get? peerId = some loop → loop.missed < 3
  callbacks : ∀ peerId, .suspect peerId ∉ state.callbacks

theorem Unmissed.step (hstate : state.Unmissed) {event : ChatEvent}
    (hevent : state.missesThird event = false) :
    (state.step event).Unmissed := by
  constructor
  · intro peerId loop hloop
    cases state.beats peerId event with
    | kept hkept => exact hstate.loops peerId loop (hkept.symm.trans hloop)
    | renewed hnew =>
      rw [hnew loop hloop]
      decide
    | pinged _ _ _ hslept _ hnext =>
      have hfew := hstate.loops peerId _ hslept
      cases hnext.symm.trans hloop
      exact hfew
    | missed _ _ hbeat hwaited hpending _ hnext =>
      subst hbeat
      cases hnext.symm.trans hloop
      simp only [missesThird, hwaited, hpending, Bool.true_and,
        decide_eq_false_iff_not, not_le] at hevent
      exact hevent
    | answered _ _ _ hkept =>
      exact hstate.loops peerId loop (hkept.symm.trans hloop)
  · intro peerId hmem
    cases state.starts event with
    | none hfewer => exact hstate.callbacks peerId (hfewer.subset hmem)
    | suspect _ _ _ hbeat hwaited hpending hthird =>
      subst hbeat
      simp only [missesThird, hwaited, hpending, Bool.true_and,
        decide_eq_false_iff_not] at hevent
      exact hevent hthird
    | disconnect _ _ _ _ _ _ _ hmore =>
      rw [hmore, List.mem_append, List.mem_singleton] at hmem
      rcases hmem with hold | hother
      · exact hstate.callbacks peerId hold
      · cases hother

theorem Unmissed.verdictLands (hstate : state.Unmissed) (event : ChatEvent) :
    state.VerdictLands event := by
  intro peerId hsuspects
  cases event with
  | callback =>
    simp only [suspects] at hsuspects
    split at hsuspects
    · next other hcallback =>
      exact absurd (List.mem_of_getElem? hcallback) (hstate.callbacks other)
    · cases hsuspects
  | _ => cases hsuspects

/-- In every run from the start, the tasks of the heartbeat that ask for
SUSPECT all fail, so that their verdicts reach the state machine exactly if
there are none. -/
theorem verdictLands_iff (identity : LocalIdentity P) (storage : Storage)
    (messages : OrderedDict MessageId MessageRecord)
    (outbox : OrderedDict MessageId Bytes) (now : ℚ) (events : List ChatEvent) :
    EveryStep step VerdictLands (start identity storage messages outbox now)
        events ↔
      EveryStep step (fun state event => state.suspects event = none)
        (start identity storage messages outbox now) events := by
  have hkeep : ∀ (state : ChatNode P) (event : ChatEvent),
      state.Unsuspecting → (state.step event).Unsuspecting :=
    fun _ event hstate => hstate.step event
  refine everyStep_congr hkeep ?_
    (unsuspecting_start identity storage messages outbox now) events
  intro state event hstate
  cases hsuspects : state.suspects event with
  | none =>
    refine iff_of_true ?_ rfl
    intro peerId hsome
    rw [hsuspects] at hsome
    cases hsome
  | some =>
    exact iff_of_false (not_verdictLands hstate hsuspects) (by rintro ⟨⟩)

/-- While no loop finds a third PING in a row unanswered, all is well. -/
theorem verdict_lands_of_answers {identity : LocalIdentity P}
    {storage : Storage} {messages : OrderedDict MessageId MessageRecord}
    {outbox : OrderedDict MessageId Bytes} {now : ℚ} {events : List ChatEvent}
    (hanswers : EveryStep step
      (fun state event => state.missesThird event = false)
      (start identity storage messages outbox now) events) :
    EveryStep step VerdictLands (start identity storage messages outbox now)
        events ∧
      Along step ShowsSuspect (start identity storage messages outbox now)
        events := by
  have hkeep : ∀ (state : ChatNode P) (event : ChatEvent), state.Unmissed →
      state.missesThird event = false → (state.step event).Unmissed :=
    fun _ _ hstate hevent => hstate.step hevent
  have hstart : (start identity storage messages outbox now).Unmissed := by
    refine ⟨?_, ?_⟩
    · rintro peerId loop ⟨⟩
    · rintro peerId ⟨⟩
  constructor
  · exact everyStep_of_good hkeep
      (fun _ event hstate _ => hstate.verdictLands event) hstart hanswers
  · refine along_of_everyStep hkeep ?_ hstart hanswers
    intro state hstate peerId loop hloop hmissed
    exact absurd (hstate.loops peerId loop hloop) (not_lt.mpr hmissed)

end ChatNode

namespace SuspectVerdictWitness

open ChatNode EndpointNodeWitness ChatNodeWitness

/-- A node that knows nobody. -/
def alone : ChatNode Reference.primitives := .start self .empty .empty .empty 0

/-- So many PINGs to the peer, none of them answered. -/
def unanswered (count : Nat) : List ChatEvent :=
  (List.replicate count [.heartbeat peer.peerId [0],
    .heartbeat peer.peerId [0]]).flatten

/-- After three of them the task runs; the peer, which has a session, stays
CONNECTED. -/
theorem suspicion_lost :
    let silent := run step alone (greeting 0 ++ unanswered 3)
    silent.suspects (.callback 0 0) = some peer.peerId ∧
      silent.node.hasSession peer.peerId = true ∧
      (silent.node.peerStates.updateState peer.peerId .suspect).2 =
        some (.valueError "Invalid transition: connected → suspect") ∧
      (silent.step (.callback 0 0)).node.peerStates.getState peer.peerId =
        .connected ∧
      ((silent.step (.callback 0 0)).loops.get? peer.peerId).map
        HeartbeatLoop.missed = some 3 := by
  decide +kernel

theorem verdict_lands_of_answers_twice :
    EveryStep step VerdictLands alone (greeting 0 ++ unanswered 2) ∧
      Along step ShowsSuspect alone (greeting 0 ++ unanswered 2) :=
  verdict_lands_of_answers (by decide +kernel)

end SuspectVerdictWitness

end AshiChat
