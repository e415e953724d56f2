/-
The peer states against the session registry.  A peer should have a session
exactly when its state is CONNECTED, IDLE or SUSPECT.  The handshakes, the
heartbeat's disconnects and the reconnect loop keep it so; `set_peer_archived`
and `remove_peer` do not, when they meet a peer with a session.
-/
import AshiChat.ContactEvents
import AshiChat.Reference

namespace AshiChat

open EventRun PeerState

namespace Contact

/-- A session goes with a live state, once the handshake has marked its
peer. -/
structure Agrees (contact : Contact) : Prop where
  closed : contact.session = false → contact.state.live = false
  opened : contact.session = true →
    contact.state.live = true ∨ .saved ∈ contact.jobs

/-- The occurrences that keep state and session together. -/
def agreeable (contact : Contact) : Occurrence → Prop
  | .marked _ => contact.session = true
  | .disconnected session => session = false
  | .swept session => session = contact.session
  | .archived _ => contact.session = false
  | .removed session => contact.session = false ∧ session = false
  | _ => True

variable {contact contact' : Contact}

theorem Agrees.of_same (hagrees : contact.Agrees)
    (hsession : contact'.session = contact.session)
    (hlive : contact'.state.live = contact.state.live)
    (hsaved : .saved ∈ contact.jobs → .saved ∈ contact'.jobs) :
    contact'.Agrees := by
  constructor
  · rw [hsession, hlive]
    exact hagrees.closed
  · rw [hsession, hlive]
    intro hopen
    exact (hagrees.opened hopen).imp_right hsaved

theorem Agrees.of_closed (hsession : contact.session = false)
    (hlive : contact.state.live = false) : contact.Agrees :=
  ⟨fun _ => hlive, fun hopen => by rw [hsession] at hopen; cases hopen⟩

end Contact

theorem PeerState.live_iff (state : PeerState) : state.live = true ↔
      state = .connected ∨ state = .idle ∨ state = .suspect := by
  cases state <;> simp [PeerState.live]

/-- No transition to one of these states is to or from a live one. -/
theorem PeerState.live_after {new : PeerState}
    (hnew : new = .connecting ∨ new = .resolving ∨ new = .failed ∨
      new = .suspect) (state : PeerState) :
    (state.after new).live = state.live := by
  rcases hnew with rfl | rfl | rfl | rfl <;> cases state <;> rfl

theorem PeerState.live_after_disconnected (state : PeerState) :
    (state.after .disconnected).live = false := by
  cases state <;> rfl

theorem PeerState.live_archivedAs (archived : Bool) (state : PeerState) :
    (state.archivedAs archived).live = false := by
  cases archived <;> cases state <;> rfl

namespace Contact

variable {contact : Contact}

/-- A new process has no session, and no live state. -/
theorem agrees_restarted (contact : Contact) (self : Bool) :
    (contact.step (.restarted self)).Agrees := by
  refine .of_closed rfl ?_
  simp only [Contact.step]
  split <;> rfl

theorem Agrees.step (hagrees : contact.Agrees) {occurrence : Occurrence}
    (hallowed : contact.agreeable occurrence) :
    (contact.step occurrence).Agrees := by
  cases occurrence with
  | helloArrived =>
    simp only [Contact.step]
    split
    · exact hagrees.of_same rfl rfl (mem_swapJobs_zero _)
    · exact hagrees.of_same rfl rfl (mem_swapJobs_zero _)
  | introduced | unanswered | added | stored | unstored =>
    exact hagrees.of_same rfl rfl id
  | accepted | answered =>
    refine ⟨fun hclosed => ?_, fun _ => .inr ?_⟩
    · cases hclosed
    · exact mem_swapJobs_begun _ _ (Multiset.mem_singleton_self _)
  | refused | flushed | recorded =>
    exact hagrees.of_same rfl rfl (mem_swapJobs_of_ne _ · (by decide))
  | marked =>
    refine ⟨fun hclosed => ?_, fun _ => .inl rfl⟩
    exact absurd (hclosed.symm.trans hallowed) Bool.false_ne_true
  | connect =>
    simp only [Contact.step]
    split
    · exact hagrees
    · exact hagrees.of_same rfl rfl (mem_swapJobs_zero _)
  | helloSent =>
    exact hagrees.of_same rfl (live_after (.inl rfl) _)
      (mem_swapJobs_of_ne _ · (by decide))
  | retry =>
    simp only [Contact.step]
    split_ifs with hidle hdone hlast
    · exact hagrees
    · exact hagrees.of_same rfl rfl id
    · -- The retries are exhausted: the peer has no session.
      rw [Bool.or_eq_true, not_or, Bool.not_eq_true] at hdone
      exact .of_closed hdone.1 (live_after_disconnected _)
    · exact hagrees
  | disconnected =>
    exact .of_closed hallowed (live_after_disconnected _)
  | swept => exact hagrees.of_same hallowed rfl id
  | attempted | flagged => exact hagrees.of_same rfl rfl (mem_swapJobs_zero _)
  | unplanned =>
    simp only [Contact.step]
    split
    · exact hagrees.of_same rfl rfl id
    · exact hagrees
  | resolving | unresolved | suspected =>
    exact hagrees.of_same rfl (live_after (by simp) _) id
  | archived archived =>
    exact .of_closed hallowed (live_archivedAs archived _)
  | removed => exact .of_closed hallowed.2 (hagrees.closed hallowed.1)
  | restarted self => exact agrees_restarted contact self

/-- When no handshake is at work, the state says whether there is a
session. -/
theorem Agrees.session_eq_live (hagrees : contact.Agrees)
    (hidle : contact.jobs = 0) : contact.session = contact.state.live := by
  cases hsession : contact.session with
  | false => exact (hagrees.closed hsession).symm
  | true =>
    rcases hagrees.opened hsession with hlive | hsaved
    · exact hlive.symm
    · rw [hidle] at hsaved
      exact absurd hsaved (Multiset.notMem_zero _)

end Contact

variable {P : Primitives}

/-- The peer whose state or entry a call is about to change whatever its
session. -/
def ContactTask.parts : ContactTask → Option PeerId
  | .archiving peerId _ | .removing peerId => some peerId
  | .inviting .. | .invited .. => none

namespace ContactNode

/-- A handshake that marks its peer as connected still finds the session;
`set_peer_archived` and `remove_peer` meet a peer without one; and no session
is dropped under another's id. -/
def statesKept (state : ContactNode P) (event : ContactEvent) : Bool :=
  ((state.task? event).bind Task.marks).all state.node.hasSession &&
    ((state.call? event).bind ContactTask.parts).all
      (fun peerId => !state.node.hasSession peerId) &&
    (state.drops event).all state.node.registry.ownsSession

variable {state : ContactNode P} {event : ContactEvent}

theorem agrees_start (identity : LocalIdentity P) (storage : Storage)
    (now : ℚ) (peerId : PeerId) :
    ((start identity storage now).contact peerId).Agrees := by
  rw [contact_start_eq]
  exact Contact.agrees_restarted _ _

theorem agreeable_of_statesKept {peerId : PeerId}
    {occurrences : List Occurrence} (hkept : state.statesKept event = true)
    (hhappens : Happens state peerId event occurrences) :
    EveryStep Contact.step Contact.agreeable (state.contact peerId)
      occurrences := by
  simp only [statesKept, Bool.and_eq_true, Option.all_eq_true,
    Bool.not_eq_eq_eq_not, Bool.not_true] at hkept
  obtain ⟨⟨hmarks, hparts⟩, howns⟩ := hkept
  cases hhappens with
  | plain hplain =>
    refine everyStep_of_forall (fun occurrence hmem contact => ?_) _
    have hone := hplain occurrence hmem
    cases occurrence <;> trivial
  | marked htask hpeer =>
    exact ⟨hmarks peerId (by rw [htask]; exact hpeer), trivial⟩
  | disconnected hevent =>
    subst hevent
    refine ⟨?_, trivial⟩
    exact (sessionAfter_eq (howns peerId rfl)).trans (if_pos rfl)
  | swept hdrops hne =>
    refine ⟨?_, trivial⟩
    exact (sessionAfter_eq (howns _ hdrops)).trans (if_neg hne)
  | archived hcall => exact ⟨hparts peerId (by rw [hcall]; rfl), trivial⟩
  | removed hcall =>
    have hclosed := hparts peerId (by rw [hcall]; rfl)
    refine ⟨⟨hclosed, ?_⟩, trivial⟩
    exact (sessionAfter_eq (howns peerId (drops_of_removing hcall))).trans
      (if_pos rfl)
  | resolving => exact ⟨trivial, trivial, trivial⟩
  | added => split <;> simp [Contact.agreeable]
  | _ => exact ⟨trivial, trivial⟩

/-- In every run from the start on any stored rows in which handshakes still
find their session and calls to archive or remove meet a peer without one, a
quiet node has a session with exactly the peers in a live state. -/
theorem hasSession_iff_live {identity : LocalIdentity P} {storage : Storage}
    {now : ℚ} {events : List ContactEvent}
    (hkept : EveryStep step (fun state event => state.statesKept event = true)
      (start identity storage now) events)
    (hquiet : (run step (start identity storage now) events).quiet = true)
    (peerId : PeerId) :
    (run step (start identity storage now) events).node.hasSession peerId =
        true ↔
      (run step (start identity storage now)
        events).node.peerStates.getState peerId = .connected ∨
      (run step (start identity storage now)
        events).node.peerStates.getState peerId = .idle ∨
      (run step (start identity storage now)
        events).node.peerStates.getState peerId = .suspect := by
  have hagrees := contact_run (fun _ _ hagrees => hagrees.step)
    (fun _ event peerId _ hkept =>
      agreeable_of_statesKept hkept (happens event))
    (coherent_start identity storage now) (agrees_start identity storage now)
    hkept peerId
  rw [← live_iff]
  exact Bool.coe_iff_coe.mpr (hagrees.session_eq_live (jobs_of_quiet hquiet peerId))

end ContactNode

namespace ContactNodeWitness

open ContactNode EndpointNodeWitness

/-- A peer that has introduced itself is connected and has a session. -/
theorem hasSession_iff_live_met :
    ((run step fresh met).node.hasSession peer.peerId = true ↔
      (run step fresh met).node.peerStates.getState peer.peerId = .connected ∨
      (run step fresh met).node.peerStates.getState peer.peerId = .idle ∨
      (run step fresh met).node.peerStates.getState peer.peerId = .suspect) ∧
      (run step fresh met).node.hasSession peer.peerId = true :=
  ⟨hasSession_iff_live (by decide +kernel) (by decide +kernel) peer.peerId,
    by decide +kernel⟩

/-- Removed while it is connected, the same peer stays CONNECTED without a
session; archived, it keeps its session. -/
theorem session_not_agrees_after_calls :
    let removed := run step fresh
      (met ++ [.removePeer peer.peerId, callResumes])
    let archived := run step fresh
      (met ++ [.setPeerArchived peer.peerId true, callResumes])
    (removed.quiet = true ∧ removed.inner.coroutines.isEmpty = true ∧
      removed.node.hasSession peer.peerId = false ∧
      removed.node.peerStates.getState peer.peerId = .connected) ∧
    (archived.quiet = true ∧ archived.inner.coroutines.isEmpty = true ∧
      archived.node.hasSession peer.peerId = true ∧
      archived.node.peerStates.getState peer.peerId = .archived) := by
  decide +kernel

end ContactNodeWitness

end AshiChat
