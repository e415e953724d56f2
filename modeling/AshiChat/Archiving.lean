/-
The archived flag of a stored row against the ARCHIVED state in memory.
`set_peer_archived` writes the flag, and only then asks the state machine to
follow.  The two agree along every run in which the machine can follow and
nothing else moves an archived peer; it cannot follow an unarchiving at all.
-/
import AshiChat.ContactEvents
import AshiChat.Reference

namespace AshiChat

open EventRun Multiset Option Bool List

namespace PeerState

variable {state new : PeerState} {archived : Bool}

/-- A machine that is not archived is only archived on request. -/
theorem after_ne_archived (hstate : state ≠ .archived) (hnew : new ≠ .archived) :
    state.after new ≠ .archived := by
  unfold after
  split
  · exact hnew
  · exact hstate

/-- Three transitions are refused by an archived machine. -/
theorem after_eq_archived
    (hnew : new = .disconnected ∨ new = .failed ∨ new = .suspect)
    (state : PeerState) : state.after new = .archived ↔ state = .archived := by
  rcases hnew with rfl | rfl | rfl <;> cases state <;> decide

theorem archiveRaises_eq_false
    (hfollows : state ≠ if archived then .resolving else .archived) :
    state.archiveRaises archived = false := by
  cases archived <;> cases state <;> first | rfl | exact absurd rfl hfollows

/-- The state follows the call, unless the machine refuses. -/
theorem archivedAs_eq_archived
    (hfollows : state.archiveRaises archived = false) :
    state.archivedAs archived = .archived ↔ archived = true := by
  cases archived <;> cases state <;> revert hfollows <;> decide

end PeerState

namespace Contact

/-- Flag and state agree, except between the two halves of a call; then the
flag is the call's. -/
structure Filed (contact : Contact) : Prop where
  settled : (∀ archived, .archiving archived ∉ contact.jobs) →
    (contact.row = some true ↔ contact.state = .archived)
  calling : ∀ archived, .archiving archived ∈ contact.jobs →
    contact.row = some archived

/-- The occurrences that keep flag and state together. -/
def filing (contact : Contact) : Occurrence → Prop
  | .flagged _ =>
    contact.row.isSome = true ∧ ∀ archived, .archiving archived ∉ contact.jobs
  | .archived archived =>
    .archiving archived ∈ contact.jobs ∧
      contact.state.archiveRaises archived = false
  | .marked _ | .helloSent | .resolving => contact.state ≠ .archived
  | .unstored =>
    contact.state ≠ .archived ∧ ∀ archived, .archiving archived ∉ contact.jobs
  | _ => True

variable {contact contact' : Contact}

theorem Filed.of_same (hfiled : contact.Filed)
    (hrow : ∀ archived, contact.row = some archived →
      contact'.row = some archived)
    (hflag : contact'.row = some true → contact.row = some true)
    (hstate : contact'.state = .archived ↔ contact.state = .archived)
    (hjobs : ∀ archived, .archiving archived ∈ contact'.jobs ↔
      .archiving archived ∈ contact.jobs) : contact'.Filed := by
  constructor
  · intro hidle
    rw [hstate, ← hfiled.settled fun archived hmem =>
      hidle archived ((hjobs archived).mpr hmem)]
    exact ⟨hflag, hrow true⟩
  · intro archived hmem
    exact hrow archived (hfiled.calling archived ((hjobs archived).mp hmem))

/-- Nothing but the session or the plan changes. -/
theorem Filed.of_eq (hfiled : contact.Filed) (hrow : contact'.row = contact.row)
    (hstate : contact'.state = .archived ↔ contact.state = .archived)
    (hjobs : ∀ archived, .archiving archived ∈ contact'.jobs ↔
      .archiving archived ∈ contact.jobs) : contact'.Filed :=
  hfiled.of_same (fun _ hflag => hrow.trans hflag)
    (fun hflag => hrow.symm.trans hflag) hstate hjobs

/-- `add_peer` never sets the flag. -/
theorem Filed.storeRow (hfiled : contact.Filed) : contact.storeRow.Filed := by
  refine hfiled.of_same ?_ ?_ Iff.rfl fun _ => Iff.rfl
  · intro archived hrow
    simp [Contact.storeRow, hrow]
  · intro hflag
    cases hrow : contact.row with
    | none => simp [Contact.storeRow, hrow] at hflag
    | some => rwa [Contact.storeRow, hrow] at hflag

/-- The first half of a call. -/
theorem filed_flagged (hrow : contact.row.isSome = true)
    (hidle : ∀ archived, .archiving archived ∉ contact.jobs)
    (archived : Bool) : (contact.step (.flagged archived)).Filed := by
  obtain ⟨_, hbefore⟩ := isSome_iff_exists.mp hrow
  constructor
  · intro hnone
    exact absurd (mem_swapJobs_begun _ _ (mem_singleton_self _))
      (hnone archived)
  · intro other hmem
    rcases mem_of_mem_swapJobs hmem with hold | hnew
    · exact absurd hold (hidle other)
    · cases Multiset.mem_singleton.mp hnew
      simp [Contact.step, hbefore]

/-- The second half: the machine follows. -/
theorem Filed.step_archived (hfiled : contact.Filed) {archived : Bool}
    (hcalling : .archiving archived ∈ contact.jobs)
    (hfollows : contact.state.archiveRaises archived = false) :
    (contact.step (.archived archived)).Filed := by
  constructor
  · intro _
    have hrow : (contact.step (.archived archived)).row = some archived :=
      hfiled.calling archived hcalling
    rw [hrow, some.injEq]
    exact (PeerState.archivedAs_eq_archived hfollows).symm
  · intro other hmem
    rcases mem_of_mem_swapJobs hmem with hold | hnew
    · exact hfiled.calling other hold
    · exact absurd hnew (notMem_zero _)

theorem filed_restarted (contact : Contact) (self : Bool) :
    (contact.step (.restarted self)).Filed := by
  constructor
  · intro _
    simp only [Contact.step]
    split
    · next hflag => simp [hflag]
    · next hflag => simp [hflag]
  · intro archived hmem
    exact absurd hmem (notMem_zero _)

/-- Coroutines of other kinds begin and end. -/
theorem archiving_swapJobs {ended begun : Multiset Job}
    (hended : ∀ archived, .archiving archived ∉ ended)
    (hbegun : ∀ archived, .archiving archived ∉ begun) (archived : Bool) :
    .archiving archived ∈ (contact.swapJobs ended begun).jobs ↔
      .archiving archived ∈ contact.jobs :=
  mem_swapJobs_iff (hended archived) (hbegun archived)

theorem Filed.step (hfiled : contact.Filed) {occurrence : Occurrence}
    (hallowed : contact.filing occurrence) :
    (contact.step occurrence).Filed := by
  cases occurrence with
  | helloArrived =>
    have hjobs : ∀ contact : Contact, ∀ archived, .archiving archived ∈
        (contact.swapJobs 0 {.accepting}).jobs ↔
          .archiving archived ∈ contact.jobs :=
      fun _ => archiving_swapJobs (by simp) (by simp)
    simp only [Contact.step]
    split
    · exact hfiled.of_eq rfl Iff.rfl (hjobs _)
    · exact hfiled.storeRow.of_eq rfl Iff.rfl (hjobs _)
  | stored => exact hfiled.storeRow
  | introduced | added | unanswered | swept | removed =>
    exact hfiled.of_eq rfl Iff.rfl fun _ => Iff.rfl
  | accepted | refused | answered | flushed | attempted | recorded =>
    exact hfiled.of_eq rfl Iff.rfl (archiving_swapJobs (by simp) (by simp))
  | marked flushes =>
    refine hfiled.of_eq rfl ⟨fun hnew => ?_, fun hold => ?_⟩
      (archiving_swapJobs (by simp) ?_)
    · cases hnew
    · exact absurd hold hallowed
    · cases flushes <;> simp
  | connect =>
    simp only [Contact.step]
    split
    · exact hfiled
    · exact hfiled.of_eq rfl Iff.rfl (archiving_swapJobs (by simp) (by simp))
  | helloSent =>
    exact hfiled.of_eq rfl (iff_of_false (PeerState.after_ne_archived hallowed
      (by decide)) hallowed) (archiving_swapJobs (by simp) (by simp))
  | retry =>
    simp only [Contact.step]
    split_ifs
    · exact hfiled
    · exact hfiled.of_eq rfl Iff.rfl fun _ => Iff.rfl
    · exact hfiled.of_eq rfl (PeerState.after_eq_archived (.inl rfl) _)
        fun _ => Iff.rfl
    · exact hfiled
  | disconnected | unresolved | suspected =>
    exact hfiled.of_eq rfl (PeerState.after_eq_archived (by simp) _)
      fun _ => Iff.rfl
  | unplanned =>
    simp only [Contact.step]
    split
    · exact hfiled.of_eq rfl Iff.rfl fun _ => Iff.rfl
    · exact hfiled
  | resolving =>
    exact hfiled.of_eq rfl (iff_of_false (PeerState.after_ne_archived hallowed
      (by decide)) hallowed) fun _ => Iff.rfl
  | flagged archived => exact filed_flagged hallowed.1 hallowed.2 archived
  | archived => exact hfiled.step_archived hallowed.1 hallowed.2
  | unstored =>
    constructor
    · intro _
      exact iff_of_false (by rintro ⟨⟩) hallowed.1
    · intro archived hmem
      exact absurd hmem (hallowed.2 archived)
  | restarted self => exact filed_restarted contact self

end Contact

variable {P : Primitives}

/-- The peer whose machine a handshake coroutine is about to move on. -/
def Task.moves : Task → Option PeerId
  | .helloSaved made _ | .ackSaved made _ => some made.remotePeerId
  | .connecting peerId _ _ => some peerId
  | _ => none

theorem Task.moves_of_marks {task : Task} {peerId : PeerId}
    (hmarks : task.marks = some peerId) : task.moves = some peerId := by
  cases task with
  | helloSaved | ackSaved => exact hmarks
  | _ => cases hmarks

/-- The peer a call is about to archive or unarchive. -/
def ContactTask.archives : ContactTask → Option PeerId
  | .archiving peerId _ => some peerId
  | _ => none

namespace ContactNode

variable (state : ContactNode P) (peerId : PeerId)

/-- A call of `set_peer_archived` for the peer has written the flag and not
yet moved the machine. -/
def archiving : Bool :=
  state.calls.any fun task => decide (task.archives = some peerId)

def unarchived : Bool :=
  decide (state.node.peerStates.getState peerId ≠ .archived)

/-- The machine can follow the call: RESOLVING does not lead to ARCHIVED, nor
ARCHIVED to DISCONNECTED. -/
def followable : ContactTask → Bool
  | .archiving peerId archived =>
    decide (state.node.peerStates.getState peerId ≠
      if archived then .resolving else .archived)
  | _ => true

/-- A request about the peer: it has a row and no call about it is under way,
it is not archived when it is tried again, and neither when its row goes. -/
def requestKept : ContactEvent → Bool
  | .setPeerArchived peerId _ =>
    (state.node.storage.flag? peerId).isSome && !state.archiving peerId
  | .removePeer peerId => state.unarchived peerId && !state.archiving peerId
  | .endpoint (.reconnect peerId ..) => state.unarchived peerId
  | _ => true

/-- The event keeps flags and states together. -/
def flagsKept (event : ContactEvent) : Bool :=
  ((state.task? event).bind Task.moves).all state.unarchived &&
    (state.call? event).all state.followable && state.requestKept event

variable {state} {event : ContactEvent} {peerId}

theorem ne_archived_of_unarchived
    (hunarchived : state.unarchived peerId = true) :
    (state.contact peerId).state ≠ .archived :=
  of_decide_eq_true hunarchived

variable {archived : Bool}

/-- Only calls archive. -/
theorem mem_calls_of_archiving
    (hmem : .archiving archived ∈ (state.contact peerId).jobs) :
    .archiving peerId archived ∈ state.calls := by
  rcases mem_add.mp hmem with hmem | hmem
  · obtain ⟨task, -, hjob⟩ := mem_filterMap.mp hmem
    simp only [Task.job?, ite_none_right_eq_some, some.injEq] at hjob
    cases task <;> cases hjob.2
  · rcases mem_add.mp hmem with hmem | hmem
    · obtain ⟨task, htask, hjob⟩ := mem_filterMap.mp hmem
      cases task with
      | archiving =>
        simp only [ContactTask.job?, ite_none_right_eq_some,
          some.injEq, Job.archiving.injEq] at hjob
        obtain ⟨rfl, rfl⟩ := hjob
        exact htask
      | _ => cases hjob
    · split at hmem
      · cases Multiset.mem_singleton.mp hmem
      · exact absurd hmem (notMem_zero _)

theorem not_mem_jobs_of_archiving (hidle : state.archiving peerId = false)
    (archived : Bool) :
    .archiving archived ∉ (state.contact peerId).jobs := by
  intro hmem
  have hcall := mem_calls_of_archiving hmem
  simp only [archiving, List.any_eq_false] at hidle
  exact hidle _ hcall (decide_eq_true rfl)

theorem archiving_mem_of_call
    (hcall : state.call? event = some (.archiving peerId archived)) :
    .archiving archived ∈ (state.contact peerId).jobs := by
  refine archiving_mem_jobs ?_
  unfold call? at hcall
  split at hcall
  · exact mem_of_getElem? hcall
  · cases hcall

theorem filing_of_flagsKept {occurrences : List Occurrence}
    (hkept : state.flagsKept event = true)
    (hhappens : Happens state peerId event occurrences) :
    EveryStep Contact.step Contact.filing (state.contact peerId)
      occurrences := by
  simp only [flagsKept, Bool.and_eq_true, Option.all_eq_true] at hkept
  obtain ⟨⟨hmoves, hfollows⟩, hrequest⟩ := hkept
  cases hhappens with
  | plain hplain =>
    refine everyStep_of_forall (fun occurrence hmem contact => ?_) _
    have hone := hplain occurrence hmem
    cases occurrence <;> trivial
  | marked htask hmarks =>
    refine ⟨ne_archived_of_unarchived (hmoves peerId ?_), trivial⟩
    rw [htask]
    exact Task.moves_of_marks hmarks
  | helloSent htask =>
    exact ⟨ne_archived_of_unarchived (hmoves peerId (by rw [htask]; rfl)),
      trivial⟩
  | resolving hevent =>
    subst hevent
    exact ⟨trivial, ne_archived_of_unarchived hrequest, trivial⟩
  | flagged hevent =>
    subst hevent
    rw [requestKept, and_eq_true, not_eq_true'] at hrequest
    exact ⟨⟨hrequest.1, not_mem_jobs_of_archiving hrequest.2⟩, trivial⟩
  | archived hcall =>
    exact ⟨⟨archiving_mem_of_call hcall, PeerState.archiveRaises_eq_false
      (of_decide_eq_true (hfollows _ hcall))⟩, trivial⟩
  | unstored hevent =>
    subst hevent
    rw [requestKept, and_eq_true, not_eq_true'] at hrequest
    exact ⟨⟨ne_archived_of_unarchived hrequest.1,
      not_mem_jobs_of_archiving hrequest.2⟩, trivial⟩
  | added => split <;> simp [Contact.filing]
  | _ => exact ⟨trivial, trivial⟩

theorem filed_start (identity : LocalIdentity P) (storage : Storage)
    (now : ℚ) (peerId : PeerId) :
    ((start identity storage now).contact peerId).Filed := by
  rw [contact_start_eq]
  exact Contact.filed_restarted _ _

/-- A call of `set_peer_archived` that goes on returns, with flag and state as
requested. -/
def archivesAsked (state : ContactNode P) (event : ContactEvent) : Prop :=
  ∀ peerId archived, state.call? event = some (.archiving peerId archived) →
    (state.node.peerStates.setPeerArchived peerId archived).2 = none ∧
      (state.step event).node.storage.flag? peerId = some archived ∧
      ((state.step event).node.peerStates.getState peerId = .archived ↔
        archived = true)

theorem occurrences_of_archiving
    (hcall : state.call? event = some (.archiving peerId archived)) :
    state.occurrences peerId event = [.archived archived] := by
  cases event with
  | resume index =>
    have hfound : state.calls[index]? = some (.archiving peerId archived) :=
      hcall
    simp [occurrences, hfound, callOccurrences]
  | _ => cases hcall

theorem archivesAsked_of_filed (hcoherent : state.inner.process.Coherent)
    (hfiled : ∀ peerId, (state.contact peerId).Filed)
    (hkept : state.flagsKept event = true) : state.archivesAsked event := by
  intro peerId archived hcall
  have hfollows : (state.contact peerId).state.archiveRaises archived =
      false := by
    simp only [flagsKept, Bool.and_eq_true, Option.all_eq_true] at hkept
    exact PeerState.archiveRaises_eq_false
      (of_decide_eq_true (hkept.1.2 _ hcall))
  have hafter := contact_step peerId hcoherent event
  rw [occurrences_of_archiving hcall, run_cons, run_nil] at hafter
  refine ⟨?_, (congrArg Contact.row hafter).trans ?_, ?_⟩
  · rw [← not_isSome_iff_eq_none, not_eq_true,
      (PeerStates.setPeerArchived_self ..).2]
    exact hfollows
  · exact (hfiled peerId).calling archived (archiving_mem_of_call hcall)
  · have hstate : (state.step event).node.peerStates.getState peerId =
        (state.contact peerId).state.archivedAs archived :=
      congrArg Contact.state hafter
    rw [hstate]
    exact PeerState.archivedAs_eq_archived hfollows

/-- In every run from the start on any stored rows in which the machine can
follow each call and nothing else touches an archived peer, every call returns
with flag and state as requested, and a quiet node has the flag set of exactly
the archived peers. -/
theorem flag_iff_archived {identity : LocalIdentity P} {storage : Storage}
    {now : ℚ} {events : List ContactEvent}
    (hkept : EveryStep step (fun state event => state.flagsKept event = true)
      (start identity storage now) events) :
    EveryStep step archivesAsked (start identity storage now) events ∧
      ((run step (start identity storage now) events).quiet = true → ∀ peerId,
          (run step (start identity storage now) events).node.storage.flag?
              peerId = some true ↔
            (run step (start identity storage now)
              events).node.peerStates.getState peerId = .archived) := by
  have hcoherent := coherent_start identity storage now
  have hstart := filed_start identity storage now
  constructor
  · exact contact_everyStep (fun _ _ hfiled => hfiled.step)
      (fun _ event peerId _ hkept => filing_of_flagsKept hkept (happens event))
      (fun _ _ hcoherent hfiled hkept =>
        archivesAsked_of_filed hcoherent hfiled hkept) hcoherent hstart hkept
  · intro hquiet peerId
    have hfiled := contact_run (fun _ _ hfiled => hfiled.step)
      (fun _ event peerId _ hkept => filing_of_flagsKept hkept (happens event))
      hcoherent hstart hkept peerId
    refine hfiled.settled fun archived hmem => ?_
    rw [jobs_of_quiet hquiet peerId] at hmem
    exact absurd hmem (notMem_zero _)

end ContactNode

namespace ContactNodeWitness

open ContactNode EndpointNodeWitness

/-- A stored contact is archived. -/
def contactArchived : List ContactEvent :=
  [.setPeerArchived peer.peerId true, callResumes]

theorem flag_iff_archived_contact :
    (EveryStep step archivesAsked (start self contacts 0) contactArchived ∧
      ((run step (start self contacts 0) contactArchived).quiet = true →
        ∀ peerId, (run step (start self contacts 0)
              contactArchived).node.storage.flag? peerId = some true ↔
            (run step (start self contacts 0)
              contactArchived).node.peerStates.getState peerId = .archived)) ∧
      (run step (start self contacts 0) contactArchived).quiet = true ∧
      (run step (start self contacts 0) contactArchived).node.storage.flag?
        peer.peerId = some true :=
  ⟨flag_iff_archived (by decide +kernel), by decide +kernel⟩

/-- The same contact is to be unarchived: the call raises, and has cleared the
flag of a peer that stays ARCHIVED. -/
theorem flag_differs_after_unarchiving :
    let before := run step (start self contacts 0) contactArchived
    let called := before.step (.setPeerArchived peer.peerId false)
    let after := called.step callResumes
    (before.node.storage.flag? peer.peerId = some true ∧
      before.node.peerStates.getState peer.peerId = .archived) ∧
    called.call? callResumes = some (.archiving peer.peerId false) ∧
    (called.node.peerStates.setPeerArchived peer.peerId false).2.isSome = true ∧
    (after.quiet = true ∧ after.inner.coroutines.isEmpty = true ∧
      after.node.storage.flag? peer.peerId = some false ∧
      after.node.peerStates.getState peer.peerId = .archived) := by
  decide +kernel

end ContactNodeWitness

end AshiChat
