/-
What an event can be in the life of a contact, said once: either only
occurrences that need nothing of the contact, or one of the few that do,
together with what is then known of the node.  Every property of contacts is
read off these cases.
-/
import AshiChat.ContactLife

namespace AshiChat

open EventRun List Option Multiset

variable {P : Primitives}

/-- The peer that a handshake coroutine is about to mark as connected. -/
def Task.marks : Task → Option PeerId
  | .helloSaved made _ | .ackSaved made _ => some made.remotePeerId
  | _ => none

namespace ContactNode

variable (state : ContactNode P) (peerId : PeerId)

/-- The handshake coroutine the event goes on with. -/
def task? : ContactEvent → Option Task
  | .endpoint (.node (.resume index _ _)) => state.inner.process.tasks[index]?
  | _ => none

/-- The call the event goes on with. -/
def call? : ContactEvent → Option ContactTask
  | .resume index _ _ => state.calls[index]?
  | _ => none

/-- The peer whose session the event drops. -/
def drops : ContactEvent → Option PeerId
  | .endpoint (.node (.disconnect other _)) => some other
  | .resume index _ _ =>
    match state.calls[index]? with
    | some (.removing other) => some other
    | _ => none
  | _ => none

/-- Whether the peer has a session once that of `other` has been dropped. -/
def sessionAfter (other : PeerId) : Bool :=
  ((state.node.registry.dropPeer other).sessionFor peerId).isSome

/-- What an event can be in the life of the peer. -/
inductive Happens (event : ContactEvent) : List Occurrence → Prop where
  | plain {occurrences : List Occurrence}
      (hplain : ∀ occurrence ∈ occurrences, occurrence.plain = true) :
      Happens event occurrences
  | introduced {task : Task} (htask : state.task? event = some task)
      (hpeer : task.peer P = some peerId) (hkind : task.kind = .accepting) :
      Happens event [.introduced]
  | refused {index : Nat} {draw : AckDraw} {now : ℚ} {packet : Packet}
      {addr : Address}
      (hevent : event = .endpoint (.node (.resume index draw now)))
      (htask : state.task? event = some (.helloRemembered packet addr))
      (hpeer : (Task.helloRemembered packet addr).peer P = some peerId)
      (hnext : (state.node.acceptHello packet addr draw).next = none) :
      Happens event [.refused]
  | unanswered {packet : Packet} {addr : Address} {now : ℚ}
      {ack : HelloAckPayload}
      (hevent : event = .endpoint (.node (.receive packet addr now)))
      (htype : packet.packetType = .helloAck)
      (hdec : HelloAckPayload.deserialize packet.payload = .ok ack)
      (hpeer : derivePeerId P ack.identityPublicKey = peerId)
      (hpending : state.node.pendingHello.contains peerId = true)
      (hnext : (state.node.handleHelloAck packet addr).next = none) :
      Happens event [.unanswered]
  | marked {task : Task} {flushes : Bool}
      (htask : state.task? event = some task)
      (hmarks : task.marks = some peerId) : Happens event [.marked flushes]
  | flushed {keys : SessionKeys}
      (htask : state.task? event = some (.ackFlushed keys))
      (hpeer : keys.remotePeerId = peerId) : Happens event [.flushed]
  | helloSent {hello : Packet} {endpoint : Address}
      (htask : state.task? event = some (.connecting peerId hello endpoint)) :
      Happens event [.helloSent]
  | disconnected {now : ℚ}
      (hevent : event = .endpoint (.node (.disconnect peerId now))) :
      Happens event [.disconnected (state.sessionAfter peerId peerId)]
  | swept {other : PeerId} (hdrops : state.drops event = some other)
      (hne : other ≠ peerId) :
      Happens event [.swept (state.sessionAfter peerId other)]
  | resolving {requestId : Random 16} {draw : HelloDraw} {now : ℚ}
      (hevent : event = .endpoint (.reconnect peerId requestId draw now)) :
      Happens event [.attempted, .resolving]
  | added {publicKey : Bytes} {endpoint : Option Address} {saved : PeerRecord}
      (hcall : state.call? event =
        some (.invited publicKey endpoint (some saved)))
      (hpeer : derivePeerId P publicKey = peerId) :
      Happens event ((if endpoint.isSome then [.connect] else []) ++ [.added])
  | flagged {archived : Bool}
      (hevent : event = .setPeerArchived peerId archived) :
      Happens event [.flagged archived]
  | archived {archived : Bool}
      (hcall : state.call? event = some (.archiving peerId archived)) :
      Happens event [.archived archived]
  | unstored (hevent : event = .removePeer peerId) : Happens event [.unstored]
  | removed (hcall : state.call? event = some (.removing peerId)) :
      Happens event [.removed (state.sessionAfter peerId peerId)]
  | restarted {graceful : Bool} {now : ℚ}
      (hevent : event = .endpoint (.node (.restart graceful now))) :
      Happens event [.restarted (decide (peerId = state.node.identity.peerId))]

variable {state} {peerId} {event : ContactEvent}

theorem Happens.nil : Happens state peerId event [] :=
  .plain fun _ hmem => absurd hmem not_mem_nil

variable {occurrence : Occurrence} {other : PeerId} {task : Task}

theorem Happens.one (hplain : occurrence.plain = true) :
    Happens state peerId event [occurrence] :=
  .plain fun _ hmem => List.mem_singleton.mp hmem ▸ hplain

/-- A call of `connect_to_peer` needs nothing of the contact. -/
theorem plain_of_mem_connect
    (hmem : occurrence ∈ connectOccurrences peerId other) :
    occurrence.plain = true := by
  unfold connectOccurrences at hmem
  split at hmem
  · rw [List.mem_singleton.mp hmem]
    rfl
  · cases hmem

theorem happens_receive (packet : Packet) (addr : Address) (now : ℚ) :
    Happens state peerId (.endpoint (.node (.receive packet addr now)))
      (state.inner.process.occurrences peerId (.receive packet addr now)) := by
  simp only [Process.occurrences]
  split
  · unfold Node.helloOccurrences
    split
    · exact .nil
    · split
      · exact .one rfl
      · exact .nil
  · next htype =>
    unfold Node.ackOccurrences
    split
    · exact .nil
    · next _ hdec =>
      split
      · next hmine =>
        split
        · exact .one rfl
        · next hnext =>
          exact .unanswered rfl htype hdec hmine.1 hmine.2
            (not_isSome_iff_eq_none.mp hnext)
      · exact .nil
  · exact .nil

theorem happens_task (index : Nat) (draw : AckDraw) (now : ℚ)
    (htask : state.inner.process.tasks[index]? = some task) :
    Happens state peerId (.endpoint (.node (.resume index draw now)))
      (state.node.taskOccurrences peerId draw task) := by
  unfold Node.taskOccurrences
  split
  · next hpeer =>
    cases task with
    | helloAdded | ackRemembered => exact .nil
    | helloFetched =>
      simp only
      split
      · exact .nil
      · exact .introduced htask hpeer rfl
    | helloRemembered =>
      simp only
      split
      · exact .one rfl
      · next hnext =>
        exact .refused rfl htask hpeer (not_isSome_iff_eq_none.mp hnext)
    | helloSaved keys addr | ackSaved keys addr => exact .marked htask hpeer
    | ackFlushed => exact .flushed htask (some.inj hpeer)
    | connecting =>
      cases some.inj hpeer
      exact .helloSent htask
  · exact .nil

theorem happens_node (event : NodeEvent) :
    Happens state peerId (.endpoint (.node event))
      (state.inner.process.occurrences peerId event) := by
  cases event with
  | receive packet addr now => exact happens_receive packet addr now
  | resume index draw now =>
    simp only [Process.occurrences]
    split
    · next _ htask => exact happens_task index draw now htask
    · exact .nil
  | connect =>
    exact .plain fun _ => plain_of_mem_connect
  | retry =>
    simp only [Process.occurrences]
    split
    · exact .one rfl
    · exact .nil
  | disconnect =>
    simp only [Process.occurrences]
    split
    · next hpeer =>
      subst hpeer
      exact .disconnected rfl
    · next hpeer => exact .swept rfl hpeer
  | restart => exact .restarted rfl

theorem plain_of_mem_resume {task : EndpointTask}
    (hmem : occurrence ∈ state.inner.resumeOccurrences peerId task) :
    occurrence.plain = true := by
  cases task with
  | dataStored | dataRemembered => cases hmem
  | resolvedRemembered => exact plain_of_mem_connect hmem
  | resolving _ _ caller =>
    simp only [EndpointNode.resumeOccurrences] at hmem
    split at hmem
    · cases caller with
      | reconnect => cases hmem
      | sendMessage => exact plain_of_mem_connect hmem
    · cases hmem

theorem plain_of_mem_timeout {task : EndpointTask}
    (hmem : occurrence ∈ state.inner.timeoutOccurrences peerId task) :
    occurrence.plain = true := by
  cases task with
  | dataStored | dataRemembered | resolvedRemembered => cases hmem
  | resolving _ _ caller =>
    simp only [EndpointNode.timeoutOccurrences] at hmem
    split at hmem
    · rcases caller with ⟨_ | _⟩ | _
      · simp only [EndpointNode.unresolvedOccurrences] at hmem
        split at hmem
        · rw [List.mem_singleton.mp hmem]
          rfl
        · cases hmem
      · exact plain_of_mem_connect hmem
      · cases hmem
    · cases hmem

/-- An attempt connects, resolves, or finds that the plan is void. -/
theorem happens_reconnect (other : PeerId) (requestId : Random 16)
    (draw : HelloDraw) (now : ℚ) :
    Happens state peerId (.endpoint (.reconnect other requestId draw now))
      ((if other = peerId then [.attempted] else []) ++
        state.inner.occurrences peerId
          (.reconnect other requestId draw now)) := by
  simp only [EndpointNode.occurrences]
  by_cases hpeer : other = peerId
  · subst hpeer
    simp only [connectOccurrences, ↓reduceIte, singleton_append]
    split
    · exact .plain (by simp [Occurrence.plain])
    · split
      · exact .plain (by simp [Occurrence.plain])
      · exact .resolving rfl
  · simp only [connectOccurrences, if_neg hpeer, nil_append]
    split
    · exact .nil
    · split <;> exact .nil

theorem happens_endpoint (event : EndpointNodeEvent) :
    Happens state peerId (.endpoint event)
      (state.occurrences peerId (.endpoint event)) := by
  cases event with
  | node event => exact happens_node event
  | reconnect other requestId draw now =>
    simp only [occurrences]
    split
    · exact happens_reconnect other requestId draw now
    · exact .nil
  | recordAttempt =>
    simp only [occurrences]
    split
    · exact .one rfl
    · exact .nil
  | sendOffline =>
    simp only [occurrences, EndpointNode.occurrences]
    split
    · exact .plain fun _ => plain_of_mem_connect
    · exact .nil
  | resume =>
    simp only [occurrences, EndpointNode.occurrences]
    split
    · exact .plain fun _ => plain_of_mem_resume
    · exact .nil
  | timeout =>
    simp only [occurrences, EndpointNode.occurrences]
    split
    · exact .plain fun _ => plain_of_mem_timeout
    · exact .nil
  | receiveData | receiveUpdate | select | write => exact .nil

theorem happens_call (index : Nat) (draw : HelloDraw) (now : ℚ)
    {task : ContactTask} (hcall : state.calls[index]? = some task) :
    Happens state peerId (.resume index draw now)
      (state.callOccurrences peerId task) := by
  cases task with
  | archiving _ archived =>
    simp only [callOccurrences]
    split
    · next hpeer =>
      subst hpeer
      exact .archived hcall
    · exact .nil
  | removing =>
    simp only [callOccurrences]
    split
    · next hpeer =>
      subst hpeer
      exact .removed hcall
    · next hpeer => exact .swept (by simp only [drops, hcall]) hpeer
  | inviting => exact .nil
  | invited publicKey _ saved =>
    cases saved with
    | none => exact .nil
    | some =>
      simp only [callOccurrences]
      by_cases hmine : derivePeerId P publicKey = peerId ∧
          derivePeerId P publicKey ≠ state.node.identity.peerId
      · rw [if_pos hmine, connectOccurrences, if_pos hmine.1]
        exact .added hcall hmine.1
      · rw [if_neg hmine, append_nil]
        split
        · exact .plain fun _ => plain_of_mem_connect
        · exact .nil

/-- What an event is in the life of the peer is one of the cases. -/
theorem happens (event : ContactEvent) :
    Happens state peerId event (state.occurrences peerId event) := by
  cases event with
  | endpoint event => exact happens_endpoint event
  | addContactFromInvite =>
    simp only [occurrences]
    split
    · exact .one rfl
    · exact .nil
  | setPeerArchived =>
    simp only [occurrences]
    split
    · next hpeer => exact .flagged (hpeer ▸ rfl)
    · exact .nil
  | removePeer =>
    simp only [occurrences]
    split
    · next hpeer => exact .unstored (hpeer ▸ rfl)
    · exact .nil
  | suspect =>
    simp only [occurrences]
    split
    · exact .one rfl
    · exact .nil
  | resume index draw now =>
    simp only [occurrences]
    split
    · next _ hcall => exact happens_call index draw now hcall
    · exact .nil

/-- The coroutine the event goes on with is at work for its peer. -/
theorem kind_mem_jobs (htask : state.task? event = some task)
    (hpeer : task.peer P = some peerId) :
    task.kind ∈ (state.contact peerId).jobs := by
  have hmem : task ∈ state.inner.process.tasks := by
    unfold task? at htask
    split at htask
    · exact mem_of_getElem? htask
    · cases htask
  have hjob : task.kind ∈ state.inner.process.jobs peerId :=
    mem_filterMap.mpr ⟨task, hmem, if_pos hpeer⟩
  exact mem_add.mpr (.inl hjob)

theorem archiving_mem_jobs {archived : Bool}
    (hmem : .archiving peerId archived ∈ state.calls) :
    .archiving archived ∈ (state.contact peerId).jobs := by
  have hjob : Job.archiving archived ∈ state.callJobs peerId := mem_add.mpr
      (.inl (mem_filterMap.mpr ⟨_, hmem, if_pos rfl⟩))
  exact mem_add.mpr (.inr hjob)

theorem drops_of_removing (hcall : state.call? event = some (.removing other)) :
    state.drops event = some other := by
  cases event with
  | resume index =>
    have hfound : state.calls[index]? = some (.removing other) := hcall
    simp only [drops, hfound]
  | _ => cases hcall

/-- Dropping the session of a peer that owns it leaves the others'. -/
theorem sessionAfter_eq (howns : state.node.registry.ownsSession other = true) :
    state.sessionAfter peerId other =
      if other = peerId then false else (state.contact peerId).session := by
  rw [sessionAfter, SessionRegistry.sessionFor_dropPeer howns]
  split
  · rfl
  · exact (Node.hasSession_eq ..).symm

/-- Nothing is at work for any peer in a quiet node. -/
theorem jobs_of_quiet (hquiet : state.quiet = true) (peerId : PeerId) :
    (state.contact peerId).jobs = 0 := by
  simp only [quiet, Bool.and_eq_true, List.isEmpty_iff,
    isNone_iff_eq_none] at hquiet
  obtain ⟨⟨htasks, hcalls⟩, hattempting⟩ := hquiet
  have hjobs : state.inner.process.jobs peerId + state.callJobs peerId = 0 := by
    simp [Process.jobs, callJobs, htasks, hcalls, hattempting, jobsOf]
  exact hjobs

end ContactNode

end AshiChat
