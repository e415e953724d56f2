/-
A contact that the node is done with: it has no session, no handshake for it
will go on, its HELLO is not retried, and no resolution of its endpoint can
succeed.  As long as nobody adds it to the peer table, it stays so.
-/
import AshiChat.ChatMoves
import AshiChat.NodeMoves

namespace AshiChat

open EventRun OrderedDict Multiset List Option Pool PeerTable SessionRegistry

/-- The job ends with a packet to the contact or with its heartbeat. -/
def Job.announces : Job → Bool
  | .connecting | .saved | .flushing => true
  | .accepting | .attempting | .archiving _ => false

/-- The occurrences that neither open a session nor announce anything. -/
def Occurrence.quiet : Occurrence → Bool
  | .accepted | .answered | .connect | .helloSent | .marked _ => false
  | .disconnected session | .swept session | .removed session => !session
  | _ => true

namespace Contact

structure Silent (contact : Contact) : Prop where
  closed : contact.session = false
  jobs : ∀ job ∈ contact.jobs, job.announces = false
  waits : contact.pending = false ∨ contact.retrying = false

variable {contact contact' : Contact}

/-- Jobs that announce nothing begin; others may end. -/
theorem Silent.of_swapJobs (hsilent : contact.Silent)
    {ended begun : Multiset Job} (hbegun : ∀ job ∈ begun, job.announces = false)
    (hsession : contact'.session = false)
    (hjobs : contact'.jobs = (contact.swapJobs ended begun).jobs)
    (hwaits : contact'.pending = false ∨ contact'.retrying = false) :
    contact'.Silent where
  closed := hsession
  jobs := by
    intro job hmem
    rw [hjobs] at hmem
    exact (mem_of_mem_swapJobs hmem).elim (hsilent.jobs job) (hbegun job)
  waits := hwaits

theorem Silent.step (hsilent : contact.Silent) {occurrence : Occurrence}
    (hquiet : occurrence.quiet = true) :
    (contact.step occurrence).Silent := by
  cases occurrence with
  | accepted | answered | connect | helloSent | marked => cases hquiet
  | helloArrived =>
    simp only [Contact.step]
    split
    · exact hsilent.of_swapJobs (by simp [Job.announces]) hsilent.closed rfl
        (.inl rfl)
    · exact hsilent.of_swapJobs (by simp [Job.announces]) hsilent.closed rfl
        (.inl rfl)
  | introduced | stored | added | unstored | resolving | unresolved
  | suspected => exact ⟨hsilent.closed, hsilent.jobs, hsilent.waits⟩
  | unanswered => exact ⟨hsilent.closed, hsilent.jobs, .inl rfl⟩
  | refused | attempted | recorded | flagged | archived =>
    exact hsilent.of_swapJobs (by simp [Job.announces]) hsilent.closed rfl
      hsilent.waits
  | flushed => exact hsilent.of_swapJobs (by simp) hsilent.closed rfl (.inr rfl)
  | retry =>
    simp only [Contact.step]
    split_ifs
    · exact hsilent
    · exact ⟨hsilent.closed, hsilent.jobs, .inr rfl⟩
    · exact ⟨hsilent.closed, hsilent.jobs, .inl rfl⟩
    · exact hsilent
  | disconnected session | swept session | removed session =>
    have hclosed : session = false := by simpa [Occurrence.quiet] using hquiet
    exact ⟨hclosed, hsilent.jobs, hsilent.waits⟩
  | unplanned =>
    simp only [Contact.step]
    split
    · exact ⟨hsilent.closed, hsilent.jobs, hsilent.waits⟩
    · exact hsilent
  | restarted =>
    refine ⟨rfl, fun job hmem => ?_, .inl rfl⟩
    exact absurd hmem (notMem_zero _)

end Contact

variable {P : Primitives}

/-- The endpoint that is tried when the resolution fails. -/
def ResolveCaller.fallback : ResolveCaller → Option Address
  | .reconnect fallback => fallback
  | .sendMessage => none

namespace EndpointNode

/-- No resolution under way leads to an endpoint of the peer. -/
structure Unresolvable (state : EndpointNode P) (peerId : PeerId) : Prop where
  waits : ∀ future caller, .resolving peerId future caller ∈ state.coroutines →
    caller.fallback = none ∧ state.resolver.futures[future]? = some none ∧
      ∀ target, state.resolver.pending.get? target = some future →
        target = peerId
  unresolved : ∀ endpoint,
    .resolvedRemembered peerId endpoint ∉ state.coroutines

variable {state later : EndpointNode P} {peerId : PeerId}

section

variable (hunresolvable : state.Unresolvable peerId)

include hunresolvable

/-- Other coroutines come and go, and futures of other targets. -/
theorem Unresolvable.of_subset
    (hcoroutines : ∀ task ∈ later.coroutines, task ∈ state.coroutines ∨
      (∀ future caller, task ≠ .resolving peerId future caller) ∧
        ∀ endpoint, task ≠ .resolvedRemembered peerId endpoint)
    (hfutures : ∀ future, state.resolver.futures[future]? = some none →
      (∀ target, state.resolver.pending.get? target = some future →
        target = peerId) →
      later.resolver.futures[future]? = some none ∧
        ∀ target, later.resolver.pending.get? target = some future →
          target = peerId) : later.Unresolvable peerId := by
  constructor
  · intro future caller hmem
    rcases hcoroutines _ hmem with hold | hnew
    · obtain ⟨hfallback, hopen, htarget⟩ :=
        hunresolvable.waits future caller hold
      exact ⟨hfallback, hfutures future hopen htarget⟩
    · exact absurd rfl (hnew.1 future caller)
  · intro endpoint hmem
    rcases hcoroutines _ hmem with hold | hnew
    · exact hunresolvable.unresolved endpoint hold
    · exact hnew.2 endpoint rfl

/-- The resolver is as before. -/
theorem Unresolvable.of_coroutines (hresolver : later.resolver = state.resolver)
    (hcoroutines : ∀ task ∈ later.coroutines, task ∈ state.coroutines ∨
      (∀ future caller, task ≠ .resolving peerId future caller) ∧
        ∀ endpoint, task ≠ .resolvedRemembered peerId endpoint) :
    later.Unresolvable peerId :=
  hunresolvable.of_subset hcoroutines fun future hopen htarget => by
    rw [hresolver]
    exact ⟨hopen, htarget⟩

/-- The `finally` of another resolution. -/
theorem Unresolvable.finish
    (other : PeerId) : (state.finish other).Unresolvable peerId := by
  refine hunresolvable.of_subset (fun task hmem => .inl hmem) ?_
  intro future hopen htarget
  refine ⟨hopen, fun target hget => ?_⟩
  exact htarget target (get?_of_get?_erase hget)

/-- A new resolution waits for a future of its own. -/
theorem Unresolvable.resolve
    (other : PeerId) (requestId : Random 16) {caller : ResolveCaller}
    (hcaller : other = peerId → caller.fallback = none) :
    (state.resolve other requestId caller).Unresolvable peerId := by
  have hlength : ∀ future, state.resolver.futures[future]? = some none →
      future < state.resolver.futures.length := fun future hopen =>
    (List.getElem?_eq_some_iff.mp hopen).1
  have hold : ∀ future, state.resolver.futures[future]? = some none →
      (∀ target, state.resolver.pending.get? target = some future →
        target = peerId) →
      (state.resolve other requestId caller).resolver.futures[future]? =
          some none ∧
        ∀ target, (state.resolve other requestId
          caller).resolver.pending.get? target = some future →
            target = peerId := by
    intro future hopen htarget
    refine ⟨(getElem?_append_left (hlength future hopen)).trans hopen, ?_⟩
    intro target hget
    rcases get?_set_cases hget with ⟨-, rfl⟩ | ⟨-, hbefore⟩
    · exact absurd (hlength _ hopen) (Nat.lt_irrefl _)
    · exact htarget target hbefore
  constructor
  · intro future caller' hmem
    rcases mem_append.mp hmem with hbefore | hnew
    · obtain ⟨hfallback, hopen, htarget⟩ :=
        hunresolvable.waits future caller' hbefore
      exact ⟨hfallback, hold future hopen htarget⟩
    · cases List.mem_singleton.mp hnew
      refine ⟨hcaller rfl, getElem?_concat_length, ?_⟩
      intro target hget
      rcases get?_set_cases hget with ⟨hsame, -⟩ | ⟨-, hbefore⟩
      · exact hsame
      · exact absurd (state.resolver.created _ _ hbefore) (Nat.lt_irrefl _)
  · intro endpoint hmem
    rcases mem_append.mp hmem with hbefore | hnew
    · exact hunresolvable.unresolved endpoint hbefore
    · cases List.mem_singleton.mp hnew

/-- An update that verifies is about a peer in the table. -/
theorem Unresolvable.receiveUpdate
    (habsent : state.node.peerTable.peers.get? peerId = none)
    (update : EndpointUpdatePayload) :
    (state.receiveUpdate update).Unresolvable peerId := by
  unfold EndpointNode.receiveUpdate
  split
  · next hverifies =>
    have hother : update.peerId ≠ peerId := by
      rintro rfl
      simp only [verifyEndpointSignature, habsent] at hverifies
      cases hverifies
    refine hunresolvable.of_subset (fun task hmem => .inl hmem) ?_
    intro future hopen htarget
    refine ⟨?_, fun target hget => htarget target ?_⟩
    · simp only [Resolver.complete]
      split
      · exact hopen
      · next waiting hwaiting =>
        split
        · have hne : waiting ≠ future := by
            rintro rfl
            exact hother (htarget _ hwaiting)
          exact (getElem?_set_ne hne).trans hopen
        · exact hopen
    · exact (congrArg (get? · target)
        (state.resolver.pending_complete ..)).symm.trans hget
  · exact hunresolvable

end

theorem getEndpoint_eq_none {table : PeerTable}
    (habsent : table.peers.get? peerId = none) :
    table.getEndpoint peerId = none := by
  rw [PeerTable.getEndpoint, habsent, bind_none]

theorem Unresolvable.reconnectPeer (hunresolvable : state.Unresolvable peerId)
    (habsent : state.node.peerTable.peers.get? peerId = none)
    (other : PeerId) (requestId : Random 16) (draw : HelloDraw) (now : ℚ) :
    (state.reconnectPeer other requestId draw now).Unresolvable peerId := by
  unfold EndpointNode.reconnectPeer
  split
  · exact hunresolvable.of_coroutines rfl fun task hmem => .inl hmem
  · split
    · exact hunresolvable.of_coroutines rfl fun task hmem => .inl hmem
    · have hsame : (state.withNode { state.node with
          peerStates := (state.node.peerStates.updateState other
            .resolving).1 }).Unresolvable peerId :=
        hunresolvable.of_coroutines rfl fun task hmem => .inl hmem
      refine hsame.resolve other requestId ?_
      rintro rfl
      exact getEndpoint_eq_none habsent

variable {task : EndpointTask} {rest : List EndpointTask} {index : Nat}

section

variable (hunresolvable : state.Unresolvable peerId)

include hunresolvable

section

variable (htake : take? state.coroutines index = some (task, rest))

include htake

/-- A coroutine is taken from the suspended ones. -/
theorem Unresolvable.taken :
    ({ state with coroutines := rest } : EndpointNode P).Unresolvable peerId :=
  hunresolvable.of_coroutines rfl fun _ hmem =>
    .inl (mem_of_mem_rest htake hmem)

/-- It goes on waiting. -/
theorem Unresolvable.putBack : ({ state with coroutines := rest ++ [task] } :
      EndpointNode P).Unresolvable peerId := by
  refine hunresolvable.of_coroutines rfl fun other hmem => .inl ?_
  rcases mem_append.mp hmem with hold | hnew
  · exact mem_of_mem_rest htake hold
  · cases List.mem_singleton.mp hnew
    exact mem_of_take? htake

theorem Unresolvable.resumeTask (draw : HelloDraw) (now : ℚ) :
    (({ state with coroutines := rest } : EndpointNode P).resumeTask draw now
      task).Unresolvable peerId := by
  have hrest := hunresolvable.taken htake
  cases task with
  | dataStored =>
    refine hrest.of_coroutines rfl fun task hmem => ?_
    refine (mem_append.mp hmem).imp_right fun hnew => ?_
    cases List.mem_singleton.mp hnew
    exact ⟨by rintro _ _ ⟨⟩, by rintro _ ⟨⟩⟩
  | dataRemembered =>
    exact hrest.of_coroutines rfl fun task hmem => .inl hmem
  | resolving other future caller =>
    simp only [EndpointNode.resumeTask]
    split
    · next _ hdone =>
      have hother : other ≠ peerId := by
        rintro rfl
        obtain ⟨-, hopen, -⟩ := hunresolvable.waits future caller
          (mem_of_take? htake)
        cases hopen.symm.trans hdone
      have hfinish := hrest.finish other
      cases caller with
      | reconnect =>
        refine hfinish.of_coroutines rfl fun task hmem => ?_
        refine (mem_append.mp hmem).imp_right fun hnew => ?_
        cases List.mem_singleton.mp hnew
        refine ⟨by rintro _ _ ⟨⟩, ?_⟩
        rintro _ ⟨⟩
        exact hother rfl
      | sendMessage =>
        exact hfinish.of_coroutines rfl fun task hmem => .inl hmem
    · exact hunresolvable.putBack htake
  | resolvedRemembered =>
    exact hrest.of_coroutines rfl fun task hmem => .inl hmem

theorem Unresolvable.timeoutTask (draw : HelloDraw) (now : ℚ) :
    (({ state with coroutines := rest } : EndpointNode P).timeoutTask draw now
      task).Unresolvable peerId := by
  have hback := hunresolvable.putBack htake
  cases task with
  | resolving other _ caller =>
    simp only [EndpointNode.timeoutTask]
    split
    · have hfinish := (hunresolvable.taken htake).finish other
      rcases caller with ⟨_ | _⟩ | _
      · exact hfinish.of_coroutines rfl fun task hmem => .inl hmem
      · exact hfinish.of_coroutines rfl fun task hmem => .inl hmem
      · exact hfinish
    · exact hback
  | dataStored | dataRemembered | resolvedRemembered => exact hback

end

/-- Resolutions stay without a result while the peer is not in the table. -/
theorem Unresolvable.step
    (habsent : state.node.peerTable.peers.get? peerId = none)
    (event : EndpointNodeEvent) : (state.step event).Unresolvable peerId := by
  cases event with
  | node event =>
    cases event with
    | restart =>
      constructor
      · rintro future caller ⟨⟩
      · rintro endpoint ⟨⟩
    | _ => exact hunresolvable.of_coroutines rfl fun task hmem => .inl hmem
  | receiveData =>
    simp only [EndpointNode.step, receiveData]
    split
    · exact hunresolvable
    · split
      · refine hunresolvable.of_coroutines rfl fun task hmem => ?_
        refine (mem_append.mp hmem).imp_right fun hnew => ?_
        cases List.mem_singleton.mp hnew
        exact ⟨by rintro _ _ ⟨⟩, by rintro _ ⟨⟩⟩
      · exact hunresolvable
  | receiveUpdate update => exact hunresolvable.receiveUpdate habsent update
  | reconnect other requestId draw now =>
    exact hunresolvable.reconnectPeer habsent other requestId draw now
  | sendOffline other requestId =>
    simp only [EndpointNode.step, sendOffline]
    split
    · exact hunresolvable.of_coroutines rfl fun task hmem => .inl hmem
    · exact hunresolvable.resolve other requestId fun _ => rfl
  | resume _ draw now =>
    simp only [EndpointNode.step, runTask]
    split
    · exact hunresolvable
    · next task rest htake => exact hunresolvable.resumeTask htake draw now
  | timeout _ draw now =>
    simp only [EndpointNode.step, runTask]
    split
    · exact hunresolvable
    · next task rest htake => exact hunresolvable.timeoutTask htake draw now
  | recordAttempt | select | write =>
    exact hunresolvable.of_coroutines rfl fun task hmem => .inl hmem

end

end EndpointNode

namespace Node

variable {node : Node P} {peerId : PeerId} {packet : Packet}

/-- An unknown peer cannot answer a HELLO. -/
theorem next_handleHelloAck_of_unknown {ack : HelloAckPayload}
    (hunknown : peerId ∉ node.peerTable.getDirectPeerIds)
    (hdec : HelloAckPayload.deserialize packet.payload = .ok ack)
    (hpeer : derivePeerId P ack.identityPublicKey = peerId)
    (addr : Address) : (node.handleHelloAck packet addr).next = none := by
  have hends := ackEnds_handleHelloAck node packet addr
  cases hends with
  | ignored _ hnext => exact hnext
  | refused _ _ _ hnext => exact hnext
  | answered hdec' _ hkeys hknown =>
    rw [hdec] at hdec'
    cases hdec'
    rw [hkeys, hpeer] at hknown
    exact absurd hknown hunknown

/-- Its own HELLO is not accepted. -/
theorem next_acceptHello_of_unknown {addr : Address}
    (hunknown : peerId ∉ node.peerTable.getDirectPeerIds)
    (hpeer : (Task.helloRemembered packet addr).peer P = some peerId)
    (draw : AckDraw) : (node.acceptHello packet addr draw).next = none := by
  have hends := acceptEnds_acceptHello node packet addr draw
  cases hends with
  | refused _ hnext => exact hnext
  | accepted _ _ hdec hkeys hknown =>
    simp only [Task.peer, hdec, some.injEq] at hpeer
    rw [hkeys, hpeer] at hknown
    exact absurd hknown hunknown

end Node

/-- The peer whose endpoint the coroutine resolves. -/
def EndpointTask.resolves : EndpointTask → Option PeerId
  | .resolving peerId _ _ | .resolvedRemembered peerId _ => some peerId
  | .dataStored .. | .dataRemembered .. => none

/-- The peer a call is adding. -/
def ContactTask.adds (P : Primitives) : ContactTask → Option PeerId
  | .inviting publicKey _ | .invited publicKey _ _ =>
    some (derivePeerId P publicKey)
  | .archiving .. | .removing _ => none

theorem Process.identity_step (process : Process P) (event : NodeEvent) :
    (process.step event).node.identity = process.node.identity := by
  have hfrom : process.From (fun _ => True) fun _ => True := by
    refine ⟨fun task _ => ?_, fun _ _ _ => trivial⟩
    cases task <;> trivial
  have hsupplies : process.Supplies (fun _ => True) (fun _ => True) event := by
    cases event with
    | receive => exact fun _ => trivial
    | connect => exact fun _ _ => trivial
    | _ => trivial
  exact (hfrom.stretch hsupplies).identity

namespace ContactNode

variable {state : ContactNode P} {peerId : PeerId} {event : ContactEvent}

theorem identity_step (state : ContactNode P) (event : ContactEvent) :
    (state.step event).node.identity = state.node.identity :=
  process_rule
    (motive := fun process => process.node.identity = state.node.identity)
    (fun process event hsame => (process.identity_step event).trans hsame)
    (fun _ _ hnode hsame => hnode.trans hsame) rfl event

/-- No call adds the node itself. -/
def Foreign (state : ContactNode P) : Prop :=
  ∀ task ∈ state.calls, task.adds P ≠ some state.node.identity.peerId

theorem calls_stepEndpoint (state : ContactNode P) (event : EndpointNodeEvent) :
    (state.stepEndpoint event).calls ⊆ state.calls := by
  unfold stepEndpoint
  split
  · exact nil_subset _
  · split <;> exact List.Subset.refl _
  · split <;> exact List.Subset.refl _
  · exact List.Subset.refl _

theorem calls_resumeCall (state : ContactNode P) (draw : HelloDraw) (now : ℚ)
    (task : ContactTask) :
    ∀ next ∈ (state.resumeCall draw now task).calls,
      next ∈ state.calls ∨ next.adds P = task.adds P := by
  cases task with
  | archiving | removing => exact fun next hmem => .inl hmem
  | inviting =>
    intro next hmem
    rcases mem_append.mp hmem with hold | hnew
    · exact .inl hold
    · cases List.mem_singleton.mp hnew
      exact .inr rfl
  | invited _ endpoint saved =>
    rcases saved with _ | saved
    · exact fun next hmem => .inl hmem
    · rcases endpoint with _ | addr <;> exact fun next hmem => .inl hmem

theorem Foreign.step (hforeign : state.Foreign) (event : ContactEvent) :
    (state.step event).Foreign := by
  intro task hmem
  rw [identity_step]
  have hsuspend : ∀ storage next, next.adds P ≠
      some state.node.identity.peerId →
        task ∈ (state.suspend storage next).calls →
          task.adds P ≠ some state.node.identity.peerId := by
    intro storage next hnext hmem
    rcases mem_append.mp hmem with hold | hnew
    · exact hforeign task hold
    · cases List.mem_singleton.mp hnew
      exact hnext
  cases event with
  | endpoint event => exact hforeign task (calls_stepEndpoint state event hmem)
  | addContactFromInvite publicKey endpoint =>
    simp only [ContactNode.step] at hmem
    split at hmem
    · exact hforeign task hmem
    · next hother =>
      exact hsuspend _ (.inviting publicKey endpoint)
        (fun hself => hother (some.inj hself)) hmem
  | setPeerArchived | removePeer => exact hsuspend _ _ (by rintro ⟨⟩) hmem
  | suspect => exact hforeign task hmem
  | resume _ draw now =>
    simp only [ContactNode.step] at hmem
    split at hmem
    · exact hforeign task hmem
    · next call _ htake =>
      rcases calls_resumeCall _ draw now call task hmem with hold | hnew
      · exact hforeign task (mem_of_mem_rest htake hold)
      · rw [hnew]
        exact hforeign call (mem_of_take? htake)

/-- The peer is in the peer table. -/
def knows (state : ContactNode P) (peerId : PeerId) : Bool :=
  state.node.peerTable.peers.contains peerId

theorem get?_of_not_knows (habsent : state.knows peerId = false) :
    state.node.peerTable.peers.get? peerId = none :=
  (contains_eq_false_iff _ _).mp habsent

theorem not_mem_direct (habsent : state.knows peerId = false) :
    peerId ∉ state.node.peerTable.getDirectPeerIds := by
  rw [mem_getDirectPeerIds]
  rintro ⟨entry, hentry, -⟩
  cases (get?_of_not_knows habsent).symm.trans hentry

/-- The node is done with the peer. -/
structure Silent (state : ContactNode P) (peerId : PeerId) : Prop where
  coherent : state.inner.process.Coherent
  foreign : state.Foreign
  sessions : state.node.registry.Lacks peerId
  resolutions : state.inner.Unresolvable peerId
  contact : (state.contact peerId).Silent

theorem quiet_receive (habsent : state.knows peerId = false)
    (packet : Packet) (addr : Address) (now : ℚ) :
    ∀ occurrence ∈ state.inner.process.occurrences peerId
      (.receive packet addr now), occurrence.quiet = true := by
  simp only [Process.occurrences]
  split
  · unfold Node.helloOccurrences
    split
    · simp
    · split <;> simp [Occurrence.quiet]
  · unfold Node.ackOccurrences
    split
    · simp
    · next _ hdec =>
      split
      · next hmine =>
        have hnext := Node.next_handleHelloAck_of_unknown
          (not_mem_direct habsent) hdec hmine.1 addr
        rw [show (state.inner.process.node.handleHelloAck packet
          addr).next = none from hnext]
        simp [Occurrence.quiet]
      · simp
  · simp

variable {index : Nat} {draw : HelloDraw} {now : ℚ} {task : EndpointTask}

/-- No job that announces anything is at work. -/
theorem Silent.quiet_task (hsilent : state.Silent peerId)
    (habsent : state.knows peerId = false) {task : Task} (draw : AckDraw)
    (htask : state.inner.process.tasks[index]? = some task) :
    ∀ occurrence ∈ state.node.taskOccurrences peerId draw task,
      occurrence.quiet = true := by
  unfold Node.taskOccurrences
  split
  · next hpeer =>
    have hkind : task.kind.announces = false := by
      have hevent : state.task? (.endpoint (.node (.resume index draw 0))) =
        some task := htask
      exact hsilent.contact.jobs _ (kind_mem_jobs hevent hpeer)
    cases task with
    | helloAdded | ackRemembered => simp
    | helloFetched =>
      simp only
      split <;> simp [Occurrence.quiet]
    | helloRemembered =>
      have hnext := Node.next_acceptHello_of_unknown
        (not_mem_direct habsent) hpeer draw
      simp [hnext, Occurrence.quiet]
    | helloSaved | ackSaved | connecting => cases hkind
    | ackFlushed => simp [Occurrence.quiet]
  · simp

theorem Silent.session_dropPeer (hsilent : state.Silent peerId)
    (other : PeerId) :
    ((state.node.registry.dropPeer other).sessionFor peerId).isSome =
      false := by
  rw [(hsilent.sessions.dropPeer other).byPeer]
  rfl

theorem Silent.quiet_process (hsilent : state.Silent peerId)
    (habsent : state.knows peerId = false) {event : NodeEvent}
    (hevent : ∀ other endpoint draw now,
      event ≠ .connect other endpoint draw now) :
    ∀ occurrence ∈ state.inner.process.occurrences peerId event,
      occurrence.quiet = true := by
  cases event with
  | receive packet addr now => exact quiet_receive habsent packet addr now
  | resume _ draw =>
    simp only [Process.occurrences]
    split
    · next _ htask => exact hsilent.quiet_task habsent draw htask
    · simp
  | connect other endpoint draw now =>
    exact absurd rfl (hevent other endpoint draw now)
  | retry =>
    simp only [Process.occurrences]
    split <;> simp [Occurrence.quiet]
  | disconnect other =>
    have hsession : ((state.inner.process.node.registry.dropPeer
        other).sessionFor peerId).isSome = false :=
      hsilent.session_dropPeer other
    simp only [Process.occurrences, hsession]
    split <;> simp [Occurrence.quiet]
  | restart => simp [Process.occurrences, Occurrence.quiet]

theorem quiet_connect {other : PeerId} (hother : other ≠ peerId) :
    ∀ occurrence ∈ connectOccurrences peerId other,
      occurrence.quiet = true := by
  rw [connectOccurrences, if_neg hother]
  simp

section

variable (hsilent : state.Silent peerId)

include hsilent

theorem Silent.quiet_coroutine (hmem : task ∈ state.inner.coroutines) :
    ∀ occurrence ∈ state.inner.resumeOccurrences peerId task,
      occurrence.quiet = true := by
  cases task with
  | dataStored | dataRemembered => simp [EndpointNode.resumeOccurrences]
  | resolvedRemembered _ endpoint =>
    refine quiet_connect ?_
    rintro rfl
    exact hsilent.resolutions.unresolved endpoint hmem
  | resolving _ future caller =>
    simp only [EndpointNode.resumeOccurrences]
    split
    · next endpoint hdone =>
      cases caller with
      | reconnect => simp [EndpointNode.resolvedOccurrences]
      | sendMessage =>
        refine quiet_connect ?_
        rintro rfl
        obtain ⟨-, hopen, -⟩ :=
          hsilent.resolutions.waits future .sendMessage hmem
        cases hopen.symm.trans hdone
    · simp

theorem Silent.quiet_timeout (hmem : task ∈ state.inner.coroutines) :
    ∀ occurrence ∈ state.inner.timeoutOccurrences peerId task,
      occurrence.quiet = true := by
  cases task with
  | dataStored | dataRemembered | resolvedRemembered =>
    simp [EndpointNode.timeoutOccurrences]
  | resolving _ future caller =>
    simp only [EndpointNode.timeoutOccurrences]
    split
    · rcases caller with ⟨_ | _⟩ | _
      · simp only [EndpointNode.unresolvedOccurrences]
        split <;> simp [Occurrence.quiet]
      · refine quiet_connect ?_
        rintro rfl
        cases (hsilent.resolutions.waits future _ hmem).1
      · simp [EndpointNode.unresolvedOccurrences]
    · simp

theorem Silent.quiet_endpoint
    (habsent : state.knows peerId = false) {event : EndpointNodeEvent}
    (hevent : ∀ other endpoint draw now,
      event ≠ .node (.connect other endpoint draw now)) :
    ∀ occurrence ∈ state.occurrences peerId (.endpoint event),
      occurrence.quiet = true := by
  have hnone := EndpointNode.getEndpoint_eq_none (get?_of_not_knows habsent)
  cases event with
  | node =>
    refine hsilent.quiet_process habsent ?_
    rintro other endpoint draw now rfl
    exact hevent other endpoint draw now rfl
  | reconnect =>
    simp only [occurrences]
    split
    · refine forall_mem_append.mpr ⟨?_, ?_⟩
      · split <;> simp [Occurrence.quiet]
      · simp only [EndpointNode.occurrences]
        split
        · split <;> simp [Occurrence.quiet]
        · split
          · next endpoint hendpoint _ =>
            refine quiet_connect ?_
            rintro rfl
            cases hnone.symm.trans hendpoint
          · split <;> simp [Occurrence.quiet]
    · simp
  | recordAttempt =>
    simp only [occurrences]
    split <;> simp [Occurrence.quiet]
  | sendOffline =>
    simp only [occurrences, EndpointNode.occurrences]
    split
    · next endpoint hendpoint =>
      refine quiet_connect ?_
      rintro rfl
      cases hnone.symm.trans hendpoint
    · simp
  | resume =>
    simp only [occurrences, EndpointNode.occurrences]
    split
    · next task htask =>
      exact hsilent.quiet_coroutine (mem_of_getElem? htask)
    · simp
  | timeout =>
    simp only [occurrences, EndpointNode.occurrences]
    split
    · next task htask =>
      exact hsilent.quiet_timeout (mem_of_getElem? htask)
    · simp
  | receiveData | receiveUpdate | select | write =>
    simp [occurrences, EndpointNode.occurrences]

/-- A call that adds the peer puts it into the table. -/
theorem Silent.quiet_call {task : ContactTask}
    (hafter : (state.step (.resume index draw now)).knows peerId = false)
    (hcall : state.calls[index]? = some task) :
    ∀ occurrence ∈ state.callOccurrences peerId task,
      occurrence.quiet = true := by
  cases task with
  | archiving =>
    simp only [callOccurrences]
    split <;> simp [Occurrence.quiet]
  | removing other =>
    have hsession := hsilent.session_dropPeer other
    simp only [callOccurrences]
    split <;> simpa [Occurrence.quiet] using hsession
  | inviting => simp [callOccurrences]
  | invited publicKey _ saved =>
    cases saved with
    | none => simp [callOccurrences]
    | some =>
      by_cases hmine : derivePeerId P publicKey = peerId
      · have hself : derivePeerId P publicKey ≠
            state.node.identity.peerId := fun hself =>
          hsilent.foreign _ (mem_of_getElem? hcall) (congrArg some hself)
        have hdirect : ((state.step (.resume index draw now)).contact
            peerId).direct = true := by
          rw [contact_step peerId hsilent.coherent]
          simp only [occurrences, hcall, callOccurrences]
          rw [if_pos (And.intro hmine hself), run_append]
          rfl
        exact absurd (isDirect_iff.mp hdirect) (not_mem_direct hafter)
      · simp only [callOccurrences, hmine, false_and, ↓reduceIte, append_nil]
        split
        · exact quiet_connect hmine
        · simp

/-- Only quiet occurrences are left for the peer. -/
theorem Silent.quiet (habsent : state.knows peerId = false)
    (hafter : (state.step event).knows peerId = false)
    (hevent : ∀ other endpoint draw now,
      event ≠ .endpoint (.node (.connect other endpoint draw now))) :
    ∀ occurrence ∈ state.occurrences peerId event, occurrence.quiet = true := by
  cases event with
  | endpoint =>
    refine hsilent.quiet_endpoint habsent ?_
    rintro other endpoint draw now rfl
    exact hevent other endpoint draw now rfl
  | addContactFromInvite | setPeerArchived | removePeer | suspect =>
    simp only [occurrences]
    split <;> simp [Occurrence.quiet]
  | resume =>
    simp only [occurrences]
    split
    · next _ hcall => exact hsilent.quiet_call hafter hcall
    · simp

end

/-- No handshake is made with a peer that is not in the table. -/
theorem lacks_step (hlacks : state.node.registry.Lacks peerId)
    (habsent : state.knows peerId = false) (event : ContactEvent) :
    (state.step event).node.registry.Lacks peerId := by
  have hunknown : peerId ∉ state.node.peerTable.getDirectPeerIds := by
    rw [mem_getDirectPeerIds]
    rintro ⟨entry, hentry, -⟩
    cases (get?_of_not_knows habsent).symm.trans hentry
  by_cases hevent : ∃ graceful now,
      event = .endpoint (.node (.restart graceful now))
  · obtain ⟨graceful, now, rfl⟩ := hevent
    exact lacks_empty peerId
  · refine (hlacks.called ?_).of_retains (state.retains_step event
      fun graceful now heq => hevent ⟨graceful, now, heq⟩)
    intro session hcall
    exact ne_of_mem_of_not_mem (direct_of_registryCall hcall) hunknown

theorem unresolvable_step (hunresolvable : state.inner.Unresolvable peerId)
    (habsent : state.knows peerId = false) (event : ContactEvent) :
    (state.step event).inner.Unresolvable peerId := by
  have hsame : ∀ inner : EndpointNode P, inner.resolver = state.inner.resolver →
        inner.coroutines = state.inner.coroutines →
          inner.Unresolvable peerId := by
    intro inner hresolver hcoroutines
    refine hunresolvable.of_coroutines hresolver fun task hmem => .inl ?_
    rwa [hcoroutines] at hmem
  cases event with
  | endpoint event =>
    have hstep := hunresolvable.step (get?_of_not_knows habsent) event
    cases event with
    | node event => cases event <;> exact hstep
    | reconnect | recordAttempt =>
      simp only [step, stepEndpoint]
      split
      · exact hstep
      · exact hunresolvable
    | _ => exact hstep
  | addContactFromInvite =>
    simp only [step]
    split
    · exact hunresolvable
    · exact hsame _ rfl rfl
  | setPeerArchived | removePeer | suspect => exact hsame _ rfl rfl
  | resume =>
    simp only [step]
    split
    · exact hunresolvable
    · next task _ _ =>
      rcases task with _ | _ | _ | ⟨publicKey, _ | addr, _ | saved⟩ <;>
        exact hsame _ rfl rfl

/-- Without a new entry in the table, the node stays done with the peer. -/
theorem Silent.step (hsilent : state.Silent peerId)
    (habsent : state.knows peerId = false)
    (hafter : (state.step event).knows peerId = false)
    (hevent : ∀ other endpoint draw now,
      event ≠ .endpoint (.node (.connect other endpoint draw now))) :
    (state.step event).Silent peerId where
  coherent := coherent_step hsilent.coherent event
  foreign := hsilent.foreign.step event
  sessions := lacks_step hsilent.sessions habsent event
  resolutions := unresolvable_step hsilent.resolutions habsent event
  contact := by
    have hquiet : EveryStep Contact.step
        (fun _ occurrence => occurrence.quiet = true) (state.contact peerId)
        (state.occurrences peerId event) :=
      everyStep_of_forall (fun occurrence hmem _ =>
        hsilent.quiet habsent hafter hevent occurrence hmem) _
    rw [contact_step peerId hsilent.coherent event]
    exact inv_run_of_everyStep (fun _ _ hbefore hone => hbefore.step hone)
      hsilent.contact hquiet

/-- Nothing that could end with a packet to the peer is under way, and its
session is the only one with it in the registry. -/
def idle (state : ContactNode P) (peerId : PeerId) : Bool :=
  (state.inner.process.tasks.all fun task =>
    decide (task.peer P ≠ some peerId) || !task.kind.announces) &&
  (!(state.node.pendingHello.contains peerId) ||
    !(state.node.retryTasks.contains peerId)) &&
  (state.inner.coroutines.all fun task =>
    decide (task.resolves ≠ some peerId)) &&
  state.node.registry.ownsSession peerId &&
  state.node.registry.noStray peerId

theorem announces_callJobs (state : ContactNode P) (peerId : PeerId) :
    ∀ job ∈ state.callJobs peerId, job.announces = false := by
  intro job hmem
  rcases mem_add.mp hmem with hcall | hattempt
  · obtain ⟨task, -, hjob⟩ := mem_filterMap.mp hcall
    cases task with
    | archiving =>
      simp only [ContactTask.job?] at hjob
      split at hjob
      · cases hjob
        rfl
      · cases hjob
    | _ => cases hjob
  · split at hattempt
    · cases Multiset.mem_singleton.mp hattempt
      rfl
    · cases hattempt

theorem step_of_removing
    (hcall : state.calls[index]? = some (.removing peerId)) :
    ∃ rest, state.step (.resume index draw now) =
      ({ state with calls := rest } : ContactNode P).withNode
        (state.node.removePeer peerId) := by
  simp only [ContactNode.step, take?, hcall]
  exact ⟨_, rfl⟩

/-- A removal that finds nothing under way leaves the node done with the
peer. -/
theorem silent_of_removing (hcoherent : state.inner.process.Coherent)
    (hforeign : state.Foreign) (hidle : state.idle peerId = true)
    (hcall : state.calls[index]? = some (.removing peerId)) :
    (state.step (.resume index draw now)).Silent peerId := by
  have hcoherent' := coherent_step hcoherent (.resume index draw now)
  have hforeign' := hforeign.step (.resume index draw now)
  simp only [idle, Bool.and_eq_true, List.all_eq_true, Bool.or_eq_true,
    Bool.not_eq_true', decide_eq_true_eq] at hidle
  obtain ⟨⟨⟨⟨htasks, hwaits⟩, hcoroutines⟩, howns⟩, hstray⟩ := hidle
  have hlacks := lacks_dropPeer howns hstray
  obtain ⟨_, hstep⟩ := @step_of_removing P state peerId index draw now hcall
  rw [hstep] at hcoherent' hforeign' ⊢
  refine ⟨hcoherent', hforeign', hlacks, ⟨?_, ?_⟩, ?_, ?_, hwaits⟩
  · intro future caller hmem
    exact absurd rfl (hcoroutines _ hmem)
  · intro endpoint hmem
    exact hcoroutines _ hmem rfl
  · exact (Node.hasSession_eq ..).trans (congrArg Option.isSome hlacks.byPeer)
  · intro job hmem
    rcases mem_add.mp hmem with htask | hcall
    · obtain ⟨task, hthere, hjob⟩ := mem_filterMap.mp htask
      simp only [Task.job?] at hjob
      split at hjob
      · next hpeer =>
        cases hjob
        exact (htasks task hthere).resolve_left fun hne => hne hpeer
      · cases hjob
    · exact announces_callJobs _ peerId job hcall

end ContactNode

end AshiChat
