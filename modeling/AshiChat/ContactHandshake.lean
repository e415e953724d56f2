/-
What the handshakes of a node are in the life of one contact: `occurrences`
says which `Occurrence` an event of `Process` is for a peer, and
`Process.contact_step` that nothing else happens to the peer.  One lemma per
change of the node's tables comes first, then one per handler.
-/
import AshiChat.Contact
import AshiChat.ContactNode
import AshiChat.NodeMoves

namespace AshiChat

open EventRun OrderedDict Outcome Option PeerStates PeerTable List Reconnect
  Multiset Storage

variable {P : Primitives}

namespace Storage

/-- The archived flag of a peer's row, if there is one. -/
def flag? (storage : Storage) (peerId : PeerId) : Option Bool :=
  (storage.peers.get? peerId).map PeerRecord.archived

variable (storage : Storage) (peerId other : PeerId)

theorem flag?_rememberEndpoint (addr : Address) (now : ℚ) :
    (storage.rememberEndpoint peerId addr now).flag? other =
      storage.flag? other := by
  simp only [flag?, rememberEndpoint, get?_modify]
  split
  · rw [Option.map_map]
    rfl
  · rfl

theorem flag?_insertPeer (publicKey : Bytes) (endpoint : Option Address)
    (now : ℚ) :
    (storage.insertPeer peerId publicKey endpoint now).flag? other =
      if peerId = other then some ((storage.flag? other).getD false)
      else storage.flag? other := by
  simp only [flag?, insertPeer, get?_set]
  split
  · next heq =>
    subst heq
    cases storage.peers.get? peerId <;> rfl
  · rfl

theorem flag?_setPeerArchived (archived : Bool) :
    (storage.setPeerArchived peerId archived).flag? other =
      if peerId = other then (storage.flag? other).map fun _ => archived
      else storage.flag? other := by
  simp only [flag?, setPeerArchived, get?_modify]
  split
  · rw [Option.map_map, Option.map_map]
    rfl
  · rfl

theorem flag?_removePeer : (storage.removePeer peerId).flag? other =
      if peerId = other then none else storage.flag? other := by
  simp only [flag?, removePeer, get?_erase]
  split <;> rfl

end Storage

theorem Reconnect.contains_recordDisconnect (reconnect : Reconnect)
    (peerId other : PeerId) (now : ℚ) :
    (reconnect.recordDisconnect peerId now).contains other =
      if peerId = other then true
      else reconnect.contains other := by
  unfold recordDisconnect
  split
  · next hhas =>
    split
    · next heq => rw [← heq, hhas]
    · rfl
  · rw [contains_set]

/-- What the node keeps about the peer, with the coroutines at work for it. -/
def Node.contact (node : Node P) (peerId : PeerId) (jobs : Multiset Job) :
    Contact where
  direct := node.peerTable.isDirect peerId
  session := node.hasSession peerId
  state := node.peerStates.getState peerId
  planned := node.reconnect.contains peerId
  pending := node.pendingHello.contains peerId
  retrying := node.retryTasks.contains peerId
  row := node.storage.flag? peerId
  jobs := jobs

namespace Node

variable (node : Node P) (peerId other : PeerId) (jobs : Multiset Job)

@[simp] theorem contact_setEndpoint (addr : Address) :
    (node.setEndpoint peerId addr).contact other jobs =
      node.contact other jobs := by
  have hdirect : (node.peerTable.setEndpoint peerId addr).isDirect other =
      node.peerTable.isDirect other :=
    node.peerTable.isDirect_modifyEntry peerId other _ fun _ => rfl
  simp only [contact, setEndpoint, hdirect, hasSession]

@[simp] theorem contact_rememberEndpoint (addr : Address) (now : ℚ) :
    (node.rememberEndpoint peerId addr now).contact other jobs =
      node.contact other jobs := by
  simp only [contact, rememberEndpoint, flag?_rememberEndpoint, hasSession]

@[simp] theorem contact_registerHeartbeat (keys : SessionKeys)
    (addr : Address) :
    (node.registerHeartbeat keys addr).contact other jobs =
      node.contact other jobs := rfl

theorem contact_yielded : (node.yielded peerId).contact other jobs =
      if peerId = other then { node.contact other jobs with pending := false }
      else node.contact other jobs := by
  simp only [contact, yielded, hasSession, contains_erase]
  split <;> rfl

theorem contact_withStorage {storage : Storage} {row : Option Bool}
    (hrow : storage.flag? other = row) :
    (node.withStorage storage).contact other jobs =
      { node.contact other jobs with row := row } := by
  simp only [contact, withStorage, hrow, hasSession]

theorem contact_withTable (table : PeerTable)
    (hlocal : table.localId = node.identity.peerId) :
    ({ node with peerTable := table, table_local := hlocal } :
        Node P).contact other jobs =
      { node.contact other jobs with direct := table.isDirect other } := rfl

theorem contact_withStates {states : PeerStates} {state : PeerState}
    (hstate : states.getState other = state) :
    (node.withStates states).contact other jobs =
      { node.contact other jobs with state := state } := by
  simp only [contact, withStates, hstate, hasSession]

theorem contact_addDirectPeer (publicKey : Bytes)
    (nickname : Option String) (addr : Address) (now : ℚ) :
    (node.addDirectPeer peerId publicKey nickname addr now).contact other jobs =
      if peerId = other ∧ peerId ≠ node.identity.peerId then
        { node.contact other jobs with direct := true }
      else node.contact other jobs := by
  simp only [contact, addDirectPeer, hasSession,
    isDirect_addDirectPeer, node.table_local]
  split <;> rfl

theorem contact_registerSession {node node' : Node P} {keys : SessionKeys}
    (hregister : node.registerSession keys = .ok node') :
    node'.contact other jobs =
      if keys.remotePeerId = other then
        { node.contact other jobs with session := true }
      else node.contact other jobs := by
  obtain ⟨_, hok, rfl⟩ := registerSession_eq_ok hregister
  have hsession := SessionRegistry.sessionFor_register hok other
  rw [establish_remotePeerId] at hsession
  simp only [contact, hasSession_eq, hsession]
  split <;> rfl

theorem contact_markConnected : (node.markConnected peerId).contact other jobs =
      if peerId = other then
        { node.contact other jobs with state := .connected, planned := false }
      else node.contact other jobs := by
  simp only [contact, markConnected, hasSession, recordConnect, contains_erase]
  split
  · next heq =>
    subst heq
    rw [getState_markPeerConnected]
  · next hne => rw [getState_markPeerConnected_of_ne hne]

theorem contact_handlePeerDisconnect (now : ℚ) :
    (node.handlePeerDisconnect peerId now).contact other jobs =
      { node.contact other jobs with
        session := ((node.registry.dropPeer peerId).sessionFor other).isSome
        planned := if peerId = other then true
          else node.reconnect.contains other
        state := if peerId = other then
            (node.peerStates.getState other).after .disconnected
          else node.peerStates.getState other } := by
  simp only [contact, handlePeerDisconnect, hasSession_eq,
    getState_updateState, contains_recordDisconnect]
  rfl

theorem contact_removePeer : (node.removePeer peerId).contact other jobs =
      { node.contact other jobs with
        direct := if peerId = other then false
          else node.peerTable.isDirect other
        session :=
          ((node.registry.dropPeer peerId).sessionFor other).isSome } := by
  simp only [contact, removePeer, hasSession_eq, isDirect_removePeer]

theorem contact_addContact (publicKey : Bytes) (endpoint : Option Address)
    (saved : PeerRecord) (now : ℚ) :
    (node.addContact publicKey endpoint saved now).contact other jobs =
      if derivePeerId P publicKey = other ∧
          derivePeerId P publicKey ≠ node.identity.peerId then
        { node.contact other jobs with direct := true }
      else node.contact other jobs := by
  have hlocal := node.table_local
  simp only [addContact]
  split
  · refine (contact_withTable ..).trans ?_
    rw [isDirect_addDirectPeer, hlocal]
    split <;> rfl
  · next _ hentry =>
    -- The local node has no entry, so this one may be made direct.
    have hother : derivePeerId P publicKey ≠ node.identity.peerId := by
      intro heq
      rw [heq, ← hlocal, node.peerTable.localAbsent] at hentry
      cases hentry
    refine (contact_withTable ..).trans ?_
    simp only [isDirect, modifyEntry,
      get?_modify_of_get? hentry, hother, ne_eq, not_false_eq_true, and_true]
    split <;> rfl

/-- A node that has just started knows what its rows say. -/
theorem contact_start (identity : LocalIdentity P) (storage : Storage)
    (now : ℚ) :
    (Node.start identity storage now).contact other jobs =
      { direct := (storage.flag? other).isSome &&
          !decide (other = identity.peerId)
        session := false
        state := if storage.flag? other = some true then .archived
          else .disconnected
        planned := false
        pending := false
        retrying := false
        row := storage.flag? other
        jobs := jobs } := by
  have hstate := getState_load storage.peers other
  have hdirect := isDirect_load identity.peerId storage.peers now other
  simp only [contact, start, hstate, hdirect, Storage.flag?,
    isSome_map, ne_eq, decide_not]
  rfl

end Node

namespace Task

/-- The peer a handshake coroutine works for. -/
def peer (P : Primitives) : Task → Option PeerId
  | .helloAdded _ hello _ | .helloFetched _ hello _ _ =>
    some (derivePeerId P hello.identityPublicKey)
  | .helloRemembered packet _ =>
    match HelloPayload.deserialize packet.payload with
    | .ok hello => some (derivePeerId P hello.identityPublicKey)
    | .error _ => none
  | .helloSaved made _ | .ackSaved made _ | .ackRemembered made _
  | .ackFlushed made => some made.remotePeerId
  | .connecting peerId _ _ => some peerId

def kind : Task → Job
  | .helloAdded .. | .helloFetched .. | .helloRemembered .. => .accepting
  | .helloSaved .. | .ackSaved .. => .saved
  | .ackRemembered .. | .ackFlushed .. => .flushing
  | .connecting .. => .connecting

/-- What the coroutine does for the peer. -/
def job? (P : Primitives) (peerId : PeerId) (task : Task) : Option Job :=
  if task.peer P = some peerId then some task.kind else none

/-- `_handle_hello` works on the payload of its packet. -/
def Coherent : Task → Prop
  | .helloAdded packet hello _ | .helloFetched packet hello _ _ =>
    HelloPayload.deserialize packet.payload = .ok hello
  | _ => True

end Task

/-- The jobs of coroutines for one peer. -/
def jobsOf {α : Type*} (job? : α → Option Job) (tasks : List α) :
    Multiset Job :=
  ↑(tasks.filterMap job?)

section

variable {α : Type*} {job? : α → Option Job} {tasks : List α}

theorem jobsOf_append (left right : List α) :
    jobsOf job? (left ++ right) = jobsOf job? left + jobsOf job? right := by
  simp [jobsOf]

theorem jobsOf_toList (task : Option α) :
    jobsOf job? task.toList = ↑(task.bind job?).toList := by
  cases task with
  | none => rfl
  | some task =>
    simp only [jobsOf, toList_some, bind_some]
    cases hjob : job? task <;> simp [hjob]

/-- Taking a coroutine out takes its job out. -/
theorem jobsOf_eraseIdx {index : Nat} {task : α}
    (htask : tasks[index]? = some task) :
    jobsOf job? tasks =
      ↑(job? task).toList + jobsOf job? (tasks.eraseIdx index) := by
  obtain ⟨hlt, rfl⟩ := List.getElem?_eq_some_iff.mp htask
  have hperm := (getElem_cons_eraseIdx_perm hlt).filterMap job?
  rw [jobsOf, ← coe_eq_coe.mpr hperm]
  simp only [jobsOf, List.filterMap_cons]
  cases job? tasks[index] with
  | none | some => simp

end

/-- The jobs the coroutine does for the peer: one or none. -/
def Task.jobs (P : Primitives) (peerId : PeerId) (task : Task) : Multiset Job :=
  ↑(task.job? P peerId).toList

variable {task : Task} {outcome : Outcome P}

theorem Task.jobs_eq {other : PeerId} (hpeer : task.peer P = some other)
    (peerId : PeerId) :
    task.jobs P peerId = if other = peerId then {task.kind} else 0 := by
  simp only [Task.jobs, Task.job?, hpeer, some.injEq]
  split <;> rfl

/-- The job a stretch leaves for the peer. -/
def Outcome.begun (outcome : Outcome P) (peerId : PeerId) : Multiset Job :=
  ↑(outcome.next.bind (Task.job? P peerId)).toList

theorem Outcome.begun_none (hnext : outcome.next = none) (peerId : PeerId) :
    outcome.begun peerId = 0 := by
  rw [begun, hnext]
  rfl

theorem Outcome.begun_some (hnext : outcome.next = some task) (peerId : PeerId) :
    outcome.begun peerId = task.jobs P peerId := by
  rw [begun, hnext]
  rfl

namespace Node

variable (node : Node P) (peerId : PeerId) (jobs : Multiset Job)

/-- What a HELLO is in the life of the peer. -/
def helloOccurrences (packet : Packet) : List Occurrence :=
  match HelloPayload.deserialize packet.payload with
  | .error _ => []
  | .ok hello =>
    if derivePeerId P hello.identityPublicKey = peerId ∧
        ¬ node.helloGuarded peerId then [.helloArrived] else []

variable {packet : Packet} {hello : HelloPayload}

theorem Task.peer_helloRemembered (P : Primitives) (addr : Address)
    (hdec : HelloPayload.deserialize packet.payload = .ok hello) :
    Task.peer P (.helloRemembered packet addr) =
      some (derivePeerId P hello.identityPublicKey) := by
  simp only [Task.peer, hdec]

/-- The first stretch of `_handle_hello` for the peer itself. -/
theorem contact_handleHello_self (addr : Address) (now : ℚ)
    (hdec : HelloPayload.deserialize packet.payload = .ok hello)
    (hpeer : derivePeerId P hello.identityPublicKey = peerId)
    (hguard : ¬ node.helloGuarded peerId) :
    let outcome := node.handleHello packet addr now
    outcome.node.contact peerId (jobs + outcome.begun peerId) =
      (node.contact peerId jobs).step .helloArrived := by
  intro outcome
  subst hpeer
  have hremembered := Task.peer_helloRemembered P addr hdec
  by_cases hdirect : derivePeerId P hello.identityPublicKey ∈
      node.peerTable.getDirectPeerIds
  · have hknown := isDirect_iff.mpr hdirect
    rw [show outcome = _ from handleHello_known addr now hdec hguard hdirect,
      begun_some rfl, Task.jobs_eq hremembered, if_pos rfl,
      contact_rememberEndpoint, contact_setEndpoint, contact_yielded,
      if_pos rfl]
    simp [Contact.step, contact, hknown, Contact.swapJobs, Task.kind]
  · have hunknown : node.peerTable.isDirect
        (derivePeerId P hello.identityPublicKey) = false :=
      Bool.not_eq_true _ ▸ mt isDirect_iff.mp hdirect
    have hrow := node.storage.flag?_insertPeer
      (derivePeerId P hello.identityPublicKey)
      (derivePeerId P hello.identityPublicKey) hello.identityPublicKey
      (some addr) now
    rw [if_pos rfl, insertPeer_some] at hrow
    rw [show outcome = _ from handleHello_unknown addr now hdec hguard hdirect,
      begun_some rfl, Task.jobs_eq rfl, if_pos rfl]
    refine ((node.yielded _).contact_withStorage _ _ hrow).trans ?_
    rw [contact_yielded, if_pos rfl]
    simp [Contact.step, contact, hunknown, Contact.swapJobs, Contact.storeRow,
      Task.kind]

/-- For every other peer nothing happens. -/
theorem contact_handleHello_other (addr : Address) (now : ℚ)
    (hdec : HelloPayload.deserialize packet.payload = .ok hello)
    (hpeer : derivePeerId P hello.identityPublicKey ≠ peerId)
    (hguard : ¬ node.helloGuarded (derivePeerId P hello.identityPublicKey)) :
    let outcome := node.handleHello packet addr now
    outcome.node.contact peerId (jobs + outcome.begun peerId) =
      node.contact peerId jobs := by
  intro outcome
  have hremembered := Task.peer_helloRemembered P addr hdec
  by_cases hdirect : derivePeerId P hello.identityPublicKey ∈
      node.peerTable.getDirectPeerIds
  · rw [show outcome = _ from handleHello_known addr now hdec hguard hdirect,
      begun_some rfl, Task.jobs_eq hremembered, if_neg hpeer,
      contact_rememberEndpoint, contact_setEndpoint, contact_yielded,
      if_neg hpeer, add_zero]
  · have hrow := node.storage.flag?_insertPeer
      (derivePeerId P hello.identityPublicKey) peerId hello.identityPublicKey
      (some addr) now
    rw [if_neg hpeer, insertPeer_some] at hrow
    rw [show outcome = _ from handleHello_unknown addr now hdec hguard hdirect,
      begun_some rfl, Task.jobs_eq rfl, if_neg hpeer, add_zero]
    refine ((node.yielded _).contact_withStorage _ _ hrow).trans ?_
    rw [contact_yielded, if_neg hpeer]
    rfl

theorem contact_handleHello (packet : Packet) (addr : Address) (now : ℚ) :
    let outcome := node.handleHello packet addr now
    outcome.node.contact peerId (jobs + outcome.begun peerId) =
      run Contact.step (node.contact peerId jobs)
        (node.helloOccurrences peerId packet) := by
  intro outcome
  cases hdec : HelloPayload.deserialize packet.payload with
  | error err =>
    have houtcome : outcome = { node := node, error := some err } := by
      simp only [outcome, handleHello, hdec]
    rw [houtcome, begun_none rfl, add_zero, helloOccurrences, hdec]
    rfl
  | ok hello =>
    simp only [helloOccurrences, hdec]
    by_cases hguard : node.helloGuarded (derivePeerId P hello.identityPublicKey)
    · have hquiet : ¬ (derivePeerId P hello.identityPublicKey = peerId ∧
          ¬ node.helloGuarded peerId) := by
        rintro ⟨rfl, hfree⟩
        exact hfree hguard
      rw [if_neg hquiet, show outcome = _ from
        handleHello_guarded addr now hdec hguard, begun_none rfl,
        add_zero]
      rfl
    · by_cases hpeer : derivePeerId P hello.identityPublicKey = peerId
      · have hfree : ¬ node.helloGuarded peerId := hpeer ▸ hguard
        rw [if_pos ⟨hpeer, hfree⟩]
        exact node.contact_handleHello_self peerId jobs addr now hdec hpeer
          hfree
      · rw [if_neg fun hmine => hpeer hmine.1]
        exact node.contact_handleHello_other peerId jobs addr now hdec hpeer
          hguard

/-- What a HELLO_ACK is in the life of the peer. -/
def ackOccurrences (packet : Packet) (addr : Address) : List Occurrence :=
  match HelloAckPayload.deserialize packet.payload with
  | .error _ => []
  | .ok ack =>
    if derivePeerId P ack.identityPublicKey = peerId ∧
        node.pendingHello.contains peerId = true then
      if (node.handleHelloAck packet addr).next.isSome then [.answered]
      else [.unanswered]
    else []

/-- How `_handle_hello_ack` ends its first stretch. -/
inductive AckEnds (node : Node P) (packet : Packet) (addr : Address) :
    Outcome P → Prop where
  /-- The packet does not decode, or no HELLO waits for it. -/
  | ignored {outcome : Outcome P} (hnode : outcome.node = node)
      (hnext : outcome.next = none)
      (hfree : ∀ ack, HelloAckPayload.deserialize packet.payload = .ok ack →
        node.pendingHello.contains (derivePeerId P ack.identityPublicKey) =
          false) :
      AckEnds node packet addr outcome
  /-- The pending HELLO is given up for nothing. -/
  | refused {outcome : Outcome P} {ack : HelloAckPayload}
      {floors : SequenceFloors}
      (hdec : HelloAckPayload.deserialize packet.payload = .ok ack)
      (hpending : node.pendingHello.contains
        (derivePeerId P ack.identityPublicKey) = true)
      (hnode : outcome.node =
        { node.yielded (derivePeerId P ack.identityPublicKey) with
          floors := floors })
      (hnext : outcome.next = none) : AckEnds node packet addr outcome
  | answered {outcome : Outcome P} {ack : HelloAckPayload} {keys : SessionKeys}
      (hdec : HelloAckPayload.deserialize packet.payload = .ok ack)
      (hpending : node.pendingHello.contains
        (derivePeerId P ack.identityPublicKey) = true)
      (hkeys : keys.remotePeerId = derivePeerId P ack.identityPublicKey)
      (hknown : keys.remotePeerId ∈ node.peerTable.getDirectPeerIds)
      (hregister : (node.yielded
        (derivePeerId P ack.identityPublicKey)).registerSession keys =
          .ok outcome.node)
      (hnext : outcome.next = some (.ackSaved keys addr)) :
      AckEnds node packet addr outcome

theorem ackEnds_handleHelloAck (node : Node P) (packet : Packet)
    (addr : Address) :
    AckEnds node packet addr (node.handleHelloAck packet addr) := by
  unfold handleHelloAck
  split
  · next _ hdec =>
    refine .ignored rfl rfl ?_
    rintro ack hother
    rw [hdec] at hother
    cases hother
  · next ack hdec =>
    simp only
    split
    · next hnone =>
      refine .ignored rfl rfl ?_
      rintro other hother
      rw [hdec] at hother
      cases hother
      exact (contains_eq_false_iff _ _).mpr hnone
    · next state hstate =>
      have hpending := (contains_iff node.pendingHello
        (derivePeerId P ack.identityPublicKey)).mpr ⟨state, hstate⟩
      split
      · exact .refused hdec hpending rfl rfl
      · split
        · exact .refused hdec hpending rfl rfl
        · exact .refused hdec hpending rfl rfl
        · next _ hprocess =>
          obtain ⟨_, _, hdec', hverifies, -, hkeys⟩ :=
            processHelloAck_eq_some_iff.mp hprocess
          rw [hdec] at hdec'
          cases hdec'
          have hremote := congrArg SessionKeys.remotePeerId hkeys
          have hknown := of_decide_eq_true (Bool.and_eq_true_iff.mp hverifies).1
          split
          · next hregister =>
            obtain ⟨-, rfl⟩ := registerSession_eq_error hregister
            exact .refused hdec hpending rfl rfl
          · next hregister =>
            exact .answered hdec hpending hremote
              (hremote.symm ▸ hknown) hregister rfl

theorem contact_handleHelloAck (packet : Packet) (addr : Address) :
    let outcome := node.handleHelloAck packet addr
    outcome.node.contact peerId (jobs + outcome.begun peerId) =
      run Contact.step (node.contact peerId jobs)
        (node.ackOccurrences peerId packet addr) := by
  intro outcome
  have hends : AckEnds node packet addr outcome :=
    ackEnds_handleHelloAck node packet addr
  simp only [ackOccurrences]
  cases hends with
  | ignored hnode hnext hfree =>
    rw [hnode, begun_none hnext, add_zero]
    split
    · rfl
    · next ack hdec =>
      rw [if_neg]
      · rfl
      · rintro ⟨rfl, hpending⟩
        rw [hfree ack hdec] at hpending
        cases hpending
  | refused hdec hpending hnode hnext =>
    rw [hnode, begun_none hnext, add_zero, hdec]
    simp only [show (node.handleHelloAck packet addr).next = none from hnext,
      isSome_none, Bool.false_eq_true, ↓reduceIte]
    refine (node.contact_yielded _ peerId jobs).trans ?_
    split
    · next hpeer =>
      subst hpeer
      rw [if_pos ⟨rfl, hpending⟩]
      rfl
    · next hpeer =>
      rw [if_neg fun hmine => hpeer hmine.1]
      rfl
  | answered hdec hpending hkeys _ hregister hnext =>
    rw [begun_some hnext, Task.jobs_eq rfl,
      contact_registerSession _ _ hregister, contact_yielded, hkeys, hdec]
    simp only [show (node.handleHelloAck packet addr).next = _ from hnext,
      isSome_some, ↓reduceIte]
    split
    · next hpeer =>
      subst hpeer
      rw [if_pos ⟨rfl, hpending⟩]
      simp [Contact.step, Contact.swapJobs, contact, Task.kind]
    · next hpeer =>
      rw [if_neg fun hmine => hpeer hmine.1, add_zero]
      rfl

/-- How `_handle_hello` ends its accepting stretch. -/
inductive AcceptEnds (node : Node P) (packet : Packet) (addr : Address) :
    Outcome P → Prop where
  | refused {outcome : Outcome P} {floors : SequenceFloors}
      (hnode : outcome.node = { node with floors := floors })
      (hnext : outcome.next = none) : AcceptEnds node packet addr outcome
  | accepted {outcome : Outcome P} (hello : HelloPayload) (keys : SessionKeys)
      (hdec : HelloPayload.deserialize packet.payload = .ok hello)
      (hkeys : keys.remotePeerId = derivePeerId P hello.identityPublicKey)
      (hknown : keys.remotePeerId ∈ node.peerTable.getDirectPeerIds)
      (hregister : node.registerSession keys = .ok outcome.node)
      (hnext : outcome.next = some (.helloSaved keys addr)) :
      AcceptEnds node packet addr outcome

theorem acceptEnds_acceptHello (node : Node P) (packet : Packet)
    (addr : Address) (draw : AckDraw) :
    AcceptEnds node packet addr (node.acceptHello packet addr draw) := by
  unfold acceptHello
  split
  · exact .refused rfl rfl
  · exact .refused rfl rfl
  · next _ keys hprocess =>
    obtain ⟨hello, _, hdec, hverifies, -, -, hkeys⟩ :=
      processHello_eq_some_iff.mp hprocess
    have hremote := congrArg SessionKeys.remotePeerId hkeys
    have hknown := of_decide_eq_true (Bool.and_eq_true_iff.mp hverifies).1
    split
    · next hregister =>
      obtain ⟨-, rfl⟩ := registerSession_eq_error hregister
      exact .refused rfl rfl
    · next hregister =>
      exact .accepted hello keys hdec hremote (hremote.symm ▸ hknown)
        hregister rfl

/-- What the next stretch of a handshake coroutine is in the life of the
peer. -/
def taskOccurrences (draw : AckDraw) (task : Task) : List Occurrence :=
  if task.peer P = some peerId then
    match task with
    | .helloAdded .. | .ackRemembered .. => []
    | .helloFetched .. =>
      if peerId = node.identity.peerId then [] else [.introduced]
    | .helloRemembered packet addr =>
      if (node.acceptHello packet addr draw).next.isSome then [.accepted]
      else [.refused]
    | .helloSaved .. => [.marked false]
    | .ackSaved .. => [.marked true]
    | .ackFlushed .. => [.flushed]
    | .connecting .. => [.helloSent]
  else []

theorem contact_acceptHello (packet : Packet) (addr : Address)
    (draw : AckDraw) :
    let outcome := node.acceptHello packet addr draw
    outcome.node.contact peerId (jobs -
        Task.jobs P peerId (.helloRemembered packet addr) +
          outcome.begun peerId) =
      run Contact.step (node.contact peerId jobs)
        (node.taskOccurrences peerId draw (.helloRemembered packet addr)) := by
  intro outcome
  have hends : AcceptEnds node packet addr outcome :=
    acceptEnds_acceptHello node packet addr draw
  simp only [taskOccurrences]
  cases hends with
  | refused hnode hnext =>
    rw [hnode, begun_none hnext, add_zero]
    simp only [show (node.acceptHello packet addr draw).next = none from
      hnext, isSome_none, Bool.false_eq_true, ↓reduceIte, Task.jobs,
      Task.job?]
    split
    · simp only [run_cons, run_nil, Contact.step, Contact.swapJobs, add_zero]
      rfl
    · rw [toList_none, coe_nil, tsub_zero]
      rfl
  | accepted hello _ hdec hkeys _ hregister hnext =>
    have hpeer : Task.peer P (.helloRemembered packet addr) =
        some (derivePeerId P hello.identityPublicKey) := by
      simp only [Task.peer, hdec]
    rw [begun_some hnext, Task.jobs_eq hpeer, Task.jobs_eq rfl,
      contact_registerSession _ _ hregister, hkeys]
    simp only [show (node.acceptHello packet addr draw).next = _ from hnext,
      isSome_some, ↓reduceIte, hpeer, some.injEq]
    split
    · rfl
    · rw [tsub_zero, add_zero]
      rfl

theorem contact_helloSent (hello : Packet) (endpoint : Address)
    (other : PeerId) :
    ({ node.setEndpoint other endpoint with
        peerStates := (node.peerStates.updateState other .connecting).1
        retryTasks := node.retryTasks.set other ⟨hello, endpoint, 2⟩ } :
      Node P).contact peerId jobs =
      if other = peerId then
        { node.contact peerId jobs with
          state := (node.peerStates.getState peerId).after .connecting
          retrying := true }
      else node.contact peerId jobs := by
  have hbase : ({ node.setEndpoint other endpoint with
        peerStates := (node.peerStates.updateState other .connecting).1
        retryTasks := node.retryTasks.set other ⟨hello, endpoint, 2⟩ } :
      Node P).contact peerId jobs =
      { (node.setEndpoint other endpoint).contact peerId jobs with
        state := (node.peerStates.updateState other
          .connecting).1.getState peerId
        retrying := (node.retryTasks.set other
          ⟨hello, endpoint, 2⟩).contains peerId } := rfl
  rw [hbase, contact_setEndpoint, getState_updateState, contains_set]
  split <;> rfl

theorem contact_resume (draw : AckDraw) (now : ℚ) {task : Task}
    (hcoherent : task.Coherent) (hle : task.jobs P peerId ≤ jobs) :
    let outcome := node.resume draw now task
    outcome.node.contact peerId
        (jobs - task.jobs P peerId + outcome.begun peerId) =
      run Contact.step (node.contact peerId jobs)
        (node.taskOccurrences peerId draw task) := by
  intro outcome
  cases task with
  | helloAdded packet hello addr =>
    have hsame : jobs - Task.jobs P peerId (.helloAdded packet hello addr) +
        outcome.begun peerId = jobs := tsub_add_cancel_of_le hle
    rw [hsame, taskOccurrences]
    split <;> rfl
  | helloFetched packet hello addr nickname =>
    have hpeer : Task.peer P (.helloRemembered packet addr) =
        some (derivePeerId P hello.identityPublicKey) := by
      have hdec : HelloPayload.deserialize packet.payload = .ok hello :=
        hcoherent
      simp only [Task.peer, hdec]
    have hnext : Task.jobs P peerId (.helloRemembered packet addr) =
        Task.jobs P peerId (.helloFetched packet hello addr nickname) := by
      rw [Task.jobs_eq hpeer, Task.jobs_eq rfl]
      rfl
    rw [begun_some (show outcome.next = some _ from rfl), hnext,
      tsub_add_cancel_of_le hle]
    refine (contact_rememberEndpoint ..).trans ?_
    rw [contact_addDirectPeer, taskOccurrences]
    simp only [Task.peer, some.injEq]
    by_cases hmine : derivePeerId P hello.identityPublicKey = peerId
    · subst hmine
      by_cases hlocal :
          derivePeerId P hello.identityPublicKey = node.identity.peerId
      · rw [if_neg fun hboth => hboth.2 hlocal, if_pos rfl, if_pos hlocal]
        rfl
      · rw [if_pos ⟨rfl, hlocal⟩, if_pos rfl, if_neg hlocal]
        rfl
    · rw [if_neg fun hboth => hmine hboth.1, if_neg hmine]
      rfl
  | helloRemembered packet addr =>
    exact node.contact_acceptHello peerId jobs packet addr draw
  | helloSaved =>
    rw [begun_none rfl, add_zero, Task.jobs_eq rfl]
    refine (contact_registerHeartbeat ..).trans ?_
    rw [contact_markConnected, taskOccurrences]
    simp only [Task.peer, some.injEq]
    split
    · simp only [run_cons, run_nil, Contact.step, Contact.swapJobs,
        Bool.false_eq_true, ↓reduceIte, add_zero]
      rfl
    · rw [tsub_zero]
      rfl
  | connecting =>
    rw [begun_none rfl, add_zero, Task.jobs_eq rfl]
    refine (contact_helloSent ..).trans ?_
    rw [taskOccurrences]
    simp only [Task.peer, some.injEq]
    split
    · simp only [run_cons, run_nil, Contact.step, Contact.swapJobs, add_zero]
      rfl
    · rw [tsub_zero]
      rfl
  | ackSaved =>
    rw [begun_some (show outcome.next = some _ from rfl),
      Task.jobs_eq rfl, Task.jobs_eq rfl]
    refine (contact_rememberEndpoint ..).trans ?_
    rw [contact_markConnected, taskOccurrences]
    simp only [Task.peer, some.injEq]
    split
    · rfl
    · rw [tsub_zero, add_zero]
      rfl
  | ackRemembered keys addr =>
    have hsame : jobs - Task.jobs P peerId (.ackRemembered keys addr) +
        outcome.begun peerId = jobs := tsub_add_cancel_of_le hle
    rw [hsame]
    refine (contact_registerHeartbeat ..).trans ?_
    rw [contact_setEndpoint, taskOccurrences]
    split <;> rfl
  | ackFlushed keys =>
    have hbase : ∀ jobs, outcome.node.contact peerId jobs =
        { node.contact peerId jobs with
          retrying := (node.retryTasks.erase keys.remotePeerId).contains
            peerId } := fun _ => rfl
    rw [begun_none rfl, add_zero, Task.jobs_eq rfl, hbase,
      contains_erase, taskOccurrences]
    simp only [Task.peer, some.injEq]
    split
    · simp only [run_cons, run_nil, Contact.step, Contact.swapJobs, add_zero]
      rfl
    · rw [tsub_zero]
      rfl

variable (other : PeerId)

theorem contact_connectToPeer (endpoint : Address)
    (draw : HelloDraw) (now : ℚ) :
    let outcome := node.connectToPeer other endpoint draw now
    outcome.node.contact peerId (jobs + outcome.begun peerId) =
      run Contact.step (node.contact peerId jobs)
        (if other = peerId then [.connect] else []) := by
  intro outcome
  cases hsession : node.hasSession other with
  | true =>
    have houtcome : outcome = { node := node } := by
      simp [outcome, connectToPeer, hsession]
    rw [houtcome, begun_none rfl, add_zero]
    split
    · next hpeer =>
      subst hpeer
      simp [Contact.step, contact, hsession]
    · rfl
  | false =>
    cases hpending : node.pendingHello.contains other with
    | true =>
      have houtcome : outcome = { node := node } := by
        simp [outcome, connectToPeer, hsession, hpending]
      rw [houtcome, begun_none rfl, add_zero]
      split
      · next hpeer =>
        subst hpeer
        simp [Contact.step, contact, hpending]
      · rfl
    | false =>
      have hnext : outcome.next = some (.connecting other
          (createHello node.identity draw).1 endpoint) := by
        simp [outcome, connectToPeer, hsession, hpending]
      have hcontact : ∀ jobs, outcome.node.contact peerId jobs =
          { node.contact peerId jobs with
            pending := if other = peerId then true
              else node.pendingHello.contains peerId } := by
        intro jobs
        simp only [outcome, connectToPeer, hsession, hpending,
          ↓reduceIte, Bool.false_eq_true, contact_rememberEndpoint]
        simp only [contact, hasSession, contains_set]
      rw [begun_some hnext, Task.jobs_eq rfl, hcontact]
      split
      · next hpeer =>
        subst hpeer
        simp [Contact.step, contact, hsession, hpending, Contact.swapJobs,
          Task.kind]
      · rw [add_zero]
        rfl

/-- The task makes its last attempt when it wakes up. -/
def lastRetry : Bool := (node.retryTasks.get? peerId).any fun task =>
    decide (lastHelloAttempt ≤ task.attempt)

/-- What `_retry_hello` does when it wakes up. -/
inductive RetryWakes (node : Node P) (other : PeerId) (now : ℚ) :
    Outcome P → Prop where
  | missing {outcome : Outcome P} (hnode : outcome.node = node)
      (hidle : node.retryTasks.contains other = false) :
      RetryWakes node other now outcome
  | stopped {outcome : Outcome P}
      (hrunning : node.retryTasks.contains other = true)
      (hdone : (node.hasSession other ||
        !node.pendingHello.contains other) = true)
      (hnode : outcome.node =
        { node with retryTasks := node.retryTasks.erase other }) :
      RetryWakes node other now outcome
  | again {outcome : Outcome P} {task : RetryTask}
      (hrunning : node.retryTasks.contains other = true)
      (hopen : (node.hasSession other ||
        !node.pendingHello.contains other) = false)
      (hlast : node.lastRetry other = false)
      (hnode : outcome.node =
        { node with retryTasks := node.retryTasks.set other task }) :
      RetryWakes node other now outcome
  | exhausted {outcome : Outcome P}
      (hrunning : node.retryTasks.contains other = true)
      (hopen : (node.hasSession other ||
        !node.pendingHello.contains other) = false)
      (hlast : node.lastRetry other = true)
      (hnode : outcome.node = { node with
        retryTasks := node.retryTasks.erase other
        pendingHello := node.pendingHello.erase other
        peerStates := (node.peerStates.updateState other .disconnected).1
        reconnect := node.reconnect.recordDisconnect other now }) :
      RetryWakes node other now outcome

theorem retryWakes_retryHello (now : ℚ) :
    RetryWakes node other now (node.retryHello other now) := by
  unfold retryHello
  split
  · next hnone => exact .missing rfl ((contains_eq_false_iff _ _).mpr hnone)
  · next task htask =>
    have hrunning : node.retryTasks.contains other = true :=
      (contains_iff _ _).mpr ⟨task, htask⟩
    split
    · next hdone => exact .stopped hrunning (by simpa using hdone) rfl
    · next hopen =>
      split
      · next hmore =>
        exact .again hrunning (by simpa using hopen)
          (by simpa [lastRetry, htask] using hmore) rfl
      · next hlast =>
        exact .exhausted hrunning (by simpa using hopen)
          (by simpa [lastRetry, htask] using hlast) rfl

theorem contact_retryHello (now : ℚ) :
    (node.retryHello other now).node.contact peerId jobs =
      run Contact.step (node.contact peerId jobs)
        (if other = peerId then [.retry (node.lastRetry peerId)] else []) := by
  have hwakes := node.retryWakes_retryHello other now
  by_cases hpeer : other = peerId
  · subst hpeer
    rw [if_pos rfl, run_cons, run_nil]
    cases hwakes with
    | missing hnode hidle =>
      rw [hnode]
      simp [Contact.step, contact, hidle]
    | stopped hrunning hdone hnode =>
      rw [hnode]
      simp only [Contact.step, contact, hrunning, hdone, hasSession,
        contains_erase, Bool.not_true, Bool.false_eq_true,
        ↓reduceIte] at hdone ⊢
    | again hrunning hopen hlast hnode =>
      rw [hnode]
      simp only [Contact.step, contact, hrunning, hlast, hasSession,
        contains_set, Bool.not_true, Bool.false_eq_true, ↓reduceIte] at hopen ⊢
      rw [if_neg (by rw [hopen]; exact Bool.false_ne_true)]
    | exhausted hrunning hopen hlast hnode =>
      rw [hnode]
      simp only [Contact.step, contact, hrunning, hlast, hasSession,
        contains_erase, getState_updateState, contains_recordDisconnect,
        Bool.not_true, Bool.false_eq_true, ↓reduceIte] at hopen ⊢
      rw [if_neg (by rw [hopen]; exact Bool.false_ne_true)]
  · rw [if_neg hpeer, run_nil]
    cases hwakes with
    | missing hnode => rw [hnode]
    | stopped _ _ hnode =>
      rw [hnode]
      simp [contact, hasSession, contains_erase, hpeer]
    | again _ _ _ hnode =>
      rw [hnode]
      simp [contact, hasSession, contains_set, hpeer]
    | exhausted _ _ _ hnode =>
      rw [hnode]
      simp [contact, hasSession, contains_erase, getState_updateState,
        contains_recordDisconnect, hpeer]

end Node

namespace Process

/-- What an event is in the life of the peer. -/
def occurrences (process : Process P) (peerId : PeerId) :
    NodeEvent → List Occurrence
  | .receive packet addr _ =>
    match packet.packetType with
    | .hello => process.node.helloOccurrences peerId packet
    | .helloAck => process.node.ackOccurrences peerId packet addr
    | _ => []
  | .resume index draw _ =>
    match process.tasks[index]? with
    | some task => process.node.taskOccurrences peerId draw task
    | none => []
  | .connect other .. => if other = peerId then [.connect] else []
  | .retry other _ =>
    if other = peerId then [.retry (process.node.lastRetry peerId)] else []
  | .disconnect other _ =>
    let session :=
      ((process.node.registry.dropPeer other).sessionFor peerId).isSome
    if other = peerId then [.disconnected session] else [.swept session]
  | .restart .. => [.restarted (decide (peerId = process.node.identity.peerId))]

/-- `_handle_hello` works on what its packet says, in every coroutine. -/
def Coherent (process : Process P) : Prop :=
  ∀ task ∈ process.tasks, task.Coherent

/-- The jobs of the handshake coroutines for the peer. -/
def jobs (process : Process P) (peerId : PeerId) : Multiset Job :=
  jobsOf (Task.job? P peerId) process.tasks

theorem jobs_step (process : Process P) (peerId : PeerId) (event : NodeEvent) :
    (process.step event).jobs peerId =
      jobsOf (Task.job? P peerId) (process.suspended event) +
        (process.stretch event).begun peerId := by
  rw [jobs, step, jobsOf_append, jobsOf_toList]
  rfl

variable {process : Process P}

theorem next_retry (process : Process P) (peerId : PeerId) (now : ℚ) :
    (process.stretch (.retry peerId now)).next = none := by
  simp only [stretch, Node.retryHello]
  split
  · rfl
  · split_ifs <;> rfl

theorem coherent_next (hcoherent : process.Coherent) (event : NodeEvent)
    {task : Task} (hnext : (process.stretch event).next = some task) :
    task.Coherent := by
  cases event with
  | receive packet addr =>
    simp only [stretch] at hnext
    split at hnext
    · cases hdec : HelloPayload.deserialize packet.payload with
      | error => simp [Node.handleHello, hdec] at hnext
      | ok =>
        simp only [Node.handleHello, hdec] at hnext
        split_ifs at hnext
        · cases hnext
          trivial
        · cases hnext
          exact hdec
    · have hends := Node.ackEnds_handleHelloAck process.node packet addr
      cases hends with
      | ignored _ hnone =>
        rw [hnone] at hnext
        cases hnext
      | refused _ _ _ hnone =>
        rw [hnone] at hnext
        cases hnext
      | answered _ _ _ _ _ hsome =>
        rw [hsome] at hnext
        cases hnext
        trivial
    · cases hnext
  | resume _ draw =>
    simp only [stretch] at hnext
    split at hnext
    · next old hold =>
      have hbefore := hcoherent old (mem_of_getElem? hold)
      cases old with
      | helloAdded =>
        cases hnext
        exact hbefore
      | helloRemembered packet addr =>
        have hends := Node.acceptEnds_acceptHello process.node packet addr draw
        cases hends with
        | refused _ hnone =>
          rw [Node.resume, hnone] at hnext
          cases hnext
        | accepted _ _ _ _ _ _ hsome =>
          rw [Node.resume, hsome] at hnext
          cases hnext
          trivial
      | helloSaved | connecting | ackFlushed => cases hnext
      | helloFetched | ackSaved | ackRemembered =>
        cases hnext
        trivial
    · cases hnext
  | connect =>
    simp only [stretch, Node.connectToPeer] at hnext
    split_ifs at hnext
    cases hnext
    trivial
  | retry =>
    rw [next_retry] at hnext
    cases hnext
  | disconnect | restart => cases hnext

theorem Coherent.step (hcoherent : process.Coherent) (event : NodeEvent) :
    (process.step event).Coherent := by
  intro task hmem
  rcases mem_append.mp hmem with hold | hnew
  · exact hcoherent task (mem_suspended hold)
  · exact coherent_next hcoherent event (mem_toList.mp hnew)

/-- An event that is not a restart, in the life of one contact. -/
theorem contact_step (hcoherent : process.Coherent) (peerId : PeerId)
    (others : Multiset Job) {event : NodeEvent}
    (hlive : ∀ graceful now, event ≠ .restart graceful now) :
    (process.step event).node.contact peerId
        ((process.step event).jobs peerId + others) =
      run Contact.step
        (process.node.contact peerId (process.jobs peerId + others))
        (process.occurrences peerId event) := by
  rw [jobs_step, add_right_comm]
  cases event with
  | receive packet addr now =>
    cases htype : packet.packetType with
    | hello =>
      simp only [suspended, occurrences, step, stretch, htype]
      exact process.node.contact_handleHello peerId _ packet addr now
    | helloAck =>
      simp only [suspended, occurrences, step, stretch, htype]
      exact process.node.contact_handleHelloAck peerId _ packet addr
    | _ =>
      simp only [suspended, occurrences, step, stretch, htype]
      rw [begun_none rfl, add_zero]
      rfl
  | resume index draw now =>
    simp only [suspended, occurrences, step, stretch]
    cases htask : process.tasks[index]? with
    | none =>
      rw [begun_none rfl, add_zero,
        eraseIdx_of_length_le (getElem?_eq_none_iff.mp htask)]
      rfl
    | some task =>
      have hjobs : process.jobs peerId = task.jobs P peerId +
          jobsOf (Task.job? P peerId) (process.tasks.eraseIdx index) :=
        jobsOf_eraseIdx htask
      have hresume := process.node.contact_resume peerId
        (process.jobs peerId + others) draw now
        (hcoherent task (mem_of_getElem? htask))
        (by rw [hjobs, add_assoc]; exact le_add_right _ _)
      rw [hjobs, add_assoc, add_tsub_cancel_left, ← add_assoc] at hresume
      rw [hjobs]
      exact hresume
  | connect other endpoint draw now =>
    exact process.node.contact_connectToPeer peerId _ other endpoint draw now
  | retry other now =>
    rw [begun_none (process.next_retry other now), add_zero]
    exact process.node.contact_retryHello peerId _ other now
  | disconnect other now =>
    rw [begun_none rfl, add_zero]
    simp only [occurrences]
    refine (process.node.contact_handlePeerDisconnect other peerId _
      now).trans ?_
    split <;> rfl
  | restart graceful now => exact absurd rfl (hlive graceful now)

end Process

end AshiChat
