/-
The connection logic of a node (`node.py`): the HELLO and HELLO_ACK handlers,
`connect_to_peer` with its retry task, the heartbeat disconnect and a restart.
A coroutine is cut at the awaits that really suspend it, those on the database
and on cancelled tasks; what is left to do is a `Task`, and the event loop may
resume the tasks in any order.  Database calls take effect in the order in
which they are issued.  Flushing the message queue and sending SYNC at the end
of a handshake touch none of this state and are left out.
-/
import AshiChat.Handshake
import AshiChat.Peers

namespace AshiChat

/-- The running `_retry_hello` task of a peer, with the attempt it makes
next. -/
structure RetryTask where
  hello : Packet
  endpoint : Address
  attempt : Nat
deriving DecidableEq

/-- Attempts after the first; the last one is number seven. -/
def lastHelloAttempt : Nat := 7

structure Node (P : Primitives) where
  identity : LocalIdentity P
  registry : SessionRegistry
  storage : Storage
  peerTable : PeerTable
  peerStates : PeerStates
  reconnect : Reconnect
  heartbeat : OrderedDict PeerId (Bytes × Address)
  pendingHello : OrderedDict PeerId HandshakeState
  retryTasks : OrderedDict PeerId RetryTask
  floors : SequenceFloors
  table_local : peerTable.localId = identity.peerId

/-- What a suspended coroutine does next. -/
inductive Task where
  /-- `_handle_hello` after `add_peer` -/
  | helloAdded (packet : Packet) (hello : HelloPayload) (addr : Address)
  /-- `_handle_hello` after `get_peer` -/
  | helloFetched (packet : Packet) (hello : HelloPayload) (addr : Address)
      (nickname : Option String)
  /-- `_handle_hello` after `remember_endpoint` -/
  | helloRemembered (packet : Packet) (addr : Address)
  /-- `_handle_hello` after `save_session_state` -/
  | helloSaved (keys : SessionKeys) (addr : Address)
  /-- `connect_to_peer` after `remember_endpoint` -/
  | connecting (peerId : PeerId) (hello : Packet) (endpoint : Address)
  /-- `_handle_hello_ack` after `save_session_state` -/
  | ackSaved (keys : SessionKeys) (addr : Address)
  /-- `_handle_hello_ack` after `remember_endpoint` -/
  | ackRemembered (keys : SessionKeys) (addr : Address)
  /-- `_handle_hello_ack` after the heartbeat and the queue -/
  | ackFlushed (keys : SessionKeys)
deriving DecidableEq

/-- One uninterrupted stretch of a coroutine: the node afterwards, the task it
leaves, what it sent, and the exception that ended it. -/
structure Outcome (P : Primitives) where
  node : Node P
  next : Option Task := none
  sent : List (Packet × Address) := []
  error : Option PyError := none

namespace Node

variable {P : Primitives}

/-- `entry.endpoint = addr` -/
def setEndpoint (node : Node P) (peerId : PeerId) (addr : Address) : Node P :=
  { node with peerTable := node.peerTable.setEndpoint peerId addr }

def addDirectPeer (node : Node P) (peerId : PeerId) (publicKey : Bytes)
    (nickname : Option String) (addr : Address) (now : ℚ) : Node P :=
  { node with
    peerTable := node.peerTable.addDirectPeer peerId publicKey nickname
      (some addr) now
    table_local := by simpa using node.table_local }

def rememberEndpoint (node : Node P) (peerId : PeerId) (addr : Address)
    (now : ℚ) : Node P :=
  { node with storage := node.storage.rememberEndpoint peerId addr now }

def hasSession (node : Node P) (peerId : PeerId) : Bool :=
  (node.registry.getByPeerId peerId).isSome

theorem hasSession_eq (node : Node P) (peerId : PeerId) :
    node.hasSession peerId = (node.registry.sessionFor peerId).isSome := by
  rw [hasSession, SessionRegistry.sessionFor, Option.isSome_map]

/-- `_handle_hello` up to its first await: the guards, the yielded initiator
role, and the peer's entry. -/
def handleHello (node : Node P) (packet : Packet) (addr : Address) (now : ℚ) :
    Outcome P :=
  match HelloPayload.deserialize packet.payload with
  | .error err => { node := node, error := some err }
  | .ok hello =>
    let remote := derivePeerId P hello.identityPublicKey
    if node.hasSession remote then { node := node }
    else if node.pendingHello.contains remote ∧
        node.identity.peerId < remote then
      { node := node }
    else
      let node := { node with
        pendingHello := node.pendingHello.erase remote }
      if remote ∉ node.peerTable.getDirectPeerIds then
        { node := { node with
            storage := node.storage.addPeer remote hello.identityPublicKey
              addr now }
          next := some (.helloAdded packet hello addr) }
      else
        { node := (node.setEndpoint remote addr).rememberEndpoint remote
            addr now
          next := some (.helloRemembered packet addr) }

/-- A HELLO is dropped by one of the two guards. -/
def helloGuarded (node : Node P) (remote : PeerId) : Prop :=
  node.hasSession remote = true ∨
    (node.pendingHello.contains remote = true ∧ node.identity.peerId < remote)

instance (node : Node P) (remote : PeerId) :
    Decidable (node.helloGuarded remote) :=
  inferInstanceAs (Decidable (_ ∨ _))

variable {node node' : Node P} {packet : Packet} {hello : HelloPayload}
  {keys : SessionKeys}

variable (addr : Address)

theorem handleHello_guarded (now : ℚ)
    (hdec : HelloPayload.deserialize packet.payload = .ok hello)
    (hguard : node.helloGuarded (derivePeerId P hello.identityPublicKey)) :
    node.handleHello packet addr now = { node := node } := by
  simp only [handleHello, hdec]
  by_cases hsession :
      node.hasSession (derivePeerId P hello.identityPublicKey) = true
  · simp [hsession]
  · simp [hsession, hguard.resolve_left hsession]

/-- The node once the handler has given up its own HELLO. -/
def yielded (node : Node P) (remote : PeerId) : Node P :=
  { node with pendingHello := node.pendingHello.erase remote }

theorem handleHello_known (now : ℚ)
    (hdec : HelloPayload.deserialize packet.payload = .ok hello)
    (hguard : ¬ node.helloGuarded (derivePeerId P hello.identityPublicKey))
    (hdirect : derivePeerId P hello.identityPublicKey ∈
      node.peerTable.getDirectPeerIds) :
    let remote := derivePeerId P hello.identityPublicKey
    node.handleHello packet addr now =
      { node := ((node.yielded remote).setEndpoint remote
          addr).rememberEndpoint remote addr now
        next := some (.helloRemembered packet addr) } := by
  obtain ⟨hsession, hpending⟩ := not_or.mp hguard
  simp [handleHello, hdec, hsession, hpending, hdirect, yielded]

theorem handleHello_unknown (now : ℚ)
    (hdec : HelloPayload.deserialize packet.payload = .ok hello)
    (hguard : ¬ node.helloGuarded (derivePeerId P hello.identityPublicKey))
    (hdirect : derivePeerId P hello.identityPublicKey ∉
      node.peerTable.getDirectPeerIds) :
    let remote := derivePeerId P hello.identityPublicKey
    node.handleHello packet addr now =
      { node := { node.yielded remote with
          storage := node.storage.addPeer remote hello.identityPublicKey
            addr now }
        next := some (.helloAdded packet hello addr) } := by
  obtain ⟨hsession, hpending⟩ := not_or.mp hguard
  simp [handleHello, hdec, hsession, hpending, hdirect, yielded]

/-- Create the session object, raise it to the floors and register it.  A full
registry raises after the floors are consumed. -/
def registerSession (node : Node P) (keys : SessionKeys) :
    Except (Node P × PyError) (Node P) :=
  let (session, floors) := applySequenceFloors node.floors (Session.ofKeys keys)
  match node.registry.register session with
  | .error err => .error ({ node with floors := floors }, err)
  | .ok registry => .ok { node with
      floors := floors
      registry := registry
      storage := node.storage.saveSessionState session }

theorem registerSession_eq_ok (hreg : node.registerSession keys = .ok node') :
    ∃ registry, node.registry.register (establish node.floors keys) =
        .ok registry ∧
      node' = { node with
        floors := (applySequenceFloors node.floors (Session.ofKeys keys)).2
        registry := registry
        storage :=
          node.storage.saveSessionState (establish node.floors keys) } := by
  simp only [registerSession] at hreg
  split at hreg
  · cases hreg
  · next registry hregister =>
    cases hreg
    exact ⟨registry, hregister, rfl⟩

theorem registerSession_of_register {registry : SessionRegistry}
    (hregister : node.registry.register (establish node.floors keys) =
      .ok registry) :
    node.registerSession keys = .ok { node with
      floors := (applySequenceFloors node.floors (Session.ofKeys keys)).2
      registry := registry
      storage :=
        node.storage.saveSessionState (establish node.floors keys) } := by
  unfold establish at hregister ⊢
  simp only [registerSession, hregister]

theorem registerSession_eq_error {err : PyError}
    (hreg : node.registerSession keys = .error (node', err)) :
    node.registry.register (establish node.floors keys) = .error err ∧
      node' = { node with
        floors :=
          (applySequenceFloors node.floors (Session.ofKeys keys)).2 } := by
  simp only [registerSession] at hreg
  split at hreg
  · next hregister =>
    cases hreg
    exact ⟨hregister, rfl⟩
  · cases hreg

/-- The accepting stretch of `_handle_hello`: from `process_hello` to the
registration there is no await. -/
def acceptHello (node : Node P) (packet : Packet) (addr : Address)
    (draw : AckDraw) : Outcome P :=
  match processHello packet node.peerTable.getDirectPeerIds node.identity
      draw with
  | .error err => { node := node, error := some err }
  | .ok none => { node := node }
  | .ok (some (ack, keys)) =>
    match node.registerSession keys with
    | .error (node', err) =>
      { node := node', sent := [(ack, addr)], error := some err }
    | .ok node' =>
      { node := node'
        next := some (.helloSaved keys addr)
        sent := [(ack, addr)] }

/-- `_handle_hello_ack` up to its first await.  The pending state is popped
before anything is checked. -/
def handleHelloAck (node : Node P) (packet : Packet) (addr : Address) :
    Outcome P :=
  match HelloAckPayload.deserialize packet.payload with
  | .error err => { node := node, error := some err }
  | .ok ack =>
    let remote := derivePeerId P ack.identityPublicKey
    match node.pendingHello.get? remote with
    | none => { node := node }
    | some state =>
      let node := { node with
        pendingHello := node.pendingHello.erase remote }
      if node.hasSession remote then { node := node }
      else
        match processHelloAck P packet state
            node.peerTable.getDirectPeerIds with
        | .error err => { node := node, error := some err }
        | .ok none => { node := node }
        | .ok (some keys) =>
          match node.registerSession keys with
          | .error (node', err) => { node := node', error := some err }
          | .ok node' => { node := node', next := some (.ackSaved keys addr) }

/-- `connect_to_peer` up to its first await. -/
def connectToPeer (node : Node P) (peerId : PeerId) (endpoint : Address)
    (draw : HelloDraw) (now : ℚ) : Outcome P :=
  if node.hasSession peerId then { node := node }
  else if node.pendingHello.contains peerId then { node := node }
  else
    let (hello, state) := createHello node.identity draw
    { node := ({ node with
        pendingHello := node.pendingHello.set peerId
          { state with targetPeerId := some peerId } }).rememberEndpoint
            peerId endpoint now
      next := some (.connecting peerId hello endpoint) }

/-- Both handlers end with the peer marked connected. -/
def markConnected (node : Node P) (peerId : PeerId) : Node P := { node with
    peerStates := node.peerStates.markPeerConnected peerId
    reconnect := node.reconnect.recordConnect peerId }

/-- `heartbeat.register_peer` -/
def registerHeartbeat (node : Node P) (keys : SessionKeys) (addr : Address) :
    Node P :=
  { node with
    heartbeat := node.heartbeat.set keys.remotePeerId (keys.sessionId, addr) }

/-- The next stretch of a suspended coroutine. -/
def resume (node : Node P) (draw : AckDraw) (now : ℚ) : Task → Outcome P
  | .helloAdded packet hello addr =>
    let saved := node.storage.getPeer (derivePeerId P hello.identityPublicKey)
    { node := node
      next := some (.helloFetched packet hello addr
        (saved.bind PeerRecord.nickname)) }
  | .helloFetched packet hello addr nickname =>
    let remote := derivePeerId P hello.identityPublicKey
    { node := (node.addDirectPeer remote hello.identityPublicKey nickname
        addr now).rememberEndpoint remote addr now
      next := some (.helloRemembered packet addr) }
  | .helloRemembered packet addr => node.acceptHello packet addr draw
  | .helloSaved keys addr =>
    { node := (node.markConnected keys.remotePeerId).registerHeartbeat
        keys addr }
  | .connecting peerId hello endpoint =>
    { node := { node.setEndpoint peerId endpoint with
        peerStates := (node.peerStates.updateState peerId .connecting).1
        retryTasks := node.retryTasks.set peerId ⟨hello, endpoint, 2⟩ }
      sent := [(hello, endpoint)] }
  | .ackSaved keys addr =>
    { node := (node.markConnected keys.remotePeerId).rememberEndpoint
        keys.remotePeerId addr now
      next := some (.ackRemembered keys addr) }
  | .ackRemembered keys addr =>
    { node := (node.setEndpoint keys.remotePeerId addr).registerHeartbeat
        keys addr
      next := some (.ackFlushed keys) }
  | .ackFlushed keys =>
    { node := { node with
        retryTasks := node.retryTasks.erase keys.remotePeerId } }

/-- `_retry_hello` waking up from its sleep.  A task that returns is dropped
from the dictionary, where the code keeps it as done. -/
def retryHello (node : Node P) (peerId : PeerId) (now : ℚ) : Outcome P :=
  match node.retryTasks.get? peerId with
  | none => { node := node }
  | some task =>
    if node.hasSession peerId ∨ ¬ node.pendingHello.contains peerId then
      { node := { node with retryTasks := node.retryTasks.erase peerId } }
    else if task.attempt < lastHelloAttempt then
      { node := { node with
          retryTasks := node.retryTasks.set peerId
            { task with attempt := task.attempt + 1 } }
        sent := [(task.hello, task.endpoint)] }
    else
      { node := { node with
          retryTasks := node.retryTasks.erase peerId
          pendingHello := node.pendingHello.erase peerId
          peerStates := (node.peerStates.updateState peerId .disconnected).1
          reconnect := node.reconnect.recordDisconnect peerId now }
        sent := [(task.hello, task.endpoint)] }

def handlePeerDisconnect (node : Node P) (peerId : PeerId) (now : ℚ) : Node P :=
  { node with
    peerStates := (node.peerStates.updateState peerId .disconnected).1
    registry :=
      match node.registry.getByPeerId peerId with
      | none => node.registry
      | some (_, session) => node.registry.remove session.sessionId
    reconnect := node.reconnect.recordDisconnect peerId now }

/-- `start`, from the identity and the database on disk. -/
def start (identity : LocalIdentity P) (storage : Storage) (now : ℚ) : Node P :=
  let table := PeerTable.load identity.peerId storage.peers now
  { identity := identity
    registry := .empty
    storage := storage
    peerTable := table
    peerStates := .load storage.peers
    reconnect := .empty
    heartbeat := .empty
    pendingHello := .empty
    retryTasks := .empty
    floors := storage.sequenceFloors table.peers.contains
    table_local := PeerTable.localId_load .. }

/-- The rows `stop` flushes. -/
def stop (node : Node P) : Storage :=
  node.registry.allSessions.foldl Storage.saveSessionState node.storage

end Node

/-- A node and its suspended coroutines, in the order in which they were
suspended. -/
structure Process (P : Primitives) where
  node : Node P
  tasks : List Task

/-- What can make a node run: a datagram, a coroutine that is resumed, a call
of `connect_to_peer`, the retry timer, the heartbeat's sixth missed PONG, and
the end of the program followed by a new start. -/
inductive NodeEvent where
  | receive (packet : Packet) (addr : Address) (now : ℚ)
  | resume (index : Nat) (draw : AckDraw) (now : ℚ)
  | connect (peerId : PeerId) (endpoint : Address) (draw : HelloDraw) (now : ℚ)
  | retry (peerId : PeerId) (now : ℚ)
  | disconnect (peerId : PeerId) (now : ℚ)
  | restart (graceful : Bool) (now : ℚ)

namespace Process

variable {P : Primitives}

/-- The stretch an event runs.  Packets of the other types have no part in
the handshake. -/
def stretch (process : Process P) : NodeEvent → Outcome P
  | .receive packet addr now =>
    match packet.packetType with
    | .hello => process.node.handleHello packet addr now
    | .helloAck => process.node.handleHelloAck packet addr
    | _ => { node := process.node }
  | .resume index draw now =>
    match process.tasks[index]? with
    | some task => process.node.resume draw now task
    | none => { node := process.node }
  | .connect peerId endpoint draw now =>
    process.node.connectToPeer peerId endpoint draw now
  | .retry peerId now => process.node.retryHello peerId now
  | .disconnect peerId now =>
    { node := process.node.handlePeerDisconnect peerId now }
  | .restart graceful now =>
    { node := .start process.node.identity
        (if graceful then process.node.stop else process.node.storage) now }

/-- The coroutines that stay suspended during the event. -/
def suspended (process : Process P) : NodeEvent → List Task
  | .resume index .. => process.tasks.eraseIdx index
  | .restart .. => []
  | _ => process.tasks

def step (process : Process P) (event : NodeEvent) : Process P :=
  let outcome := process.stretch event
  { node := outcome.node
    tasks := process.suspended event ++ outcome.next.toList }

end Process

end AshiChat
