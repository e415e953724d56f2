/-
The endpoint of a peer as a node keeps it: in the peer table, in the database,
and in the answers it gives to others.  To the handshakes of `Process` come
the handlers that learn an endpoint in another way: DATA packets, signed
updates, and the resolution that `_reconnect_peer` and `send_message` wait
for.  Every coroutine is cut at its database calls and at the future it waits
for; a packet that a rate limit drops is no event.
-/
import AshiChat.Node
import AshiChat.QueueManager
import AshiChat.Reference
import AshiChat.Resolution

namespace AshiChat

open Node

/-- An address that a handler learns other than from a signed update: into an
entry, a new entry, a row, or a row that may be new. -/
inductive EndpointWrite where
  | entry (peerId : PeerId) (addr : Address)
  | newEntry (publicKey : Bytes) (nickname : Option String) (addr : Address)
      (now : ℚ)
  | row (peerId : PeerId) (addr : Address) (now : ℚ)
  | newRow (publicKey : Bytes) (addr : Address) (now : ℚ)

/-- The two places where a node keeps endpoints. -/
structure EndpointRecords where
  table : PeerTable
  rows : PeerRows

def Node.records {P : Primitives} (node : Node P) : EndpointRecords :=
  ⟨node.peerTable, node.storage.peers⟩

def EndpointWrite.apply (P : Primitives) (records : EndpointRecords) :
    EndpointWrite → EndpointRecords
  | .entry peerId addr =>
    { records with table := records.table.setEndpoint peerId addr }
  | .newEntry publicKey nickname addr now =>
    { records with
      table := records.table.addDirectPeer (derivePeerId P publicKey)
        publicKey nickname (some addr) now }
  | .row peerId addr now =>
    { records with
      rows := (Storage.rememberEndpoint ⟨records.rows, .empty⟩ peerId addr
        now).peers }
  | .newRow publicKey addr now =>
    { records with
      rows := (Storage.addPeer ⟨records.rows, .empty⟩
        (derivePeerId P publicKey) publicKey addr now).peers }

variable {P : Primitives}

/-- What `connect_to_peer` writes up to its first await. -/
def Node.connectWrites (node : Node P) (peerId : PeerId) (endpoint : Address)
    (now : ℚ) : List EndpointWrite :=
  if node.hasSession peerId || node.pendingHello.contains peerId then []
  else [.row peerId endpoint now]

/-- What a stretch of a handshake coroutine writes. -/
def Process.writes (process : Process P) : NodeEvent → List EndpointWrite
  | .receive packet addr now =>
    match packet.packetType, HelloPayload.deserialize packet.payload with
    | .hello, .ok hello =>
      let remote := derivePeerId P hello.identityPublicKey
      if process.node.helloGuarded remote then []
      else if remote ∈ process.node.peerTable.getDirectPeerIds then
        [.entry remote addr, .row remote addr now]
      else [.newRow hello.identityPublicKey addr now]
    | _, _ => []
  | .resume index _ now =>
    match process.tasks[index]? with
    | some (.helloFetched _ hello addr nickname) =>
      [.newEntry hello.identityPublicKey nickname addr now,
        .row (derivePeerId P hello.identityPublicKey) addr now]
    | some (.connecting peerId _ endpoint) => [.entry peerId endpoint]
    | some (.ackSaved keys addr) => [.row keys.remotePeerId addr now]
    | some (.ackRemembered keys addr) => [.entry keys.remotePeerId addr]
    | _ => []
  | .connect peerId endpoint _ now =>
    process.node.connectWrites peerId endpoint now
  | .retry .. | .disconnect .. | .restart .. => []

theorem Node.records_registerSession {node node' : Node P}
    {keys : SessionKeys} (hreg : node.registerSession keys = .ok node') :
    node'.records = node.records := by
  obtain ⟨_, -, rfl⟩ := registerSession_eq_ok hreg
  rfl

theorem Node.records_registerSession_error {node node' : Node P}
    {keys : SessionKeys} {err : PyError}
    (hreg : node.registerSession keys = .error (node', err)) :
    node'.records = node.records := by
  obtain ⟨-, rfl⟩ := registerSession_eq_error hreg
  rfl

theorem Node.records_acceptHello (node : Node P) (packet : Packet)
    (addr : Address) (draw : AckDraw) :
    (node.acceptHello packet addr draw).node.records = node.records := by
  unfold acceptHello
  split
  · rfl
  · rfl
  · split
    · next hreg => exact records_registerSession_error hreg
    · next hreg => exact records_registerSession hreg

theorem Node.records_handleHelloAck (node : Node P) (packet : Packet)
    (addr : Address) :
    (node.handleHelloAck packet addr).node.records = node.records := by
  unfold handleHelloAck
  split
  · rfl
  · simp only
    split
    · rfl
    · split
      · rfl
      · split
        · rfl
        · rfl
        · split
          · next hreg => exact (records_registerSession_error hreg).trans rfl
          · next hreg => exact (records_registerSession hreg).trans rfl

theorem Node.records_retryHello (node : Node P) (peerId : PeerId) (now : ℚ) :
    (node.retryHello peerId now).node.records = node.records := by
  unfold retryHello
  split
  · rfl
  · split_ifs <;> rfl

theorem Node.records_connectToPeer (node : Node P) (peerId : PeerId)
    (endpoint : Address) (draw : HelloDraw) (now : ℚ) :
    (node.connectToPeer peerId endpoint draw now).node.records =
      (node.connectWrites peerId endpoint now).foldl (EndpointWrite.apply P)
        node.records := by
  unfold connectToPeer connectWrites
  cases node.hasSession peerId with
  | true => rfl
  | false =>
    cases node.pendingHello.contains peerId with
    | true | false => rfl

theorem Process.records_handleHello (process : Process P) {packet : Packet}
    (htype : packet.packetType = .hello) (addr : Address) (now : ℚ) :
    (process.node.handleHello packet addr now).node.records =
      (process.writes (.receive packet addr now)).foldl
        (EndpointWrite.apply P) process.node.records := by
  simp only [Process.writes, htype]
  cases hdec : HelloPayload.deserialize packet.payload with
  | error => simp [handleHello, hdec]
  | ok hello =>
    by_cases hguard :
        process.node.helloGuarded (derivePeerId P hello.identityPublicKey)
    · simp [handleHello_guarded addr now hdec hguard, hguard]
    · by_cases hdirect : derivePeerId P hello.identityPublicKey ∈
          process.node.peerTable.getDirectPeerIds
      · rw [handleHello_known addr now hdec hguard hdirect]
        simp only [hguard, hdirect, ↓reduceIte]
        rfl
      · rw [handleHello_unknown addr now hdec hguard hdirect]
        simp only [hguard, hdirect, ↓reduceIte]
        rfl

/-- A stretch changes endpoints exactly by its writes. -/
theorem Process.records_stretch (process : Process P) {event : NodeEvent}
    (hlive : ∀ graceful now, event ≠ .restart graceful now) :
    (process.stretch event).node.records =
      (process.writes event).foldl (EndpointWrite.apply P)
        process.node.records := by
  cases event with
  | receive packet addr now =>
    cases htype : packet.packetType with
    | hello =>
      rw [← process.records_handleHello htype addr now]
      simp only [Process.stretch, htype]
    | helloAck =>
      simp only [Process.stretch, Process.writes, htype]
      exact records_handleHelloAck process.node packet addr
    | _ => simp [Process.stretch, Process.writes, htype]
  | resume index draw =>
    simp only [Process.stretch, Process.writes]
    cases htask : process.tasks[index]? with
    | none => rfl
    | some task =>
      cases task with
      | helloRemembered packet addr =>
        exact records_acceptHello process.node packet addr draw
      | _ => rfl
  | connect peerId endpoint draw now =>
    exact records_connectToPeer process.node peerId endpoint draw now
  | retry peerId now => exact records_retryHello process.node peerId now
  | disconnect => rfl
  | restart graceful now => exact absurd rfl (hlive graceful now)

/-- `stop` leaves the rows of the peers alone. -/
theorem Node.peers_stop (node : Node P) :
    node.stop.peers = node.storage.peers := by
  refine List.foldlRecOn (motive := fun storage : Storage =>
    storage.peers = node.storage.peers) _ _ rfl ?_
  intro storage hpeers session _
  exact hpeers

/-- `BACKOFF_SCHEDULE`, in seconds. -/
def backoffSchedule : List ℚ := [1, 2, 4, 8, 16, 32, 60, 300, 900, 3600, 21600]

/-- `get_backoff` after so many attempts; the last value is the cap. -/
def backoff (attempt : Nat) : ℚ := (backoffSchedule[attempt]?).getD 21600

def Reconnect.getAttemptCount (reconnect : Reconnect) (peerId : PeerId) :
    Nat :=
  ((reconnect.get? peerId).map ReconnectEntry.attempt).getD 0

def Reconnect.recordAttempt (reconnect : Reconnect) (peerId : PeerId)
    (now : ℚ) : Reconnect :=
  let entry := (reconnect.get? peerId).getD ⟨0, now, now⟩
  reconnect.set peerId { entry with
      attempt := entry.attempt + 1
      nextRetry := now + backoff (entry.attempt + 1) }

/-- Who waits for a resolution.  `_reconnect_peer` falls back to the endpoint
it had before. -/
inductive ResolveCaller where
  | reconnect (fallback : Option Address)
  | sendMessage
deriving DecidableEq

/-- What a suspended coroutine does next. -/
inductive EndpointTask where
  /-- `_handle_data` after `update_recv_sequence` -/
  | dataStored (peerId : PeerId) (addr : Address)
  /-- `_handle_data` after `remember_endpoint` -/
  | dataRemembered (peerId : PeerId) (addr : Address)
  /-- `resolve_peer` at its future -/
  | resolving (peerId : PeerId) (future : Nat) (caller : ResolveCaller)
  /-- `_reconnect_peer` after `remember_endpoint` -/
  | resolvedRemembered (peerId : PeerId) (endpoint : Address)
deriving DecidableEq

structure EndpointNode (P : Primitives) where
  process : Process P
  resolver : Resolver
  coroutines : List EndpointTask
  updates : List UpdateTask

/-- What can make the node run.  `sendOffline` is `send_message` to a peer
without a session, once the message is queued; `timeout` ends a
`resolve_peer` without a result; `select` and `write` are the two statements
of an `update_endpoint` task. -/
inductive EndpointNodeEvent where
  | node (event : NodeEvent)
  | receiveData (payload : DataPayload) (addr : Address)
  | receiveUpdate (update : EndpointUpdatePayload)
  | reconnect (peerId : PeerId) (requestId : Random 16) (draw : HelloDraw)
      (now : ℚ)
  | recordAttempt (peerId : PeerId) (now : ℚ)
  | sendOffline (peerId : PeerId) (requestId : Random 16) (draw : HelloDraw)
      (now : ℚ)
  | resume (index : Nat) (draw : HelloDraw) (now : ℚ)
  | timeout (index : Nat) (draw : HelloDraw) (now : ℚ)
  | select (index : Nat)
  | write (index : Nat) (now : ℚ)

/-- The events that handle signed updates: receiving and storing them, and the
restart that loads them. -/
def EndpointNodeEvent.handlesUpdates : EndpointNodeEvent → Bool
  | .node (.restart ..) | .receiveUpdate .. | .select .. | .write .. => true
  | _ => false

namespace EndpointNode

def node (state : EndpointNode P) : Node P := state.process.node

def withNode (state : EndpointNode P) (node : Node P) : EndpointNode P :=
  { state with process := { state.process with node := node } }

/-- `connect_to_peer` as the last thing a coroutine does. -/
def connect (state : EndpointNode P) (peerId : PeerId) (endpoint : Address)
    (draw : HelloDraw) (now : ℚ) : EndpointNode P :=
  { state with
    process := state.process.step (.connect peerId endpoint draw now) }

/-- `resolve_peer` up to its future.  What it sends is left out here. -/
def resolve (state : EndpointNode P) (peerId : PeerId)
    (requestId : Random 16) (caller : ResolveCaller) : EndpointNode P :=
  { state with
    resolver := (state.resolver.request state.node.peerTable peerId requestId).1
    coroutines := state.coroutines ++
      [.resolving peerId state.resolver.futures.length caller] }

/-- `_handle_data` up to its first await. -/
def receiveData (state : EndpointNode P) (payload : DataPayload)
    (addr : Address) : EndpointNode P :=
  match state.node.registry.getBySessionId payload.sessionId with
  | none => state
  | some (ref, session) =>
    match QueueManager.decryptDataPacket P payload session with
    | (.ok (some _), session') =>
      { state.withNode { state.node with
          registry := state.node.registry.update ref session'
          storage := state.node.storage.updateRecvSequence
            session'.sessionId session'.recvSequence } with
        coroutines := state.coroutines ++
          [.dataStored session'.remotePeerId addr] }
    | _ => state

/-- `_handle_endpoint_update` -/
def receiveUpdate (state : EndpointNode P) (update : EndpointUpdatePayload) :
    EndpointNode P :=
  if verifyEndpointSignature P state.node.peerTable update then
    { state.withNode { state.node with
        peerTable := state.node.peerTable.applyEndpointUpdate update
        table_local := state.node.table_local } with
      updates := state.updates ++ [.ofUpdate update]
      resolver := state.resolver.complete update.peerId
        (update.endpointIp, update.endpointPort) }
  else state

def reconnectPeer (state : EndpointNode P) (peerId : PeerId)
    (requestId : Random 16) (draw : HelloDraw) (now : ℚ) : EndpointNode P :=
  if state.node.hasSession peerId then
    state.withNode { state.node with
      reconnect := state.node.reconnect.recordConnect peerId }
  else
    match state.node.peerTable.getEndpoint peerId,
        state.node.reconnect.getAttemptCount peerId with
    | some endpoint, 0 => state.connect peerId endpoint draw now
    | known, _ =>
      (state.withNode { state.node with
        peerStates := (state.node.peerStates.updateState peerId
          .resolving).1 }).resolve peerId requestId (.reconnect known)

/-- The end of `send_message` to a peer without a session. -/
def sendOffline (state : EndpointNode P) (peerId : PeerId)
    (requestId : Random 16) (draw : HelloDraw) (now : ℚ) : EndpointNode P :=
  match state.node.peerTable.getEndpoint peerId with
  | some endpoint => state.connect peerId endpoint draw now
  | none => state.resolve peerId requestId .sendMessage

/-- The caller goes on with the result of `resolve_peer`. -/
def resolved (state : EndpointNode P) (peerId : PeerId) (endpoint : Address)
    (draw : HelloDraw) (now : ℚ) : ResolveCaller → EndpointNode P
  | .reconnect _ =>
    { state.withNode (state.node.rememberEndpoint peerId endpoint now) with
      coroutines := state.coroutines ++ [.resolvedRemembered peerId endpoint] }
  | .sendMessage => state.connect peerId endpoint draw now

/-- The caller goes on without a result. -/
def unresolved (state : EndpointNode P) (peerId : PeerId) (draw : HelloDraw)
    (now : ℚ) : ResolveCaller → EndpointNode P
  | .reconnect (some endpoint) => state.connect peerId endpoint draw now
  | .reconnect none =>
    state.withNode { state.node with
      peerStates := (state.node.peerStates.updateState peerId .failed).1 }
  | .sendMessage => state

/-- The `finally` of `resolve_peer`. -/
def finish (state : EndpointNode P) (peerId : PeerId) : EndpointNode P :=
  { state with resolver := state.resolver.finish peerId }

/-- The next stretch of the coroutine, which is no longer among the suspended
ones; one whose future is not done goes on waiting. -/
def resumeTask (state : EndpointNode P) (draw : HelloDraw) (now : ℚ) :
    EndpointTask → EndpointNode P
  | .dataStored peerId addr =>
    { state.withNode (state.node.rememberEndpoint peerId addr now) with
      coroutines := state.coroutines ++ [.dataRemembered peerId addr] }
  | .dataRemembered peerId addr =>
    state.withNode (state.node.setEndpoint peerId addr)
  | .resolving peerId future caller =>
    match state.resolver.futures[future]? with
    | some (some endpoint) =>
      (state.finish peerId).resolved peerId endpoint draw now caller
    | _ =>
      { state with
        coroutines := state.coroutines ++ [.resolving peerId future caller] }
  | .resolvedRemembered peerId endpoint =>
    (state.withNode (state.node.setEndpoint peerId endpoint)).connect peerId
      endpoint draw now

/-- `wait_for` gives up on the future, unless it is done. -/
def timeoutTask (state : EndpointNode P) (draw : HelloDraw) (now : ℚ)
    (task : EndpointTask) : EndpointNode P :=
  match task with
  | .resolving peerId future caller =>
    match state.resolver.futures[future]? with
    | some none => (state.finish peerId).unresolved peerId draw now caller
    | _ => { state with coroutines := state.coroutines ++ [task] }
  | _ => { state with coroutines := state.coroutines ++ [task] }

/-- Run a coroutine that is taken from the suspended ones. -/
def runTask (state : EndpointNode P) (index : Nat)
    (go : EndpointNode P → EndpointTask → EndpointNode P) : EndpointNode P :=
  match Pool.take? state.coroutines index with
  | none => state
  | some (task, rest) => go { state with coroutines := rest } task

/-- A node on a new database. -/
def fresh (identity : LocalIdentity P) (now : ℚ) : EndpointNode P where
  process := ⟨.start identity .empty now, []⟩
  resolver := .empty
  coroutines := []
  updates := []

/-- The process ends, and a new one starts from the database. -/
def restart (state : EndpointNode P) (graceful : Bool) (now : ℚ) :
    EndpointNode P where
  process := state.process.step (.restart graceful now)
  resolver := .empty
  coroutines := []
  updates := []

def step (state : EndpointNode P) : EndpointNodeEvent → EndpointNode P
  | .node (.restart graceful now) => state.restart graceful now
  | .node event => { state with process := state.process.step event }
  | .receiveData payload addr => state.receiveData payload addr
  | .receiveUpdate update => state.receiveUpdate update
  | .reconnect peerId requestId draw now =>
    state.reconnectPeer peerId requestId draw now
  | .recordAttempt peerId now =>
    state.withNode { state.node with
      reconnect := state.node.reconnect.recordAttempt peerId now }
  | .sendOffline peerId requestId draw now =>
    state.sendOffline peerId requestId draw now
  | .resume index draw now =>
    state.runTask index fun state => state.resumeTask draw now
  | .timeout index draw now =>
    state.runTask index fun state => state.timeoutTask draw now
  | .select index =>
    { state with
      updates := UpdateTask.selectAt state.node.storage.peers state.updates
        index }
  | .write index now =>
    let (rows, updates) := UpdateTask.writeAt state.node.storage.peers
      state.updates index now
    { state.withNode { state.node with
        storage := { state.node.storage with peers := rows } } with
      updates := updates }

def records (state : EndpointNode P) : EndpointRecords := state.node.records

/-- What the caller of `resolve_peer` writes when it has a result. -/
def resolvedWrites (state : EndpointNode P) (peerId : PeerId)
    (endpoint : Address) (now : ℚ) : ResolveCaller → List EndpointWrite
  | .reconnect _ => [.row peerId endpoint now]
  | .sendMessage => state.node.connectWrites peerId endpoint now

/-- What it writes when it has none. -/
def unresolvedWrites (state : EndpointNode P) (peerId : PeerId) (now : ℚ) :
    ResolveCaller → List EndpointWrite
  | .reconnect (some endpoint) => state.node.connectWrites peerId endpoint now
  | .reconnect none => []
  | .sendMessage => []

/-- What a coroutine writes in its next stretch. -/
def taskWrites (state : EndpointNode P) (now : ℚ) :
    EndpointTask → List EndpointWrite
  | .dataStored peerId addr => [.row peerId addr now]
  | .dataRemembered peerId addr => [.entry peerId addr]
  | .resolving peerId future caller =>
    match state.resolver.futures[future]? with
    | some (some endpoint) => state.resolvedWrites peerId endpoint now caller
    | _ => []
  | .resolvedRemembered peerId endpoint =>
    .entry peerId endpoint :: state.node.connectWrites peerId endpoint now

/-- What it writes when its resolution times out. -/
def timeoutWrites (state : EndpointNode P) (now : ℚ) :
    EndpointTask → List EndpointWrite
  | .resolving peerId future caller =>
    match state.resolver.futures[future]? with
    | some none => state.unresolvedWrites peerId now caller
    | _ => []
  | _ => []

/-- The endpoints an event writes that do not come from a signed update. -/
def writes (state : EndpointNode P) : EndpointNodeEvent → List EndpointWrite
  | .node event => state.process.writes event
  | .reconnect peerId _ _ now =>
    if state.node.hasSession peerId then []
    else
      match state.node.peerTable.getEndpoint peerId,
          state.node.reconnect.getAttemptCount peerId with
      | some endpoint, 0 => state.node.connectWrites peerId endpoint now
      | _, _ => []
  | .sendOffline peerId _ _ now =>
    match state.node.peerTable.getEndpoint peerId with
    | some endpoint => state.node.connectWrites peerId endpoint now
    | none => []
  | .resume index _ now =>
    match state.coroutines[index]? with
    | some task => state.taskWrites now task
    | none => []
  | .timeout index _ now =>
    match state.coroutines[index]? with
    | some task => state.timeoutWrites now task
    | none => []
  | .receiveData .. | .receiveUpdate .. | .recordAttempt .. | .select ..
  | .write .. => []

variable (state : EndpointNode P)

variable (peerId : PeerId)

theorem records_connect (endpoint : Address) (draw : HelloDraw) (now : ℚ) :
    (state.connect peerId endpoint draw now).records =
      (state.node.connectWrites peerId endpoint now).foldl
        (EndpointWrite.apply P) state.records :=
  records_connectToPeer state.node peerId endpoint draw now

theorem records_receiveData (payload : DataPayload) (addr : Address) :
    (state.receiveData payload addr).records = state.records := by
  unfold receiveData
  split
  · rfl
  · split <;> rfl

theorem records_reconnectPeer
    (requestId : Random 16) (draw : HelloDraw) (now : ℚ) :
    (state.reconnectPeer peerId requestId draw now).records =
      (state.writes (.reconnect peerId requestId draw now)).foldl
        (EndpointWrite.apply P) state.records := by
  simp only [reconnectPeer, writes]
  split
  · rfl
  · cases state.node.peerTable.getEndpoint peerId with
    | none => rfl
    | some endpoint =>
      cases state.node.reconnect.getAttemptCount peerId with
      | zero => exact state.records_connect peerId endpoint draw now
      | succ => rfl

theorem records_sendOffline
    (requestId : Random 16) (draw : HelloDraw) (now : ℚ) :
    (state.sendOffline peerId requestId draw now).records =
      (state.writes (.sendOffline peerId requestId draw now)).foldl
        (EndpointWrite.apply P) state.records := by
  simp only [sendOffline, writes]
  cases state.node.peerTable.getEndpoint peerId with
  | none => rfl
  | some endpoint => exact state.records_connect peerId endpoint draw now

theorem records_resumeTask (draw : HelloDraw) (now : ℚ) (task : EndpointTask) :
    (state.resumeTask draw now task).records =
      (state.taskWrites now task).foldl (EndpointWrite.apply P)
        state.records := by
  cases task with
  | dataStored | dataRemembered => rfl
  | resolving peerId _ caller =>
    simp only [resumeTask, taskWrites]
    split
    · next endpoint _ =>
      cases caller with
      | reconnect => rfl
      | sendMessage =>
        exact (state.finish peerId).records_connect peerId endpoint draw now
    · rfl
  | resolvedRemembered peerId endpoint =>
    exact (state.withNode (state.node.setEndpoint peerId
      endpoint)).records_connect peerId endpoint draw now

theorem records_timeoutTask (draw : HelloDraw) (now : ℚ) (task : EndpointTask) :
    (state.timeoutTask draw now task).records =
      (state.timeoutWrites now task).foldl (EndpointWrite.apply P)
        state.records := by
  cases task with
  | resolving peerId _ caller =>
    simp only [timeoutTask, timeoutWrites]
    split
    · cases caller with
      | sendMessage => rfl
      | reconnect fallback =>
        cases fallback with
        | none => rfl
        | some endpoint =>
          exact (state.finish peerId).records_connect peerId endpoint draw now
    · rfl
  | _ => rfl

variable (index : Nat)

/-- Taking a coroutine from the suspended ones does not change what it
writes. -/
theorem records_runTask {go : EndpointNode P → EndpointTask → EndpointNode P}
    {written : EndpointNode P → EndpointTask → List EndpointWrite}
    (hgo : ∀ state task, (go state task).records =
      (written state task).foldl (EndpointWrite.apply P) state.records)
    (hsame : ∀ task rest,
      written { state with coroutines := rest } task = written state task) :
    (state.runTask index go).records = (match state.coroutines[index]? with
        | some task => written state task
        | none => []).foldl (EndpointWrite.apply P) state.records := by
  unfold runTask Pool.take?
  cases state.coroutines[index]? with
  | none => rfl
  | some task =>
    simp only [Option.map_some]
    rw [hgo, hsame task]
    rfl

variable {event : EndpointNodeEvent}

/-- Events that do not handle signed updates change endpoints exactly by
their writes. -/
theorem records_step (hother : event.handlesUpdates = false) :
    (state.step event).records =
      (state.writes event).foldl (EndpointWrite.apply P) state.records := by
  cases event with
  | node event =>
    cases event with
    | restart => cases hother
    | _ => exact state.process.records_stretch (by rintro _ _ ⟨⟩)
  | receiveData payload addr => exact state.records_receiveData payload addr
  | reconnect peerId requestId draw now =>
    exact state.records_reconnectPeer peerId requestId draw now
  | recordAttempt => rfl
  | sendOffline peerId requestId draw now =>
    exact state.records_sendOffline peerId requestId draw now
  | resume index draw now =>
    exact state.records_runTask index
      (fun state => state.records_resumeTask draw now) (fun _ _ => rfl)
  | timeout index draw now =>
    exact state.records_runTask index
      (fun state => state.records_timeoutTask draw now) (fun _ _ => rfl)
  | _ => cases hother

def withUpdates (state : EndpointNode P) (updates : List UpdateTask) :
    EndpointNode P :=
  { state with updates := updates }

def withRows (state : EndpointNode P) (rows : PeerRows) : EndpointNode P :=
  state.withNode { state.node with
    storage := { state.node.storage with peers := rows } }

theorem step_select :
    state.step (.select index) =
      state.withUpdates (UpdateTask.selectAt state.node.storage.peers
        state.updates index) := rfl

theorem step_write (now : ℚ) :
    state.step (.write index now) =
      let after := UpdateTask.writeAt state.node.storage.peers state.updates
        index now
      (state.withRows after.1).withUpdates after.2 := rfl

/-- Events that do not handle signed updates neither see nor move the
tasks. -/
theorem step_withUpdates (updates : List UpdateTask)
    (hother : event.handlesUpdates = false) :
    (state.withUpdates updates).step event =
      (state.step event).withUpdates updates := by
  cases event with
  | node event =>
    cases event with
    | restart => cases hother
    | _ => rfl
  | receiveData =>
    simp only [step, receiveData, withUpdates, node]
    split
    · rfl
    · split <;> rfl
  | reconnect peerId =>
    have hnode : (state.withUpdates updates).node = state.node := rfl
    simp only [step, reconnectPeer, hnode]
    split
    · rfl
    · cases state.node.peerTable.getEndpoint peerId with
      | none => rfl
      | some =>
        cases state.node.reconnect.getAttemptCount peerId <;> rfl
  | recordAttempt => rfl
  | sendOffline =>
    simp only [step, sendOffline, withUpdates, node]
    split <;> rfl
  | resume =>
    simp only [step, runTask, withUpdates]
    split
    · rfl
    · next task rest htake =>
      cases task with
      | resolving _ _ caller =>
        simp only [resumeTask]
        split
        · cases caller <;> rfl
        · rfl
      | _ => rfl
  | timeout =>
    simp only [step, runTask, withUpdates]
    split
    · rfl
    · next task rest htake =>
      cases task with
      | resolving _ _ caller =>
        simp only [timeoutTask]
        split
        · cases caller with
          | sendMessage => rfl
          | reconnect fallback => cases fallback <;> rfl
        · rfl
      | _ => rfl
  | _ => cases hother

theorem updates_step (hother : event.handlesUpdates = false) :
    (state.step event).updates = state.updates := by
  have hsame : state.step event =
      (state.step event).withUpdates state.updates :=
    state.step_withUpdates state.updates hother
  rw [hsame]
  rfl

/-- `stop` and `start` leave the rows of the peers alone, and the table is
loaded from them. -/
theorem records_restart (graceful : Bool) (now : ℚ) :
    (state.restart graceful now).records =
      ⟨PeerTable.load state.node.identity.peerId state.records.rows now,
        state.records.rows⟩ := by
  cases graceful with
  | false => rfl
  | true =>
    have hrecords : (state.restart true now).records =
        ⟨PeerTable.load state.node.identity.peerId state.node.stop.peers now,
          state.node.stop.peers⟩ := rfl
    rw [hrecords, state.node.peers_stop]
    rfl

end EndpointNode

namespace EndpointNodeWitness

open Reference

def self : LocalIdentity primitives := .ofPrivateKey _ (constant 32 2).val

def peer : LocalIdentity primitives := .ofPrivateKey _ (constant 32 1).val

def home : Address := ("10.0.0.1", 9000)

def elsewhere : Address := ("10.6.6.6", 9000)

def draw : HelloDraw where
  ephemeral := constant 32 3
  nonce := constant 16 4

def ackDraw : AckDraw where
  ephemeral := constant 32 5
  nonce := constant 16 6
  sessionId := constant 8 7

def hello : Packet := (createHello peer draw).1

/-- What the peer signs about an address. -/
def signed (address : Address) (version : Nat) : EndpointUpdatePayload where
  peerId := peer.peerId
  endpointIp := address.1
  endpointPort := address.2
  versionCounter := version
  signature := peer.sign (endpointSignedData address.1
    (UInt16.ofNat address.2) (UInt64.ofNat version))

/-- The peer introduces itself, and its second signed update is stored. -/
def introduced : List EndpointNodeEvent :=
  [.node (.receive hello home 0), .node (.resume 0 ackDraw 0),
    .node (.resume 0 ackDraw 0), .receiveUpdate (signed home 2), .select 0,
    .write 0 0]

end EndpointNodeWitness

end AshiChat
