/-
The messaging side of a node (`node.py`): `send_message`, the queue flush at
the end of a handshake, the retry loop with its two callbacks, and the
handlers of DATA, ACK, APP_ACK and SYNC, all on one queue and one database
connection.  A coroutine is cut at the awaits that really suspend it.  A
database write suspends it twice, for the statement and for the commit, and
the event loop resumes it some time after the connection has executed what it
waits for.  The handshakes themselves are in `Node`; here they begin where
they register a session.
-/
import AshiChat.Endpoint
import AshiChat.Peers
import AshiChat.Wire
import AshiChat.Kit.Connection

namespace AshiChat

open QueueManager

/-- The text of an enumeration value. -/
def MessageStatus.text : MessageStatus → String
  | .queued => "queued"
  | .pending => "pending"
  | .delivered => "delivered"
  | .acknowledged => "acknowledged"
  | .failed => "failed"

@[simp] theorem MessageStatus.ofText_text (status : MessageStatus) :
    MessageStatus.ofText status.text = some status := by
  cases status <;> rfl

/-- A row of `message_queue`, under its `message_id`. -/
structure MessageRecord where
  receiver : PeerId
  status : String
  retryCount : Nat
  sequenceNumber : Option Nat
deriving DecidableEq

structure Tables where
  sessions : OrderedDict Bytes SessionRecord
  messages : OrderedDict MessageId MessageRecord

/-- The statements of the storage calls; `remember_endpoint` writes to neither
of the two tables. -/
inductive Statement where
  | enqueueMessage (messageId : MessageId) (receiver : PeerId)
  | updateMessageSequence (messageId : MessageId) (seq : Nat)
  | updateMessageStatus (messageId : MessageId) (status : String)
  | saveSessionState (session : Session)
  | updateSendSequence (sessionId : Bytes) (seq : Nat)
  | updateRecvSequence (sessionId : Bytes) (seq : Nat)
  | rememberEndpoint
deriving DecidableEq

namespace Tables

def empty : Tables := ⟨.empty, .empty⟩

/-- `UPDATE message_queue SET … WHERE message_id = ?` -/
def modifyMessage (tables : Tables) (messageId : MessageId)
    (change : MessageRecord → MessageRecord) : Tables :=
  { tables with messages := tables.messages.modify messageId change }

/-- `UPDATE sessions SET … WHERE session_id = ?` -/
def modifySession (tables : Tables) (sessionId : Bytes)
    (change : SessionRecord → SessionRecord) : Tables :=
  { tables with sessions := tables.sessions.modify sessionId change }

def apply (tables : Tables) : Statement → Tables
  | .enqueueMessage messageId receiver =>
    { tables with
      messages := tables.messages.set messageId
        ⟨receiver, "queued", 0, none⟩ }
  | .updateMessageSequence messageId seq =>
    tables.modifyMessage messageId
      (fun row => { row with sequenceNumber := some seq })
  | .updateMessageStatus messageId status =>
    tables.modifyMessage messageId (fun row => { row with status := status })
  | .saveSessionState session =>
    { tables with
      sessions := tables.sessions.set session.sessionId
        ⟨session.remotePeerId, session.sendSequence, session.recvSequence⟩ }
  | .updateSendSequence sessionId seq =>
    tables.modifySession sessionId (fun row => { row with sendSequence := seq })
  | .updateRecvSequence sessionId seq =>
    tables.modifySession sessionId (fun row => { row with recvSequence := seq })
  | .rememberEndpoint => tables

end Tables

/-- Who sends a built packet, and what it does next. -/
inductive DispatchCaller where
  | send (peerId : PeerId)
  | flush (peerId : PeerId) (ref : Nat) (endpoint : Address)
      (rest : List MessageId)
  | retry (peerId : PeerId) (endpoint : Address) (rest : List MessageId)
deriving DecidableEq

/-- The peer the packet goes to. -/
def DispatchCaller.peerId : DispatchCaller → PeerId
  | .send peerId | .flush peerId .. | .retry peerId .. => peerId

/-- A packet that is built and not yet handed to the transport. -/
structure Dispatch where
  messageId : MessageId
  sessionId : Bytes
  seq : Nat
  packet : Packet
  caller : DispatchCaller
deriving DecidableEq

/-- What a coroutine does after the await it is at. -/
inductive Work where
  /-- `send_message` after `enqueue_message`, with the session it found first. -/
  | enqueued (peerId : PeerId) (messageId : MessageId) (session : Option Nat)
  /-- after `update_send_sequence` -/
  | sequenceStored (dispatch : Dispatch)
  /-- after `update_message_sequence` -/
  | numberStored (dispatch : Dispatch)
  /-- after `update_message_status` to pending -/
  | statusStored (dispatch : Dispatch)
  /-- the retry loop after `_on_message_failed` -/
  | failureStored (rest : List MessageId)
  /-- a handler that has nothing left to do -/
  | receiptStored
  /-- `_handle_data` after `update_recv_sequence` -/
  | received (sessionId : Bytes) (seq : Nat)
  /-- `_handle_hello` after `save_session_state` -/
  | helloSaved (peerId : PeerId)
  /-- `_handle_hello_ack` after `save_session_state` -/
  | ackSaved (peerId : PeerId) (addr : Address)
  /-- `_handle_hello_ack` after `remember_endpoint` -/
  | ackRemembered (peerId : PeerId) (addr : Address)
  /-- either of them after `start_heartbeat` -/
  | heartbeat (peerId : PeerId)
deriving DecidableEq

/-- What a coroutine waits for. -/
inductive Await where
  | executing (ticket : Nat)
  | committing (ticket : Nat)
  | free
deriving DecidableEq

structure MessagingTask where
  await : Await
  work : Work
deriving DecidableEq

/-- The retry loop is in the middle of a pass. -/
def Work.ofRetry : Work → Bool
  | .sequenceStored dispatch | .numberStored dispatch
  | .statusStored dispatch =>
    match dispatch.caller with
    | .retry .. => true
    | _ => false
  | .failureStored _ => true
  | _ => false

/-- Queue, sessions, endpoints and database of a node, and its suspended
coroutines.  `sent` and `acked` record the DATA packets and ACKs that the
transport has taken, `raised` the peers whose coroutines have raised. -/
structure Messaging where
  queue : QueueManager := .empty
  registry : SessionRegistry := .empty
  floors : SequenceFloors := .empty
  endpoints : OrderedDict PeerId Address := .empty
  outbox : OrderedDict MessageId Bytes := .empty
  db : Connection Tables Statement := .opened .empty
  tasks : List MessagingTask := []
  sent : List (Bytes × Nat) := []
  acked : List (Bytes × Nat) := []
  raised : List PeerId := []

/-- How an uninterrupted stretch ends: the coroutine returns, writes to the
database, waits for something else, or raises. -/
inductive Next where
  | done
  | write (statement : Statement) (work : Work)
  | pause (work : Work)
  | raised (peerId : PeerId)

structure Stretch where
  node : Messaging
  next : Next

/-- What `build_data_packet` gave. -/
inductive BuildResult where
  | nothing
  | error
  | started (statement : Statement) (work : Work)

namespace Messaging

variable (P : Primitives)

/-- The tables once everything issued is executed. -/
def stored (node : Messaging) : Tables := node.db.issued Tables.apply

/-- `build_data_packet`, followed by the call of `update_send_sequence` with
the counter as it is now. -/
def build (node : Messaging) (messageId : MessageId) (ref : Nat) (now : ℚ)
    (caller : DispatchCaller) : Messaging × BuildResult :=
  match node.registry.objects[ref]? with
  | none => (node, .nothing)
  | some session =>
    let outcome := buildDataPacket P node.queue messageId session now
    let node' := { node with
      queue := outcome.queue
      registry := node.registry.update ref outcome.session }
    match outcome.result with
    | .error _ => (node', .error)
    | .ok none => (node', .nothing)
    | .ok (some built) =>
      (node', .started (.updateSendSequence session.sessionId
          outcome.session.sendSequence)
        (.sequenceStored ⟨messageId, session.sessionId,
          built.sequenceNumber, built.packet, caller⟩))

/-- The loop of `_flush_queued_for_peer` up to its next await. -/
def flushWalk (peerId : PeerId) (ref : Nat) (endpoint : Address) (now : ℚ) :
    Messaging → List MessageId → Stretch
  | node, [] => ⟨node, .done⟩
  | node, messageId :: rest =>
    match node.build P messageId ref now (.flush peerId ref endpoint rest) with
    | (node', .nothing) => flushWalk peerId ref endpoint now node' rest
    | (node', .error) => ⟨node', .raised peerId⟩
    | (node', .started statement work) => ⟨node', .write statement work⟩

/-- `_flush_queued_for_peer` -/
def flushQueued (node : Messaging) (peerId : PeerId) (now : ℚ) : Stretch :=
  match node.registry.getByPeerId peerId, node.endpoints.get? peerId with
  | some (ref, _), some endpoint =>
    flushWalk P peerId ref endpoint now node
      (node.queue.getQueuedForPeer peerId)
  | _, _ => ⟨node, .done⟩

/-- A coroutine that works for the peer raises. -/
def raise (node : Messaging) (peerId : PeerId) : Messaging :=
  { node with raised := node.raised ++ [peerId] }

/-- `handle_timeout` -/
def timeout (node : Messaging) (messageId : MessageId) : Messaging :=
  { node with queue := (node.queue.handleTimeout messageId).1 }

/-- The walk of `_retry_loop` over its list up to its next await.  The loop
swallows what its callbacks raise. -/
def retryWalk (now : ℚ) : Messaging → List MessageId → Stretch
  | node, [] => ⟨node, .done⟩
  | node, messageId :: rest =>
    match OrderedDict.get? (node.timeout messageId).queue messageId with
    | none => retryWalk now (node.timeout messageId) rest
    | some entry =>
      match (node.queue.handleTimeout messageId).2 with
      | .failed =>
        ⟨node.timeout messageId,
          .write (.updateMessageStatus messageId "failed")
            (.failureStored rest)⟩
      | .queued =>
        match node.registry.getByPeerId entry.receiver,
            node.endpoints.get? entry.receiver with
        | some (ref, _), some endpoint =>
          match (node.timeout messageId).build P messageId ref now
              (.retry entry.receiver endpoint rest) with
          | (node', .nothing) => retryWalk now node' rest
          | (node', .error) => retryWalk now (node'.raise entry.receiver) rest
          | (node', .started statement work) => ⟨node', .write statement work⟩
        | _, _ => retryWalk now (node.timeout messageId) rest
      | _ => retryWalk now (node.timeout messageId) rest

/-- `_send_to` of a built packet. -/
def handOver (node : Messaging) (dispatch : Dispatch) : Messaging := { node with
    sent := node.sent ++ [(dispatch.sessionId, dispatch.seq)] }

/-- What follows the three writes.  `send_message` looks the endpoint up only
now.  The transport serialises the packet, and raises if its length does not
fit the header. -/
def afterDispatch (node : Messaging) (dispatch : Dispatch) (now : ℚ) :
    Stretch :=
  match dispatch.caller, dispatch.packet.serialize with
  | .send peerId, .ok _ =>
    if node.endpoints.contains peerId then ⟨node.handOver dispatch, .done⟩
    else ⟨node, .done⟩
  | .send peerId, .error _ =>
    if node.endpoints.contains peerId then ⟨node, .raised peerId⟩
    else ⟨node, .done⟩
  | .flush peerId ref endpoint rest, .ok _ =>
    flushWalk P peerId ref endpoint now (node.handOver dispatch) rest
  | .flush peerId _ _ _, .error _ => ⟨node, .raised peerId⟩
  | .retry _ _ rest, .ok _ => retryWalk P now (node.handOver dispatch) rest
  | .retry peerId _ rest, .error _ => retryWalk P now (node.raise peerId) rest

/-- The next stretch of a coroutine. -/
def resumeWork (node : Messaging) (now : ℚ) : Work → Stretch
  | .enqueued _ _ none => ⟨node, .done⟩
  | .enqueued peerId messageId (some ref) =>
    match node.build P messageId ref now (.send peerId) with
    | (node', .nothing) => ⟨node', .done⟩
    | (node', .error) => ⟨node', .raised peerId⟩
    | (node', .started statement work) => ⟨node', .write statement work⟩
  | .sequenceStored dispatch =>
    ⟨node, .write (.updateMessageSequence dispatch.messageId dispatch.seq)
      (.numberStored dispatch)⟩
  | .numberStored dispatch =>
    ⟨node, .write (.updateMessageStatus dispatch.messageId "pending")
      (.statusStored dispatch)⟩
  | .statusStored dispatch => node.afterDispatch P dispatch now
  | .failureStored rest => retryWalk P now node rest
  | .receiptStored => ⟨node, .done⟩
  | .received sessionId seq =>
    ⟨{ node with acked := node.acked ++ [(sessionId, seq)] }, .done⟩
  | .helloSaved peerId => ⟨node, .pause (.heartbeat peerId)⟩
  | .ackSaved peerId addr =>
    ⟨node, .write .rememberEndpoint (.ackRemembered peerId addr)⟩
  | .ackRemembered peerId addr =>
    ⟨{ node with endpoints := node.endpoints.set peerId addr },
      .pause (.heartbeat peerId)⟩
  | .heartbeat peerId => node.flushQueued P peerId now

end Messaging

/-- The end of a stretch: a write is issued at once. -/
def Stretch.settle (stretch : Stretch) : Messaging :=
  match stretch.next with
  | .done => stretch.node
  | .write statement work =>
    { stretch.node with
      db := stretch.node.db.issue (.statement statement)
      tasks := stretch.node.tasks ++
        [⟨.executing stretch.node.db.ops.length, work⟩] }
  | .pause work =>
    { stretch.node with tasks := stretch.node.tasks ++ [⟨.free, work⟩] }
  | .raised peerId => stretch.node.raise peerId

/-- What starts a coroutine or changes the node between two awaits.  The
handshake handlers begin with the keys they derived; other code sets
endpoints, and `stop` saves the sessions. -/
inductive MessagingCall where
  | sendMessage (peerId : PeerId) (messageId : MessageId) (plaintext : Bytes)
  | handleHello (keys : SessionKeys)
  | handleHelloAck (keys : SessionKeys) (addr : Address)
  | handleData (payload : DataPayload)
  | handleAck (ack : AckPayload)
  | handleAppAck (ack : AppAckPayload)
  | handleSync (sync : SyncPayload) (now : ℚ)
  | retryPass (now : ℚ)
  | handlePeerDisconnect (peerId : PeerId)
  | setEndpoint (peerId : PeerId) (addr : Address)
  | saveSession (ref : Nat)
deriving DecidableEq

/-- The event loop calls or resumes, the connection works, or the process
dies and a new one starts with the peers it reads. -/
inductive MessagingEvent where
  | call (call : MessagingCall)
  | resume (index : Nat) (now : ℚ)
  | execute
  | restart (endpoints : OrderedDict PeerId Address) (known : PeerId → Bool)

namespace Messaging

variable (P : Primitives)

/-- An id that `uuid4` has drawn before. -/
def drawn (node : Messaging) (messageId : MessageId) : Bool :=
  node.queue.contains messageId ||
    node.outbox.contains messageId || node.stored.messages.contains messageId

/-- The end of both handshake handlers, from the `Session` object on. -/
def registerSession (node : Messaging) (keys : SessionKeys) (work : Work) :
    Stretch :=
  let (session, floors) := applySequenceFloors node.floors (Session.ofKeys keys)
  match node.registry.register session with
  | .error _ => ⟨{ node with floors := floors }, .raised keys.remotePeerId⟩
  | .ok registry =>
    ⟨{ node with floors := floors, registry := registry },
      .write (.saveSessionState session) work⟩

/-- The first stretch of a call.  Message ids are random and do not repeat; the
retry loop is one coroutine. -/
def handle (node : Messaging) : MessagingCall → Stretch
  | .sendMessage peerId messageId plaintext =>
    if node.drawn messageId then ⟨node, .done⟩
    else
      ⟨{ node with
          queue := node.queue.enqueue messageId peerId plaintext
          outbox := node.outbox.set messageId plaintext },
        .write (.enqueueMessage messageId peerId) (.enqueued peerId messageId
            ((node.registry.getByPeerId peerId).map Prod.fst))⟩
  | .handleHello keys =>
    -- The handler has put the source address into the peer table.
    if !node.endpoints.contains keys.remotePeerId then ⟨node, .done⟩
    else node.registerSession keys (.helloSaved keys.remotePeerId)
  | .handleHelloAck keys addr =>
    node.registerSession keys (.ackSaved keys.remotePeerId addr)
  | .handleData payload =>
    match node.registry.getBySessionId payload.sessionId with
    | none => ⟨node, .done⟩
    | some (ref, session) =>
      match decryptDataPacket P payload session with
      | (.ok (some _), session') =>
        ⟨{ node with registry := node.registry.update ref session' },
          .write (.updateRecvSequence session'.sessionId session'.recvSequence)
            (.received payload.sessionId payload.sequenceNumber)⟩
      | _ => ⟨node, .done⟩
  | .handleAck ack =>
    match node.queue.handleAck ack with
    | (queue, some messageId) =>
      ⟨{ node with queue := queue },
        .write (.updateMessageStatus messageId "delivered")
          .receiptStored⟩
    | (_, none) => ⟨node, .done⟩
  | .handleAppAck ack =>
    match node.registry.getBySessionId ack.sessionId with
    | none => ⟨node, .done⟩
    | some (_, session) =>
      match node.queue.acknowledgeBySequence session.remotePeerId
          ack.ackSequenceNumber with
      | (queue, some messageId) =>
        ⟨{ node with queue := queue },
          .write (.updateMessageStatus messageId "acknowledged")
            .receiptStored⟩
      | (_, none) => ⟨node, .done⟩
  | .handleSync sync now =>
    match node.registry.getBySessionId sync.sessionId with
    | none => ⟨node, .done⟩
    | some (_, session) =>
      ⟨{ node with
        queue := (resendMissed P session sync.sequenceNumber now
          node.queue node.queue.entries).queue }, .done⟩
  | .retryPass now =>
    if node.tasks.any (·.work.ofRetry) then ⟨node, .done⟩
    else retryWalk P now node (node.queue.getTimedOutMessages now)
  | .handlePeerDisconnect peerId =>
    match node.registry.getByPeerId peerId with
    | none => ⟨node, .done⟩
    | some (_, session) =>
      ⟨{ node with registry := node.registry.remove session.sessionId }, .done⟩
  | .setEndpoint peerId addr =>
    ⟨{ node with endpoints := node.endpoints.set peerId addr }, .done⟩
  | .saveSession ref =>
    match node.registry.objects[ref]? with
    | none => ⟨node, .done⟩
    | some session => ⟨node, .write (.saveSessionState session) .receiptStored⟩

/-- The event loop resumes the coroutine at `index`, if what it waits for is
done.  After a statement comes the commit of the same storage call. -/
def resume (node : Messaging) (index : Nat) (now : ℚ) : Messaging :=
  match node.tasks[index]? with
  | none => node
  | some task =>
    let rest := { node with tasks := node.tasks.eraseIdx index }
    match task.await with
    | .executing ticket =>
      if ticket < node.db.executed then
        { node with
          db := node.db.issue .commit
          tasks := node.tasks.set index
            ⟨.committing node.db.ops.length, task.work⟩ }
      else node
    | .committing ticket =>
      if ticket < node.db.executed then
        (rest.resumeWork P now task.work).settle
      else node
    | .free => (rest.resumeWork P now task.work).settle

/-- The statuses `load_all_queued_messages` selects. -/
def loadedStatuses : List String :=
  ["queued", "pending", "delivered", "acknowledged"]

/-- What `start` does with one row: restore it, or mark it failed if its
message is lost. -/
def restoreRow (outbox : OrderedDict MessageId Bytes)
    (state : QueueManager × Tables) (row : MessageId × MessageRecord) :
    QueueManager × Tables :=
  if row.2.status ∈ loadedStatuses then
    let plaintext := (outbox.get? row.1).getD []
    if plaintext = [] then
      (state.1, state.2.apply (.updateMessageStatus row.1 "failed"))
    else
      (state.1.restoreEntry row.1 row.2.receiver row.2.status
        row.2.retryCount plaintext row.2.sequenceNumber, state.2)
  else state

/-- The queue `start` restores, and the tables it leaves. -/
def restore (outbox : OrderedDict MessageId Bytes) (tables : Tables) :
    QueueManager × Tables :=
  tables.messages.entries.foldl (restoreRow outbox) (.empty, tables)

/-- A new process on the same files. -/
def restart (node : Messaging) (endpoints : OrderedDict PeerId Address)
    (known : PeerId → Bool) : Messaging :=
  let tables := node.db.durable Tables.apply
  { queue := (restore node.outbox tables).1
    floors := { Storage.empty with
      sessions := tables.sessions }.sequenceFloors known
    endpoints := endpoints
    outbox := node.outbox
    db := .opened (restore node.outbox tables).2
    sent := node.sent
    acked := node.acked }

def step (node : Messaging) : MessagingEvent → Messaging
  | .call call => (node.handle P call).settle
  | .resume index now => node.resume P index now
  | .execute => { node with db := node.db.execute }
  | .restart endpoints known => node.restart endpoints known

end Messaging

end AshiChat
