/-
A whole node: its contacts, its messages and its heartbeats.  The messaging
calls are those of `Messaging`, run on the session registry, the endpoints and
the tables of the contacts; the heartbeat loops (`heartbeat.py`) send PINGs and
start the tasks that suspect or disconnect a peer.  A coroutine is cut at its
storage calls, which take effect in the order in which they are issued.
`transmits` lists the HELLO, DATA and PING packets an event hands to the
transport, each with the peer on whose account it is sent; the PINGs are those
of the heartbeat and of the bursts that punch a hole (`nat.py`).
-/
import AshiChat.ContactEvents
import AshiChat.MessagingMoves

namespace AshiChat

variable {P : Primitives}

/-- The endpoints in the peer table, as the messaging calls look them up. -/
def PeerTable.endpoints (table : PeerTable) : OrderedDict PeerId Address :=
  table.peers.entries.foldl (fun endpoints binding =>
      match binding.2.endpoint with
      | some addr => endpoints.set binding.1 addr
      | none => endpoints)
    .empty

/-- A `_heartbeat_loop`: whether it waits for a PONG or sleeps before its next
PING, and how many it has missed in a row. -/
structure HeartbeatLoop where
  waiting : Bool
  missed : Nat
deriving DecidableEq

/-- A task that the loop starts. -/
inductive HeartbeatCallback where
  | suspect (peerId : PeerId)
  | disconnect (peerId : PeerId)
deriving DecidableEq

def HeartbeatCallback.event (now : ℚ) : HeartbeatCallback → ContactEvent
  | .suspect peerId => .suspect peerId
  | .disconnect peerId => .endpoint (.node (.disconnect peerId now))

/-- The peer whose heartbeat the handshake coroutine starts. -/
def Task.starts : Task → Option PeerId
  | .helloSaved keys _ | .ackRemembered keys _ => some keys.remotePeerId
  | _ => none

def burstCount : Nat := 15

/-- A `punch_hole` task and the PINGs it has left.  Nothing ever sets its
`response_event`, so that it sends them all. -/
structure Punch where
  peerId : PeerId
  endpoint : Address
  left : Nat
deriving DecidableEq

/-- A task sends its next PING and goes on if there are more. -/
def Punch.send (punches : List Punch) (index : Nat) : List Punch :=
  match Pool.take? punches index with
  | none => punches
  | some (punch, rest) =>
    if punch.left ≤ 1 then rest
    else rest ++ [{ punch with left := punch.left - 1 }]

/-- The burst that `connect_to_peer` starts before its HELLO. -/
def Task.punch? : Task → Option Punch
  | .connecting peerId _ endpoint => some ⟨peerId, endpoint, burstCount⟩
  | _ => none

structure ChatNode (P : Primitives) where
  contacts : ContactNode P
  queue : QueueManager
  messages : OrderedDict MessageId MessageRecord
  outbox : OrderedDict MessageId Bytes
  works : List Work
  loops : OrderedDict PeerId HeartbeatLoop
  pendingPings : OrderedDict PeerId Bytes
  callbacks : List HeartbeatCallback
  punches : List Punch

/-- What can make the node run.  `resume` goes on with a messaging coroutine,
`heartbeat` with the loop of a peer, `callback` with a task it has started,
`punch` with a burst. -/
inductive ChatEvent where
  | contact (event : ContactEvent)
  | sendMessage (peerId : PeerId) (messageId : MessageId) (plaintext : Bytes)
  | handleAck (ack : AckPayload)
  | handleAppAck (ack : AppAckPayload)
  | handleSync (sync : SyncPayload) (addr : Address) (now : ℚ)
  | retryPass (now : ℚ)
  | resume (index : Nat) (requestId : Random 16) (draw : HelloDraw) (now : ℚ)
  | heartbeat (peerId : PeerId) (pingId : Bytes)
  | handlePong (pingId : Bytes)
  | callback (index : Nat) (now : ℚ)
  | punch (index : Nat)

/-- Calls that only the node's own coroutines make. -/
def ContactEvent.internal : ContactEvent → Bool
  | .endpoint (.node (.connect ..)) | .endpoint (.node (.disconnect ..))
  | .endpoint (.sendOffline ..) | .suspect _ => true
  | _ => false

/-- A packet handed to the transport, with the peer on whose account it is
sent. -/
inductive Transmission where
  | hello (peerId : PeerId) (addr : Address)
  | data (peerId : PeerId) (messageId : MessageId) (addr : Address)
  | ping (peerId : PeerId) (addr : Address)
deriving DecidableEq

def Transmission.peer : Transmission → PeerId
  | .hello peerId _ | .data peerId _ _ | .ping peerId _ => peerId

/-- The receiver of a message in the queue. -/
def QueueManager.receiverOf (queue : QueueManager) (messageId : MessageId) :
    Option PeerId :=
  (queue.get? messageId).map QueueEntry.receiver

namespace ChatNode

def node (state : ChatNode P) : Node P := state.contacts.node

/-- A process that has just loaded its messages. -/
def load (contacts : ContactNode P)
    (messages : OrderedDict MessageId MessageRecord)
    (outbox : OrderedDict MessageId Bytes) : ChatNode P :=
  let restored := Messaging.restore outbox ⟨.empty, messages⟩
  { contacts := contacts
    queue := restored.1
    messages := restored.2.messages
    outbox := outbox
    works := []
    loops := .empty
    pendingPings := .empty
    callbacks := []
    punches := [] }

/-- A node started on its database and its outbox. -/
def start (identity : LocalIdentity P) (storage : Storage)
    (messages : OrderedDict MessageId MessageRecord)
    (outbox : OrderedDict MessageId Bytes) (now : ℚ) : ChatNode P :=
  load (.start identity storage now) messages outbox

/-- The tables the messaging calls write to. -/
def tables (state : ChatNode P) : Tables :=
  ⟨state.node.storage.sessions, state.messages⟩

/-- The node as the messaging calls see it. -/
def view (state : ChatNode P) : Messaging where
  queue := state.queue
  registry := state.node.registry
  endpoints := state.node.peerTable.endpoints
  outbox := state.outbox
  db := .opened state.tables
  tasks := state.works.map fun work => ⟨.free, work⟩

/-- The tables after the storage call a stretch ends with. -/
def tablesAfter (state : ChatNode P) : Next → Tables
  | .write statement _ => state.tables.apply statement
  | _ => state.tables

/-- The end of a stretch of messaging. -/
def settle (state : ChatNode P) (stretch : Stretch) : ChatNode P :=
  let tables := state.tablesAfter stretch.next
  { state with
    contacts := state.contacts.withNode { state.node with
      registry := stretch.node.registry
      storage := { state.node.storage with sessions := tables.sessions } }
    queue := stretch.node.queue
    messages := tables.messages
    outbox := stretch.node.outbox
    works := state.works ++ stretch.next.works }

def call (state : ChatNode P) (call : MessagingCall) : ChatNode P :=
  state.settle (state.view.handle P call)

/-- The next stretch of a coroutine that is no longer among the suspended
ones.  Without a session `send_message` ends with an attempt to connect. -/
def resumeWork (state : ChatNode P) (requestId : Random 16) (draw : HelloDraw)
    (now : ℚ) : Work → ChatNode P
  | .enqueued peerId _ none =>
    { state with
      contacts := state.contacts.step
        (.endpoint (.sendOffline peerId requestId draw now)) }
  | .heartbeat peerId =>
    { state with loops := state.loops.set peerId ⟨false, 0⟩ }.settle
      (state.view.resumeWork P now (.heartbeat peerId))
  | work => state.settle (state.view.resumeWork P now work)

/-- `remove_peer` of a peer's messages: the files of its queue entries, and
its rows. -/
def forget (state : ChatNode P) (peerId : PeerId) : ChatNode P := { state with
    outbox := (state.queue.entries.filter
      (fun binding => binding.2.receiver = peerId)).foldl
        (fun outbox binding => outbox.erase binding.1) state.outbox
    messages := (state.messages.entries.filter
      (fun binding => binding.2.receiver = peerId)).foldl
        (fun messages binding => messages.erase binding.1) state.messages }

/-- `start_heartbeat` up to its await: the old loop is cancelled. -/
def stopHeartbeat (state : ChatNode P) (peerId : PeerId) : ChatNode P :=
  { state with
    loops := state.loops.erase peerId
    works := state.works ++ [.heartbeat peerId] }

def stepContact (state : ChatNode P) (event : ContactEvent) : ChatNode P :=
  let next := { state with contacts := state.contacts.step event }
  match event with
  | .endpoint (.node (.restart ..)) =>
    load next.contacts state.messages state.outbox
  | .removePeer peerId => next.forget peerId
  | _ =>
    match (state.contacts.task? event).bind Task.starts with
    | some peerId => next.stopHeartbeat peerId
    | none =>
      { next with
        punches := state.punches ++
          ((state.contacts.task? event).bind Task.punch?).toList }

/-- The loop of a peer wakes up. -/
def beat (state : ChatNode P) (peerId : PeerId) (pingId : Bytes) : ChatNode P :=
  match state.loops.get? peerId with
  | none => state
  | some ⟨false, missed⟩ =>
    if state.node.heartbeat.contains peerId then
      { state with
        pendingPings := state.pendingPings.set peerId pingId
        loops := state.loops.set peerId ⟨true, missed⟩ }
    else { state with loops := state.loops.erase peerId }
  | some ⟨true, missed⟩ =>
    if state.pendingPings.contains peerId then
      let state := { state with
        pendingPings := state.pendingPings.erase peerId }
      if 6 ≤ missed + 1 then
        { state with
          loops := state.loops.erase peerId
          callbacks := state.callbacks ++ [.disconnect peerId] }
      else
        { state with
          loops := state.loops.set peerId ⟨false, missed + 1⟩
          callbacks := state.callbacks ++
            if 3 ≤ missed + 1 then [.suspect peerId] else [] }
    else { state with loops := state.loops.set peerId ⟨false, 0⟩ }

/-- `handle_pong`: the first pending PING with the id is answered. -/
def handlePong (state : ChatNode P) (pingId : Bytes) : ChatNode P :=
  match state.pendingPings.first? fun _ pending => pending == pingId with
  | none => state
  | some (peerId, _) =>
    { state with pendingPings := state.pendingPings.erase peerId }

def step (state : ChatNode P) : ChatEvent → ChatNode P
  | .contact event => if event.internal then state else state.stepContact event
  | .sendMessage peerId messageId plaintext =>
    state.call (.sendMessage peerId messageId plaintext)
  | .handleAck ack => state.call (.handleAck ack)
  | .handleAppAck ack => state.call (.handleAppAck ack)
  | .handleSync sync _ now => state.call (.handleSync sync now)
  | .retryPass now => state.call (.retryPass now)
  | .resume index requestId draw now =>
    match Pool.take? state.works index with
    | none => state
    | some (work, rest) =>
      { state with works := rest }.resumeWork requestId draw now work
  | .heartbeat peerId pingId => state.beat peerId pingId
  | .handlePong pingId => state.handlePong pingId
  | .callback index now =>
    match Pool.take? state.callbacks index with
    | none => state
    | some (callback, rest) =>
      { state with
        callbacks := rest
        contacts := state.contacts.step (callback.event now) }
  | .punch index => { state with punches := Punch.send state.punches index }

/-- Where a built packet goes.  `send_message` looks the endpoint up last. -/
def address (state : ChatNode P) (dispatch : Dispatch) : Option Address :=
  match dispatch.caller with
  | .send peerId => state.view.endpoints.get? peerId
  | .flush _ _ endpoint _ | .retry _ endpoint _ => some endpoint

/-- The DATA packet at the end of a dispatch. -/
def dispatches (state : ChatNode P) : Work → List Transmission
  | .statusStored dispatch =>
    match dispatch.packet.serialize, state.address dispatch with
    | .ok _, some addr =>
      [.data dispatch.caller.peerId dispatch.messageId addr]
    | _, _ => []
  | _ => []

/-- The HELLO packets of `connect_to_peer` and its retry task. -/
def hellos (state : ChatNode P) : ContactEvent → List Transmission
  | .endpoint (.node (.resume index draw now)) =>
    match state.contacts.inner.process.tasks[index]? with
    | some (.connecting peerId hello endpoint) =>
      (state.node.resume draw now (.connecting peerId hello endpoint)).sent.map
          fun sent => .hello peerId sent.2
    | _ => []
  | .endpoint (.node (.retry peerId now)) =>
    (state.node.retryHello peerId now).sent.map fun sent => .hello peerId sent.2
  | _ => []

/-- The DATA packets `_handle_sync` sends to where the SYNC came from. -/
def resends (state : ChatNode P) (sync : SyncPayload) (addr : Address)
    (now : ℚ) : List Transmission :=
  match state.node.registry.getBySessionId sync.sessionId with
  | none => []
  | some (_, session) =>
    (resendMissed P session sync.sequenceNumber now state.queue
      state.queue.entries).sent.map
        fun sent => .data session.remotePeerId sent.1 addr

/-- The PING of a loop that has slept. -/
def pings (state : ChatNode P) (peerId : PeerId) : List Transmission :=
  match state.loops.get? peerId, state.node.heartbeat.get? peerId with
  | some ⟨false, _⟩, some (_, addr) => [.ping peerId addr]
  | _, _ => []

def transmits (state : ChatNode P) : ChatEvent → List Transmission
  | .contact event => state.hellos event
  | .resume index .. =>
    match state.works[index]? with
    | some work => state.dispatches work
    | none => []
  | .handleSync sync addr now => state.resends sync addr now
  | .heartbeat peerId _ => state.pings peerId
  | .punch index =>
    state.punches[index]?.toList.map fun punch =>
      .ping punch.peerId punch.endpoint
  | _ => []

end ChatNode

end AshiChat
