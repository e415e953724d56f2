/-
The contacts of a node (`node.py`): `add_contact_from_invite`,
`set_peer_archived` and `remove_peer`, the reconnect loop that makes one
attempt after the other, and the heartbeat's suspicion, on top of the
handshakes and resolutions of `EndpointNode`.  A coroutine is cut at its
storage calls, which take effect in the order in which they are issued.
-/
import AshiChat.EndpointNode

namespace AshiChat

namespace Storage

/-- `add_peer` with or without an endpoint: `COALESCE` keeps the stored one. -/
def insertPeer (storage : Storage) (peerId : PeerId) (publicKey : Bytes)
    (endpoint : Option Address) (now : ℚ) : Storage :=
  { storage with
    peers := storage.peers.set peerId (match storage.peers.get? peerId with
      | none =>
        { publicKey := publicKey
          lastKnownEndpoint := endpoint.map formatEndpoint
          versionCounter := 0
          lastSeen := some now
          nickname := none
          archived := false
          endpointSignature := none }
      | some row =>
        { row with
          publicKey := publicKey
          lastKnownEndpoint :=
            (endpoint.map formatEndpoint).or row.lastKnownEndpoint
          lastSeen := some now }) }

theorem insertPeer_some (storage : Storage) (peerId : PeerId)
    (publicKey : Bytes) (endpoint : Address) (now : ℚ) :
    storage.insertPeer peerId publicKey (some endpoint) now =
      storage.addPeer peerId publicKey endpoint now := rfl

/-- `set_peer_archived`: an update, so a missing row stays missing. -/
def setPeerArchived (storage : Storage) (peerId : PeerId) (archived : Bool) :
    Storage :=
  { storage with
    peers := storage.peers.modify peerId
      (fun row => { row with archived := archived }) }

/-- `remove_peer`: the rows of the peer in both tables. -/
def removePeer (storage : Storage) (peerId : PeerId) : Storage where
  peers := storage.peers.erase peerId
  sessions := (storage.sessions.entries.filter
    (fun row => row.2.peerId = peerId)).foldl
      (fun sessions row => sessions.erase row.1) storage.sessions

end Storage

/-- The transitions of `set_peer_archived`, and the exception of one that is
refused. -/
def PeerStates.setPeerArchived (states : PeerStates) (peerId : PeerId)
    (archived : Bool) : PeerStates × Option PyError :=
  let target : PeerState := if archived then .archived else .disconnected
  let current := states.getState peerId
  if current = target then (states, none)
  else
    match states.updateState peerId target with
    | (states', none) => (states', none)
    | (states', some _) =>
      if archived ∧ current ≠ .disconnected then
        states'.walk peerId [.disconnected, .archived]
      else if ¬ archived ∧ current = .archived then
        states'.updateState peerId .disconnected
      else (states', none)

variable {P : Primitives}

namespace Node

/-- `remove_peer` after the storage call. -/
def removePeer (node : Node P) (peerId : PeerId) : Node P := { node with
    peerTable := node.peerTable.removePeer peerId
    registry := node.registry.dropPeer peerId
    table_local := node.table_local }

/-- The entry `add_contact_from_invite` makes or completes, once it has the
saved row. -/
def addContact (node : Node P) (publicKey : Bytes)
    (endpoint : Option Address) (saved : PeerRecord) (now : ℚ) : Node P :=
  let peerId := derivePeerId P publicKey
  match node.peerTable.peers.get? peerId with
  | none =>
    { node with
      peerTable := node.peerTable.addDirectPeer peerId publicKey
        saved.nickname (endpoint.or
          (saved.lastKnownEndpoint.bind parseEndpoint)) now
      table_local := by simpa using node.table_local }
  | some _ =>
    { node with
      peerTable := node.peerTable.modifyEntry peerId (fun entry => { entry with
          isDirect := true
          publicKey := publicKey
          nickname := saved.nickname.or entry.nickname
          endpoint := endpoint.or entry.endpoint })
        (fun _ => rfl)
      table_local := node.table_local }

def withStorage (node : Node P) (storage : Storage) : Node P :=
  { node with storage := storage }

def withStates (node : Node P) (peerStates : PeerStates) : Node P :=
  { node with peerStates := peerStates }

end Node

/-- What a suspended call does next. -/
inductive ContactTask where
  /-- `set_peer_archived` after the storage call -/
  | archiving (peerId : PeerId) (archived : Bool)
  /-- `remove_peer` after the storage call -/
  | removing (peerId : PeerId)
  /-- `add_contact_from_invite` after `add_peer` -/
  | inviting (publicKey : Bytes) (endpoint : Option Address)
  /-- `add_contact_from_invite` after `get_peer` -/
  | invited (publicKey : Bytes) (endpoint : Option Address)
      (saved : Option PeerRecord)
deriving DecidableEq

/-- `attempting` is the peer whose attempt the reconnect loop is making. -/
structure ContactNode (P : Primitives) where
  inner : EndpointNode P
  attempting : Option PeerId
  calls : List ContactTask

/-- What can make the node run.  An invite is what `parse_invite` read from
it; `suspect` is the heartbeat's third missed PONG. -/
inductive ContactEvent where
  | endpoint (event : EndpointNodeEvent)
  | addContactFromInvite (publicKey : Bytes) (endpoint : Option Address)
      (now : ℚ)
  | setPeerArchived (peerId : PeerId) (archived : Bool)
  | removePeer (peerId : PeerId)
  | suspect (peerId : PeerId)
  | resume (index : Nat) (draw : HelloDraw) (now : ℚ)

namespace ContactNode

def node (state : ContactNode P) : Node P := state.inner.node

def withNode (state : ContactNode P) (node : Node P) : ContactNode P :=
  { state with inner := state.inner.withNode node }

/-- A node started on the rows of its database. -/
def start (identity : LocalIdentity P) (storage : Storage) (now : ℚ) :
    ContactNode P where
  inner := {
    process := ⟨.start identity storage now, []⟩
    resolver := .empty
    coroutines := []
    updates := [] }
  attempting := none
  calls := []

/-- The events of the layer below.  The loop makes one attempt at a time and
records it some time after `_reconnect_peer` has begun. -/
def stepEndpoint (state : ContactNode P) : EndpointNodeEvent → ContactNode P
  | .node (.restart graceful now) =>
    { inner := state.inner.step (.node (.restart graceful now))
      attempting := none
      calls := [] }
  | .reconnect peerId requestId draw now =>
    if state.attempting = none then
      { state with
        inner := state.inner.step (.reconnect peerId requestId draw now)
        attempting := some peerId }
    else state
  | .recordAttempt peerId now =>
    if state.attempting = some peerId then
      { state with
        inner := state.inner.step (.recordAttempt peerId now)
        attempting := none }
    else state
  | event => { state with inner := state.inner.step event }

/-- The storage call of a new contact call, which then waits for it. -/
def suspend (state : ContactNode P) (storage : Storage)
    (task : ContactTask) : ContactNode P :=
  { state.withNode (state.node.withStorage storage) with
    calls := state.calls ++ [task] }

/-- The end of `add_contact_from_invite`. -/
def addContact (state : ContactNode P) (publicKey : Bytes)
    (endpoint : Option Address) (saved : PeerRecord) (draw : HelloDraw)
    (now : ℚ) : ContactNode P :=
  let state := state.withNode
    (state.node.addContact publicKey endpoint saved now)
  match endpoint with
  | none => state
  | some addr =>
    { state with
      inner := state.inner.connect (derivePeerId P publicKey) addr draw now }

/-- The next stretch of a call, which is no longer among the suspended ones.
`add_contact_from_invite` raises if the row is gone. -/
def resumeCall (state : ContactNode P) (draw : HelloDraw) (now : ℚ) :
    ContactTask → ContactNode P
  | .archiving peerId archived =>
    state.withNode (state.node.withStates
      (state.node.peerStates.setPeerArchived peerId archived).1)
  | .removing peerId => state.withNode (state.node.removePeer peerId)
  | .inviting publicKey endpoint =>
    { state with
      calls := state.calls ++ [.invited publicKey endpoint
        (state.node.storage.getPeer (derivePeerId P publicKey))] }
  | .invited _ _ none => state
  | .invited publicKey endpoint (some saved) =>
    state.addContact publicKey endpoint saved draw now

def step (state : ContactNode P) : ContactEvent → ContactNode P
  | .endpoint event => state.stepEndpoint event
  | .addContactFromInvite publicKey endpoint now =>
    -- The node's own invite is refused.
    if derivePeerId P publicKey = state.node.identity.peerId then state
    else
      state.suspend (state.node.storage.insertPeer
        (derivePeerId P publicKey) publicKey endpoint now)
        (.inviting publicKey endpoint)
  | .setPeerArchived peerId archived =>
    state.suspend (state.node.storage.setPeerArchived peerId archived)
      (.archiving peerId archived)
  | .removePeer peerId =>
    state.suspend (state.node.storage.removePeer peerId) (.removing peerId)
  | .suspect peerId =>
    state.withNode (state.node.withStates
      (state.node.peerStates.updateState peerId .suspect).1)
  | .resume index draw now =>
    match Pool.take? state.calls index with
    | none => state
    | some (task, rest) => { state with calls := rest }.resumeCall draw now task

/-- No handshake, attempt or call is under way.  A resolution may still wait
for its answer. -/
def quiet (state : ContactNode P) : Bool :=
  state.inner.process.tasks.isEmpty && state.calls.isEmpty &&
    state.attempting.isNone

end ContactNode

namespace ContactNodeWitness

open EndpointNodeWitness

/-- A first start: nothing is stored. -/
def fresh : ContactNode Reference.primitives := .start self .empty 0

/-- The peer's HELLO arrives. -/
def helloArrives : ContactEvent := .endpoint (.node (.receive hello home 0))

/-- The only handshake coroutine goes on. -/
def handshakeResumes : ContactEvent := .endpoint (.node (.resume 0 ackDraw 0))

/-- The only call goes on. -/
def callResumes : ContactEvent := .resume 0 draw 0

/-- The peer introduces itself and is connected. -/
def met : List ContactEvent :=
  [helloArrives, handshakeResumes, handshakeResumes, handshakeResumes,
    handshakeResumes]

/-- A database with the peer in it. -/
def contacts : Storage :=
  Storage.empty.addPeer peer.peerId peer.publicKeyBytes home 0

/-- An invite of the peer is taken up: it becomes a contact and gets a
HELLO. -/
def invited : List ContactEvent :=
  [.addContactFromInvite peer.publicKeyBytes (some home) 0, callResumes,
    callResumes, handshakeResumes]

end ContactNodeWitness

end AshiChat
