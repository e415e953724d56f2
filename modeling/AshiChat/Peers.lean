/-
What a node keeps about its peers: the state machine of each (`peer_state.py`),
the in-memory peer table (`overlay.py`), the rows of the `peers` and `sessions`
tables (`storage.py`) and the reconnect entries (`reconnect.py`).
-/
import AshiChat.Session
import Mathlib.Data.Rat.Init

namespace AshiChat

open OrderedDict List Option

/-- A UDP source or destination. -/
abbrev Address := String × Nat

/-- `_format_endpoint` of an address. -/
def formatEndpoint (address : Address) : String :=
  address.1 ++ ":" ++ toString address.2

/-- `_parse_endpoint`: host and port around the last colon. -/
def parseEndpoint (text : String) : Option Address :=
  match (text.splitOn ":").reverse with
  | port :: host :: rest =>
    port.toNat?.map fun number =>
      (":".intercalate (host :: rest).reverse, number)
  | _ => none

inductive PeerState where
  | disconnected | connecting | connected | idle
  | suspect | resolving | failed | archived
deriving DecidableEq, Repr

def PeerState.validTransitions : PeerState → List PeerState
  | .disconnected => [.connecting, .resolving, .archived]
  | .connecting => [.connected, .disconnected]
  | .connected => [.idle, .disconnected]
  | .idle => [.suspect, .connected, .disconnected]
  | .suspect => [.disconnected, .connected]
  | .resolving => [.connecting, .failed]
  | .failed => [.disconnected, .resolving]
  | .archived => [.connecting, .resolving]

/-- Where a machine stands once it is asked to move. -/
def PeerState.after (state new : PeerState) : PeerState :=
  if new ∈ state.validTransitions then new else state

/-- The values of the `PeerState` enum. -/
def PeerState.value : PeerState → String
  | .disconnected => "disconnected"
  | .connecting => "connecting"
  | .connected => "connected"
  | .idle => "idle"
  | .suspect => "suspect"
  | .resolving => "resolving"
  | .failed => "failed"
  | .archived => "archived"

/-- `_machines`; a peer without a machine is disconnected. -/
abbrev PeerStates := OrderedDict PeerId PeerState

namespace PeerStates

def getState (states : PeerStates) (peerId : PeerId) : PeerState :=
  (states.get? peerId).getD .disconnected

def ensureMachine (states : PeerStates) (peerId : PeerId) : PeerStates :=
  if states.contains peerId then states
  else states.set peerId .disconnected

/-- `update_state`: the machines afterwards, and the exception if the
transition is not valid. -/
def updateState (states : PeerStates) (peerId : PeerId) (new : PeerState) :
    PeerStates × Option PyError :=
  let old := getState states peerId
  if new ∈ old.validTransitions then
    (states.set peerId new, none)
  else
    (ensureMachine states peerId, some (.valueError
      ("Invalid transition: " ++ old.value ++ " → " ++ new.value)))

/-- Transitions one after the other, up to the first that is refused. -/
def walk (states : PeerStates) (peerId : PeerId) :
    List PeerState → PeerStates × Option PyError
  | [] => (states, none)
  | new :: rest =>
    match updateState states peerId new with
    | (states', none) => walk states' peerId rest
    | (states', some err) => (states', some err)

/-- The transitions `_mark_peer_connected` asks for. -/
def connectPath : PeerState → List PeerState
  | .disconnected | .archived | .resolving => [.connecting, .connected]
  | .failed => [.disconnected, .connecting, .connected]
  | .connecting | .connected | .idle | .suspect => [.connected]

/-- `_mark_peer_connected`, with its forced reset. -/
def markPeerConnected (states : PeerStates) (peerId : PeerId) : PeerStates :=
  let current := getState states peerId
  if current = .connected then states
  else
    match walk states peerId (connectPath current) with
    | (states', none) => states'
    | (states', some _) =>
      (updateState (states'.set peerId .connecting) peerId .connected).1

theorem getState_set_self (states : PeerStates) (peerId : PeerId)
    (state : PeerState) :
    getState (states.set peerId state) peerId = state := by
  simp [getState, get?_set_self]

theorem getState_set (states : PeerStates) (peerId other : PeerId)
    (state : PeerState) :
    getState (states.set peerId state) other =
      if peerId = other then state else getState states other := by
  unfold getState
  rw [get?_set]
  split <;> rfl

theorem getState_ensureMachine (states : PeerStates) (peerId other : PeerId) :
    getState (ensureMachine states peerId) other = getState states other := by
  unfold ensureMachine
  split
  · rfl
  · next hnew =>
    rw [getState_set]
    split
    · next heq =>
      subst heq
      rw [Bool.not_eq_true, contains_eq_false_iff] at hnew
      rw [getState, hnew, getD_none]
    · rfl

theorem getState_updateState (states : PeerStates) (peerId other : PeerId)
    (new : PeerState) :
    getState (updateState states peerId new).1 other =
      if peerId = other then (getState states other).after new
      else getState states other := by
  unfold updateState PeerState.after
  by_cases hvalid : new ∈ (getState states peerId).validTransitions
  · simp only [hvalid, ↓reduceIte, getState_set]
    split
    · next heq => rw [← heq, if_pos hvalid]
    · rfl
  · simp only [hvalid, ↓reduceIte, getState_ensureMachine]
    split
    · next heq => rw [← heq, if_neg hvalid]
    · rfl

variable {peerId other : PeerId} {states : PeerStates}

theorem updateState_of_valid {new : PeerState}
    (hvalid : new ∈ (getState states peerId).validTransitions) :
    updateState states peerId new = (states.set peerId new, none) := by
  simp [updateState, hvalid]

/-- Consecutive entries of the list are valid transitions, from `state` on. -/
def ValidFrom : PeerState → List PeerState → Prop
  | _, [] => True
  | state, new :: rest => new ∈ state.validTransitions ∧ ValidFrom new rest

theorem walk_of_validFrom {path : List PeerState}
    (hvalid : ValidFrom (getState states peerId) path) :
    (walk states peerId path).2 = none ∧
      getState (walk states peerId path).1 peerId =
        path.getLastD (getState states peerId) := by
  induction path generalizing states with
  | nil => exact ⟨rfl, rfl⟩
  | cons new rest ih =>
    simp only [walk, updateState_of_valid hvalid.1]
    have hrest : ValidFrom (getState (states.set peerId new) peerId) rest := by
      rw [getState_set_self]
      exact hvalid.2
    obtain ⟨herror, hlast⟩ := ih hrest
    refine ⟨herror, hlast.trans ?_⟩
    rw [getState_set_self, getLastD_cons]

theorem getState_walk_of_ne (hne : peerId ≠ other) (states : PeerStates)
    (path : List PeerState) :
    getState (walk states peerId path).1 other = getState states other := by
  induction path generalizing states with
  | nil => rfl
  | cons new _ ih =>
    have hfirst := getState_updateState states peerId other new
    rw [if_neg hne] at hfirst
    rw [walk]
    split
    · next states' heq =>
      rw [heq] at hfirst
      rw [ih, hfirst]
    · next states' _ heq =>
      rw [heq] at hfirst
      exact hfirst

/-- Every state has a valid path to `connected`, so the forced reset is never
taken. -/
theorem connectPath_valid (state : PeerState) (hstate : state ≠ .connected) :
    ValidFrom state (connectPath state) ∧
      (connectPath state).getLastD state = .connected := by
  cases state <;> simp_all [connectPath, ValidFrom, PeerState.validTransitions]

theorem getState_markPeerConnected (states : PeerStates) (peerId : PeerId) :
    getState (markPeerConnected states peerId) peerId = .connected := by
  unfold markPeerConnected
  by_cases hcurrent : getState states peerId = .connected
  · simp [hcurrent]
  · obtain ⟨hvalid, hlast⟩ := connectPath_valid _ hcurrent
    obtain ⟨herror, hwalk⟩ := walk_of_validFrom hvalid
    simp only [hcurrent, ↓reduceIte]
    split
    · next states' heq => rw [heq, hlast] at hwalk; exact hwalk
    · next states' _ heq => simp [heq] at herror

theorem getState_markPeerConnected_of_ne (hne : peerId ≠ other)
    (states : PeerStates) :
    getState (markPeerConnected states peerId) other =
      getState states other := by
  have hwalk := getState_walk_of_ne hne states
    (connectPath (getState states peerId))
  simp only [markPeerConnected]
  split
  · rfl
  · split
    · next heq =>
      rw [heq] at hwalk
      exact hwalk
    · next heq =>
      rw [heq] at hwalk
      rw [getState_updateState, if_neg hne, getState_set, if_neg hne, hwalk]

end PeerStates

@[ext] structure PeerEntry where
  peerId : PeerId
  publicKey : Bytes
  isDirect : Bool := false
  endpoint : Option Address := none
  lastSeen : ℚ
  versionCounter : Nat := 0
  nickname : Option String := none
  endpointSignature : Option Bytes := none
deriving DecidableEq

/-- `PeerTable`: entries are kept under their own id, and the local node never
has one. -/
structure PeerTable where
  localId : PeerId
  peers : OrderedDict PeerId PeerEntry
  keyed : ∀ peerId entry, peers.get? peerId = some entry → entry.peerId = peerId
  localAbsent : peers.get? localId = none

namespace PeerTable

def empty (localId : PeerId) : PeerTable where
  localId := localId
  peers := .empty
  keyed := by simp
  localAbsent := rfl

/-- `add_direct_peer`; the node's own id is ignored. -/
def addDirectPeer (table : PeerTable) (peerId : PeerId) (publicKey : Bytes)
    (nickname : Option String) (endpoint : Option Address) (now : ℚ) :
    PeerTable :=
  if hlocal : peerId = table.localId then table
  else
    { table with
      peers := table.peers.set peerId {
        peerId := peerId
        publicKey := publicKey
        isDirect := true
        nickname := nickname
        endpoint := endpoint
        lastSeen := now }
      keyed := by
        intro other entry hget
        rw [get?_set] at hget
        split at hget
        · next heq => cases hget; exact heq
        · exact table.keyed other entry hget
      localAbsent := by
        rw [get?_set, if_neg hlocal]
        exact table.localAbsent }

variable {table : PeerTable} {peerId : PeerId}

/-- The entry is new, or was there before. -/
theorem get?_addDirectPeer {publicKey : Bytes} {nickname : Option String}
    {endpoint : Option Address} {now : ℚ} {target : PeerId} {entry : PeerEntry}
    (hget : (table.addDirectPeer peerId publicKey nickname endpoint
      now).peers.get? target = some entry) :
    (target = peerId ∧ entry = {
      peerId := peerId
      publicKey := publicKey
      isDirect := true
      nickname := nickname
      endpoint := endpoint
      lastSeen := now }) ∨ table.peers.get? target = some entry := by
  unfold addDirectPeer at hget
  split at hget
  · exact .inr hget
  · rcases get?_set_cases hget with hnew | ⟨-, hold⟩
    · exact .inl hnew
    · exact .inr hold

/-- Attribute assignments on the entry of the peer, if there is one. -/
def modifyEntry (table : PeerTable) (peerId : PeerId)
    (f : PeerEntry → PeerEntry) (hf : ∀ entry, (f entry).peerId = entry.peerId) :
    PeerTable :=
  { table with
    peers := table.peers.modify peerId f
    keyed := by
      intro other entry hget
      rw [get?_modify] at hget
      split at hget
      · obtain ⟨old, hold, rfl⟩ := map_eq_some_iff.mp hget
        rw [hf, table.keyed other old hold]
      · exact table.keyed other entry hget
    localAbsent := by
      rw [get?_modify, table.localAbsent]
      simp }

/-- `entry.endpoint = address` -/
def setEndpoint (table : PeerTable) (peerId : PeerId) (address : Address) :
    PeerTable :=
  table.modifyEntry peerId
    (fun entry => { entry with endpoint := some address }) (fun _ => rfl)

@[simp] theorem localId_modifyEntry (table : PeerTable) (peerId : PeerId)
    (f : PeerEntry → PeerEntry) (hf) :
    (table.modifyEntry peerId f hf).localId = table.localId := rfl

@[simp] theorem localId_addDirectPeer (table : PeerTable) (peerId : PeerId)
    (publicKey : Bytes) (nickname : Option String) (endpoint : Option Address)
    (now : ℚ) :
    (table.addDirectPeer peerId publicKey nickname endpoint now).localId =
      table.localId := by
  unfold addDirectPeer
  split <;> rfl

def getDirectPeerIds (table : PeerTable) : List PeerId :=
  (table.peers.values.filter PeerEntry.isDirect).map PeerEntry.peerId

theorem getDirectPeerIds_setEndpoint (table : PeerTable) (peerId : PeerId)
    (address : Address) :
    (table.setEndpoint peerId address).getDirectPeerIds =
      table.getDirectPeerIds := by
  have hfilter : ∀ entries : List (PeerId × PeerEntry),
      ((entries.map (fun binding => (binding.1, if binding.1 = peerId then
          { binding.2 with endpoint := some address } else binding.2))).map
        Prod.snd |>.filter PeerEntry.isDirect).map PeerEntry.peerId =
      ((entries.map Prod.snd).filter PeerEntry.isDirect).map
        PeerEntry.peerId := by
    intro entries
    induction entries with
    | nil => rfl
    | cons head _ ih =>
      simp only [map_cons, filter_cons]
      by_cases hkey : head.1 = peerId <;>
        by_cases hdirect : head.2.isDirect = true <;>
        simp only [hkey, hdirect, ↓reduceIte, map_cons, ih, Bool.false_eq_true]
  exact hfilter table.peers.entries

theorem mem_getDirectPeerIds : peerId ∈ table.getDirectPeerIds ↔
      ∃ entry, table.peers.get? peerId = some entry ∧ entry.isDirect = true := by
  simp only [getDirectPeerIds, values, List.mem_map, mem_filter]
  constructor
  · rintro ⟨entry, ⟨⟨⟨key, value⟩, hmem, rfl⟩, hdirect⟩, rfl⟩
    have hget := table.peers.mem_entries_iff.mp hmem
    exact ⟨value, (table.keyed key value hget).symm ▸ hget, hdirect⟩
  · rintro ⟨entry, hget, hdirect⟩
    exact ⟨entry, ⟨⟨_, table.peers.mem_entries_iff.mpr hget, rfl⟩, hdirect⟩,
      table.keyed peerId entry hget⟩

/-- The peer has an entry, and the entry is direct. -/
def isDirect (table : PeerTable) (peerId : PeerId) : Bool :=
  (table.peers.get? peerId).any PeerEntry.isDirect

theorem isDirect_iff :
    table.isDirect peerId = true ↔ peerId ∈ table.getDirectPeerIds := by
  rw [mem_getDirectPeerIds, isDirect, Option.any_eq_true]

theorem isDirect_modifyEntry (table : PeerTable) (peerId other : PeerId)
    {f : PeerEntry → PeerEntry} (hf : ∀ entry, (f entry).peerId = entry.peerId)
    (hdirect : ∀ entry, (f entry).isDirect = entry.isDirect) :
    (table.modifyEntry peerId f hf).isDirect other = table.isDirect other := by
  simp only [isDirect, modifyEntry, get?_modify]
  split
  · cases table.peers.get? other with
    | none => rfl
    | some entry => exact hdirect entry
  · rfl

theorem isDirect_addDirectPeer (table : PeerTable) (peerId other : PeerId)
    (publicKey : Bytes) (nickname : Option String) (endpoint : Option Address)
    (now : ℚ) :
    (table.addDirectPeer peerId publicKey nickname endpoint now).isDirect
        other =
      if peerId = other ∧ peerId ≠ table.localId then true
      else table.isDirect other := by
  unfold addDirectPeer isDirect
  by_cases hlocal : peerId = table.localId
  · simp [hlocal]
  · simp only [hlocal, ↓reduceDIte, ne_eq, not_false_eq_true, and_true,
      get?_set]
    split <;> rfl

def removePeer (table : PeerTable) (peerId : PeerId) : PeerTable := { table with
    peers := table.peers.erase peerId
    keyed := by
      intro other entry hget
      rw [get?_erase] at hget
      split at hget
      · cases hget
      · exact table.keyed other entry hget
    localAbsent := by
      rw [get?_erase, table.localAbsent]
      simp }

theorem isDirect_removePeer (table : PeerTable) (peerId other : PeerId) :
    (table.removePeer peerId).isDirect other =
      if peerId = other then false else table.isDirect other := by
  simp only [isDirect, removePeer, get?_erase]
  split <;> rfl

theorem localId_not_mem (table : PeerTable) :
    table.localId ∉ table.getDirectPeerIds := by
  rw [mem_getDirectPeerIds]
  rintro ⟨entry, hget, _⟩
  rw [table.localAbsent] at hget
  cases hget

end PeerTable

/-- A row of the `peers` table, under its `peer_id`. -/
@[ext] structure PeerRecord where
  publicKey : Bytes
  lastKnownEndpoint : Option String
  versionCounter : Nat
  lastSeen : Option ℚ
  nickname : Option String
  archived : Bool
  endpointSignature : Option Bytes
deriving DecidableEq

/-- A row of the `sessions` table, under its `session_id`. -/
structure SessionRecord where
  peerId : PeerId
  sendSequence : Nat
  recvSequence : Nat
deriving DecidableEq

structure Storage where
  peers : OrderedDict PeerId PeerRecord
  sessions : OrderedDict Bytes SessionRecord

namespace Storage

def empty : Storage := ⟨.empty, .empty⟩

/-- `add_peer` with an address: insert, or update on conflict.  Without a
nickname argument the stored nickname stays. -/
def addPeer (storage : Storage) (peerId : PeerId) (publicKey : Bytes)
    (endpoint : Address) (now : ℚ) : Storage :=
  { storage with
    peers := storage.peers.set peerId (match storage.peers.get? peerId with
      | none =>
        { publicKey := publicKey
          lastKnownEndpoint := some (formatEndpoint endpoint)
          versionCounter := 0
          lastSeen := some now
          nickname := none
          archived := false
          endpointSignature := none }
      | some row =>
        { row with
          publicKey := publicKey
          lastKnownEndpoint := some (formatEndpoint endpoint)
          lastSeen := some now }) }

def getPeer (storage : Storage) (peerId : PeerId) : Option PeerRecord :=
  storage.peers.get? peerId

/-- `remember_endpoint`: an update, so a missing row stays missing. -/
def rememberEndpoint (storage : Storage) (peerId : PeerId)
    (endpoint : Address) (now : ℚ) : Storage :=
  { storage with
    peers := storage.peers.modify peerId (fun row =>
      { row with
        lastKnownEndpoint := some (formatEndpoint endpoint)
        lastSeen := some now }) }

/-- `save_session_state` of a session object. -/
def saveSessionState (storage : Storage) (session : Session) : Storage :=
  { storage with
    sessions := storage.sessions.set session.sessionId
      ⟨session.remotePeerId, session.sendSequence, session.recvSequence⟩ }

/-- `update_send_sequence`: an update, so a missing row stays missing. -/
def updateSendSequence (storage : Storage) (sessionId : Bytes) (seq : Nat) :
    Storage :=
  { storage with
    sessions := storage.sessions.modify sessionId
      (fun row => { row with sendSequence := seq }) }

def updateRecvSequence (storage : Storage) (sessionId : Bytes) (seq : Nat) :
    Storage :=
  { storage with
    sessions := storage.sessions.modify sessionId
      (fun row => { row with recvSequence := seq }) }

/-- The floors `start` loads: the last row of a known peer counts. -/
def sequenceFloors (storage : Storage) (known : PeerId → Bool) :
    SequenceFloors :=
  storage.sessions.values.foldl (fun floors row =>
      if known row.peerId then
        floors.set row.peerId (row.sendSequence, row.recvSequence)
      else floors)
    .empty

end Storage

/-- The entry `start` makes from a row. -/
def PeerTable.restore (table : PeerTable) (now : ℚ) (peerId : PeerId)
    (row : PeerRecord) : PeerTable :=
  (table.addDirectPeer peerId row.publicKey row.nickname
    (row.lastKnownEndpoint.bind parseEndpoint) now).modifyEntry peerId
      (fun entry => { entry with
        versionCounter := row.versionCounter
        endpointSignature := row.endpointSignature })
      (fun _ => rfl)

/-- The peer table `start` loads. -/
def PeerTable.load (localId : PeerId) (rows : OrderedDict PeerId PeerRecord)
    (now : ℚ) : PeerTable :=
  rows.entries.foldl (fun table row => table.restore now row.1 row.2)
    (.empty localId)

theorem PeerTable.localId_load (localId : PeerId)
    (rows : OrderedDict PeerId PeerRecord) (now : ℚ) :
    (PeerTable.load localId rows now).localId = localId := by
  unfold PeerTable.load
  refine List.foldlRecOn (motive := fun table : PeerTable => table.localId =
    localId) rows.entries _ rfl ?_
  intro table hlocal row _
  simpa [PeerTable.restore] using hlocal

/-- The states `start` sets: archived rows only. -/
def PeerStates.load (rows : OrderedDict PeerId PeerRecord) : PeerStates :=
  rows.entries.foldl (fun states row =>
      if row.2.archived then (updateState states row.1 .archived).1 else states)
    .empty

theorem PeerTable.isDirect_restore (table : PeerTable) (now : ℚ)
    (peerId other : PeerId) (row : PeerRecord) :
    (table.restore now peerId row).isDirect other =
      if peerId = other ∧ peerId ≠ table.localId then true
      else table.isDirect other := by
  rw [PeerTable.restore, PeerTable.isDirect_modifyEntry]
  · exact table.isDirect_addDirectPeer ..
  · exact fun _ => rfl

/-- Every row becomes a direct peer, the node's own excepted. -/
theorem PeerTable.isDirect_load (localId : PeerId)
    (rows : OrderedDict PeerId PeerRecord) (now : ℚ) (peerId : PeerId) :
    (PeerTable.load localId rows now).isDirect peerId =
      ((rows.get? peerId).isSome && decide (peerId ≠ localId)) := by
  -- The fold keeps the local id, so it is seen together with the entry.
  have hfold := rows.view_foldl_entries
    (fun table row => PeerTable.restore table now row.1 row.2)
    (fun table => (table.localId, table.isDirect peerId)) peerId
    (fun seen _ => (seen.1, seen.2 || decide (peerId ≠ seen.1)))
    (by
      intro table row hne
      rw [PeerTable.isDirect_restore, if_neg fun hkey => hne hkey.1]
      simp [PeerTable.restore])
    (by
      intro table row
      rw [PeerTable.isDirect_restore]
      simp only [PeerTable.restore, PeerTable.localId_modifyEntry,
        PeerTable.localId_addDirectPeer, Prod.mk.injEq, true_and]
      by_cases hlocal : peerId = table.localId <;> simp [hlocal])
    (PeerTable.empty localId)
  have hdirect := congrArg Prod.snd hfold
  simp only at hdirect
  rw [PeerTable.load, hdirect]
  cases rows.get? peerId with
  | none | some => rfl

/-- A stored flag becomes the archived state. -/
theorem PeerStates.getState_load (rows : OrderedDict PeerId PeerRecord)
    (peerId : PeerId) :
    getState (load rows) peerId =
      if (rows.get? peerId).map PeerRecord.archived = some true then .archived
      else .disconnected := by
  have hfold := rows.view_foldl_entries (fun states row =>
      if row.2.archived then (updateState states row.1 .archived).1
      else states)
    (fun states => getState states peerId) peerId
    (fun state row => if row.archived then state.after .archived else state)
    (by
      intro states row hne
      split
      · rw [getState_updateState, if_neg hne]
      · rfl)
    (by
      intro states row
      simp only
      split
      · rw [getState_updateState, if_pos rfl]
      · rfl)
    .empty
  rw [load, hfold]
  cases rows.get? peerId with
  | none => rfl
  | some row => cases hflag : row.archived <;> simp [hflag] <;> rfl

structure ReconnectEntry where
  attempt : Nat
  firstDisconnect : ℚ
  nextRetry : ℚ
deriving DecidableEq

/-- `ReconnectManager._state` -/
abbrev Reconnect := OrderedDict PeerId ReconnectEntry

/-- `record_disconnect`: the first backoff step is one second. -/
def Reconnect.recordDisconnect (reconnect : Reconnect) (peerId : PeerId)
    (now : ℚ) : Reconnect :=
  if reconnect.contains peerId then reconnect
  else reconnect.set peerId ⟨0, now, now + 1⟩

def Reconnect.recordConnect (reconnect : Reconnect) (peerId : PeerId) :
    Reconnect :=
  reconnect.erase peerId

end AshiChat
