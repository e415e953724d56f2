/-
Session state (`session.py`) and the sequence floors a node applies to a fresh
session (`Node._apply_sequence_floors`).  Both indexes of the registry hold
references to shared `Session` objects, so the model keeps the objects in a
list and the indexes map to positions in it.
-/
import AshiChat.Crypto
import AshiChat.Kit.OrderedDict

namespace AshiChat

open OrderedDict Option List

/-- Result of a successful handshake. -/
structure SessionKeys where
  encryptionKey : Bytes
  sessionId : Bytes
  remotePeerId : PeerId
  remotePublicKeyBytes : Bytes
deriving DecidableEq, Repr

/-- Active encrypted session with one peer. -/
structure Session where
  sessionId : Bytes
  encryptionKey : Bytes
  remotePeerId : PeerId
  sendSequence : Nat := 1
  recvSequence : Nat := 0
deriving DecidableEq, Repr

namespace Session

/-- `Session(session_id=…, encryption_key=…, remote_peer_id=…)` -/
def ofKeys (keys : SessionKeys) : Session where
  sessionId := keys.sessionId
  encryptionKey := keys.encryptionKey
  remotePeerId := keys.remotePeerId

/-- `next_sequence`: the number handed out and the session afterwards. -/
def nextSequence (session : Session) : Nat × Session := (session.sendSequence,
    { session with sendSequence := session.sendSequence + 1 })

@[simp] theorem nextSequence_sessionId (session : Session) :
    session.nextSequence.2.sessionId = session.sessionId := rfl

@[simp] theorem nextSequence_encryptionKey (session : Session) :
    session.nextSequence.2.encryptionKey = session.encryptionKey := rfl

def checkRecvSequence (session : Session) (seq : Nat) : Bool :=
  decide (session.recvSequence < seq)

def advanceRecvSequence (session : Session) (seq : Nat) : Session :=
  if session.recvSequence < seq then { session with recvSequence := seq }
  else session

/-- The widths of the fields that come out of a handshake. -/
structure Sized (session : Session) : Prop where
  sessionId : session.sessionId.length = 8
  encryptionKey : session.encryptionKey.length = 32

/-- Two ends of a session have the same widths. -/
theorem Sized.congr {left right : Session} (hsized : left.Sized)
    (hid : right.sessionId = left.sessionId)
    (hkey : right.encryptionKey = left.encryptionKey) : right.Sized :=
  ⟨hid ▸ hsized.sessionId, hkey ▸ hsized.encryptionKey⟩

end Session

/-- The two ends of a session. -/
inductive Side where
  | left | right
deriving DecidableEq, Repr

def Side.other : Side → Side
  | .left => .right
  | .right => .left

@[simp] theorem Side.other_other (side : Side) : side.other.other = side := by
  cases side <;> rfl

theorem Side.eq_or_eq_other (side acting : Side) :
    side = acting ∨ side = acting.other := by
  cases side <;> cases acting <;> simp [Side.other]

@[simp] theorem Side.other_ne (side : Side) : side.other ≠ side := by
  cases side <;> simp [Side.other]

theorem Side.apply_ne_other {α : Type*} {f : Side → α}
    (hne : f .left ≠ f .right) (side : Side) : f side ≠ f side.other := by
  cases side with
  | left => exact hne
  | right => exact hne.symm

/-- `_sequence_floors`: peer id to (send, recv). -/
abbrev SequenceFloors := OrderedDict PeerId (Nat × Nat)

/-- `_apply_sequence_floors`: the raised session and the floors left, with the
peer's own floor consumed. -/
def applySequenceFloors (floors : SequenceFloors) (session : Session) :
    Session × SequenceFloors :=
  match floors.get? session.remotePeerId with
  | none => (session, floors)
  | some (sendFloor, recvFloor) =>
    let raised :=
      if session.sendSequence < sendFloor then
        { session with sendSequence := sendFloor }
      else session
    let raised :=
      if raised.recvSequence < recvFloor then
        { raised with recvSequence := recvFloor }
      else raised
    (raised, floors.erase session.remotePeerId)

variable (floors : SequenceFloors)

theorem applySequenceFloors_identity (session : Session) :
    (applySequenceFloors floors session).1.sessionId = session.sessionId ∧
      (applySequenceFloors floors session).1.encryptionKey =
        session.encryptionKey ∧
      (applySequenceFloors floors session).1.remotePeerId =
        session.remotePeerId := by
  unfold applySequenceFloors
  split
  · exact ⟨rfl, rfl, rfl⟩
  · simp only
    split <;> split <;> exact ⟨rfl, rfl, rfl⟩

/-- The session object a handshake handler creates: default counters, raised
to the restart floors. -/
def establish (floors : SequenceFloors) (keys : SessionKeys) : Session :=
  (applySequenceFloors floors (Session.ofKeys keys)).1

variable (keys : SessionKeys)

@[simp] theorem establish_sessionId :
    (establish floors keys).sessionId = keys.sessionId :=
  (applySequenceFloors_identity floors (Session.ofKeys keys)).1

@[simp] theorem establish_encryptionKey :
    (establish floors keys).encryptionKey = keys.encryptionKey :=
  (applySequenceFloors_identity floors (Session.ofKeys keys)).2.1

@[simp] theorem establish_remotePeerId :
    (establish floors keys).remotePeerId = keys.remotePeerId :=
  (applySequenceFloors_identity floors (Session.ofKeys keys)).2.2

/-- The counters a new session starts from: the floor of the peer, or those of
a fresh object. -/
def startCounters (floors : SequenceFloors) (peerId : PeerId) : Nat × Nat :=
  (floors.get? peerId).getD (1, 0)

theorem establish_counters : (establish floors keys).sendSequence =
        max 1 (startCounters floors keys.remotePeerId).1 ∧
      (establish floors keys).recvSequence =
        (startCounters floors keys.remotePeerId).2 := by
  unfold establish applySequenceFloors startCounters Session.ofKeys
  cases hfloor : floors.get? keys.remotePeerId with
  | none => simp
  | some floor =>
    obtain ⟨_, _⟩ := floor
    simp only [getD_some]
    split_ifs <;> simp_all <;> omega

def maxSessions : Nat := 100

/-- `SessionRegistry`: `objects` are the `Session` objects ever registered;
the indexes refer to them by position. -/
structure SessionRegistry where
  objects : List Session
  bySession : OrderedDict Bytes Nat
  byPeer : OrderedDict PeerId Nat
  bySession_lt : ∀ binding ∈ bySession.entries, binding.2 < objects.length
  byPeer_lt : ∀ binding ∈ byPeer.entries, binding.2 < objects.length

namespace SessionRegistry

def empty : SessionRegistry where
  objects := []
  bySession := .empty
  byPeer := .empty
  bySession_lt := by simp [OrderedDict.empty]
  byPeer_lt := by simp [OrderedDict.empty]

/-- `get_by_session_id`, as the reference and the object behind it. -/
def getBySessionId (registry : SessionRegistry) (sessionId : Bytes) :
    Option (Nat × Session) := do
  let ref ← registry.bySession.get? sessionId
  let session ← registry.objects[ref]?
  return (ref, session)

/-- `get_by_peer_id`, as the reference and the object behind it. -/
def getByPeerId (registry : SessionRegistry) (peerId : PeerId) :
    Option (Nat × Session) := do
  let ref ← registry.byPeer.get? peerId
  let session ← registry.objects[ref]?
  return (ref, session)

variable {registry registry' : SessionRegistry} {session old : Session}
  {peerId : PeerId} {ref bound : Nat} {sessionId : Bytes} {κ : Type}

theorem mem_set_lt [DecidableEq κ] {dict : OrderedDict κ Nat}
    (hlt : ∀ binding ∈ dict.entries, binding.2 < bound) (key : κ) :
    ∀ binding ∈ (dict.set key bound).entries, binding.2 < bound + 1 := by
  intro binding hmem
  have hget := (dict.set key bound).get?_eq_of_mem_entries hmem
  rcases get?_set_cases hget with ⟨-, _⟩ | ⟨-, hget⟩
  · omega
  · have hold := hlt (binding.1, binding.2) (dict.mem_entries_iff.mpr hget)
    exact Nat.lt_succ_of_lt hold

theorem mem_erase_lt [DecidableEq κ] {dict : OrderedDict κ Nat}
    (hlt : ∀ binding ∈ dict.entries, binding.2 < bound) (key : κ) :
    ∀ binding ∈ (dict.erase key).entries, binding.2 < bound :=
  fun binding hmem => hlt binding (mem_of_mem_filter hmem)

/-- `_by_session` once `register` has dropped the peer's previous session. -/
def withoutOld (registry : SessionRegistry) (peerId : PeerId) :
    OrderedDict Bytes Nat :=
  match registry.getByPeerId peerId with
  | some (_, old) => registry.bySession.erase old.sessionId
  | none => registry.bySession

theorem withoutOld_lt (registry : SessionRegistry) (peerId : PeerId) :
    ∀ binding ∈ (registry.withoutOld peerId).entries,
      binding.2 < registry.objects.length := by
  unfold withoutOld
  split
  · exact mem_erase_lt registry.bySession_lt _
  · exact registry.bySession_lt

/-- `register`; the limit is checked before the peer's old session goes. -/
def register (registry : SessionRegistry) (session : Session) :
    Except PyError SessionRegistry :=
  if maxSessions ≤ registry.bySession.size then
    .error (.runtimeError s!"Session limit reached ({maxSessions})")
  else
    .ok {
      objects := registry.objects ++ [session]
      bySession := (registry.withoutOld session.remotePeerId).set
        session.sessionId registry.objects.length
      byPeer := registry.byPeer.set session.remotePeerId registry.objects.length
      bySession_lt := by
        simpa using mem_set_lt
          (registry.withoutOld_lt session.remotePeerId) session.sessionId
      byPeer_lt := by
        simpa using mem_set_lt registry.byPeer_lt session.remotePeerId }

/-- `remove`: the peer index follows the session found under the id. -/
def remove (registry : SessionRegistry) (sessionId : Bytes) :
    SessionRegistry :=
  match registry.getBySessionId sessionId with
  | none => registry
  | some (_, session) =>
    { registry with
      bySession := registry.bySession.erase sessionId
      byPeer := registry.byPeer.erase session.remotePeerId
      bySession_lt := mem_erase_lt registry.bySession_lt sessionId
      byPeer_lt := mem_erase_lt registry.byPeer_lt session.remotePeerId }

/-- `remove` of the session that is found under the peer. -/
def dropPeer (registry : SessionRegistry) (peerId : PeerId) :
    SessionRegistry :=
  match registry.getByPeerId peerId with
  | none => registry
  | some (_, session) => registry.remove session.sessionId

/-- The session under the id of the peer's session is one with the peer. -/
def ownsSession (registry : SessionRegistry) (peerId : PeerId) : Bool :=
  match registry.getByPeerId peerId with
  | none => true
  | some (_, session) =>
    match registry.getBySessionId session.sessionId with
    | none => false
    | some (_, found) => decide (found.remotePeerId = peerId)

/-- A method call that mutates the object behind `ref`. -/
def update (registry : SessionRegistry) (ref : Nat) (session : Session) :
    SessionRegistry :=
  { registry with
    objects := registry.objects.set ref session
    bySession_lt := by simpa using registry.bySession_lt
    byPeer_lt := by simpa using registry.byPeer_lt }

def allSessions (registry : SessionRegistry) : List Session :=
  registry.bySession.values.filterMap (registry.objects[·]?)

/-- The session registered for a peer. -/
def sessionFor (registry : SessionRegistry) (peerId : PeerId) :
    Option Session :=
  (registry.getByPeerId peerId).map Prod.snd

theorem sessionFor_eq (registry : SessionRegistry) (peerId : PeerId) :
    registry.sessionFor peerId =
      (registry.byPeer.get? peerId).bind (registry.objects[·]?) := by
  unfold sessionFor getByPeerId
  cases registry.byPeer.get? peerId with
  | none => rfl
  | some ref => cases hobj : registry.objects[ref]? <;> simp [hobj]

theorem sessionFor_register (hreg : registry.register session = .ok registry')
    (peerId : PeerId) :
    registry'.sessionFor peerId =
      if session.remotePeerId = peerId then some session
      else registry.sessionFor peerId := by
  unfold register at hreg
  split at hreg
  · cases hreg
  · simp only [Except.ok.injEq] at hreg
    subst hreg
    rw [sessionFor_eq, sessionFor_eq]
    simp only [get?_set]
    split
    · simp
    · cases href : registry.byPeer.get? peerId with
      | none => rfl
      | some ref =>
        have hlt := registry.byPeer_lt (peerId, ref)
          (registry.byPeer.mem_entries_iff.mpr href)
        simp only [bind_some]
        rw [getElem?_append_left hlt]

/-- Removing a session id clears at most one peer. -/
theorem sessionFor_remove (registry : SessionRegistry) (sessionId : Bytes)
    (peerId : PeerId) :
    (registry.remove sessionId).sessionFor peerId = registry.sessionFor peerId ∨
      (registry.remove sessionId).sessionFor peerId = none := by
  unfold remove
  split
  · exact Or.inl rfl
  · rw [sessionFor_eq, sessionFor_eq]
    simp only [get?_erase]
    split
    · exact Or.inr rfl
    · exact Or.inl rfl

/-- Unless session ids collide, dropping a peer's session touches no other
peer. -/
theorem sessionFor_dropPeer (howns : registry.ownsSession peerId = true)
    (other : PeerId) :
    (registry.dropPeer peerId).sessionFor other =
      if peerId = other then none else registry.sessionFor other := by
  unfold ownsSession at howns
  unfold dropPeer
  cases hpeer : registry.getByPeerId peerId with
  | none =>
    simp only
    split
    · next heq => rw [← heq, sessionFor, hpeer, map_none]
    · rfl
  | some found =>
    simp only [hpeer] at howns ⊢
    unfold remove
    cases hid : registry.getBySessionId found.2.sessionId with
    | none =>
      rw [hid] at howns
      cases howns
    | some =>
      rw [hid] at howns
      have howner := of_decide_eq_true howns
      simp only [sessionFor_eq, get?_erase, howner]
      split <;> rfl

/-- The id index leads to objects with that id. -/
def Indexed (registry : SessionRegistry) : Prop :=
  ∀ sessionId ref, registry.bySession.get? sessionId = some ref →
    ∃ session, registry.objects[ref]? = some session ∧
      session.sessionId = sessionId

theorem indexed_empty : empty.Indexed := by
  intro sessionId ref hget
  simp [empty, get?_empty] at hget

theorem getBySessionId_eq_some
    (hget : registry.getBySessionId sessionId = some (ref, session)) :
    registry.bySession.get? sessionId = some ref ∧
      registry.objects[ref]? = some session := by
  unfold getBySessionId at hget
  simp only [Option.bind_eq_bind, Option.bind_eq_some_iff, Option.pure_def,
    some.injEq, Prod.mk.injEq] at hget
  obtain ⟨_, hfound, _, hobj, rfl, rfl⟩ := hget
  exact ⟨hfound, hobj⟩

theorem getByPeerId_eq_some
    (hget : registry.getByPeerId peerId = some (ref, session)) :
    registry.byPeer.get? peerId = some ref ∧
      registry.objects[ref]? = some session := by
  unfold getByPeerId at hget
  simp only [Option.bind_eq_bind, Option.bind_eq_some_iff, Option.pure_def,
    some.injEq, Prod.mk.injEq] at hget
  obtain ⟨_, hfound, _, hobj, rfl, rfl⟩ := hget
  exact ⟨hfound, hobj⟩

theorem Indexed.sessionId_eq (hindexed : registry.Indexed)
    (hget : registry.getBySessionId sessionId = some (ref, session)) :
    session.sessionId = sessionId := by
  obtain ⟨href, hobj⟩ := getBySessionId_eq_some hget
  obtain ⟨_, hfound, hid⟩ := hindexed sessionId ref href
  rw [hobj, some.injEq] at hfound
  exact hfound ▸ hid

/-- A registry with room takes any session. -/
theorem exists_register (hroom : registry.bySession.size < maxSessions)
    (session : Session) :
    ∃ registry', registry.register session = .ok registry' := by
  unfold register
  rw [if_neg (Nat.not_le.mpr hroom)]
  exact ⟨_, rfl⟩

theorem objects_register (hreg : registry.register session = .ok registry') :
    registry'.objects = registry.objects ++ [session] := by
  unfold register at hreg
  split at hreg
  · cases hreg
  · cases hreg
    rfl

theorem byPeer_register (hreg : registry.register session = .ok registry') :
    registry'.byPeer =
      registry.byPeer.set session.remotePeerId registry.objects.length := by
  unfold register at hreg
  split at hreg
  · cases hreg
  · cases hreg
    rfl

@[simp] theorem objects_remove (registry : SessionRegistry)
    (sessionId : Bytes) :
    (registry.remove sessionId).objects = registry.objects := by
  unfold remove
  split <;> rfl

theorem get?_withoutOld
    (hget : (registry.withoutOld peerId).get? sessionId = some ref) :
    registry.bySession.get? sessionId = some ref := by
  unfold withoutOld at hget
  split at hget
  · rw [get?_erase] at hget
    split at hget
    · cases hget
    · exact hget
  · exact hget

theorem Indexed.register (hindexed : registry.Indexed)
    (hreg : registry.register session = .ok registry') :
    registry'.Indexed := by
  have hobjects := objects_register hreg
  intro sessionId ref hget
  unfold SessionRegistry.register at hreg
  split at hreg
  · cases hreg
  · cases hreg
    rcases get?_set_cases hget with ⟨rfl, rfl⟩ | ⟨-, hget⟩
    · exact ⟨session, by simp, rfl⟩
    · obtain ⟨found, hfound, hid⟩ := hindexed sessionId ref
        (get?_withoutOld hget)
      exact ⟨found, by rw [hobjects, getElem?_append_left
        (List.getElem?_eq_some_iff.mp hfound).1, hfound], hid⟩

theorem Indexed.remove (hindexed : registry.Indexed) (sessionId : Bytes) :
    (registry.remove sessionId).Indexed := by
  intro other ref hget
  rw [objects_remove]
  unfold SessionRegistry.remove at hget
  split at hget
  · exact hindexed other ref hget
  · simp only [get?_erase] at hget
    split at hget
    · cases hget
    · exact hindexed other ref hget

/-- A method call keeps the id of the object it is made on. -/
theorem Indexed.update (hindexed : registry.Indexed)
    (hold : registry.objects[ref]? = some old)
    (hid : session.sessionId = old.sessionId) :
    (registry.update ref session).Indexed := by
  intro sessionId found hget
  obtain ⟨object, hobject, hobjectId⟩ := hindexed sessionId found hget
  by_cases href : ref = found
  · subst href
    rw [hold, some.injEq] at hobject
    subst hobject
    refine ⟨session, ?_, hid.trans hobjectId⟩
    exact List.getElem?_set_self (List.getElem?_eq_some_iff.mp hold).1
  · refine ⟨object, ?_, hobjectId⟩
    simp only [SessionRegistry.update]
    rw [getElem?_set_ne href, hobject]

/-- A call that changes nothing. -/
theorem update_self (hobj : registry.objects[ref]? = some session) :
    registry.update ref session = registry := by
  have hset : registry.objects.set ref session = registry.objects := by
    obtain ⟨hlt, rfl⟩ := List.getElem?_eq_some_iff.mp hobj
    exact set_getElem_self hlt
  simp only [update, hset]

/-- A method call registers and drops nothing. -/
theorem isSome_sessionFor_update (registry : SessionRegistry) (ref : Nat)
    (session : Session) (peerId : PeerId) :
    ((registry.update ref session).sessionFor peerId).isSome =
      (registry.sessionFor peerId).isSome := by
  rw [sessionFor_eq, sessionFor_eq]
  simp only [update]
  cases registry.byPeer.get? peerId with
  | none => rfl
  | some =>
    simp only [bind_some, getElem?_set]
    split
    · next heq =>
      subst heq
      split
      · next hlt => rw [getElem?_eq_getElem hlt]; rfl
      · next hge => rw [getElem?_eq_none (Nat.not_lt.mp hge)]
    · rfl

/-- The objects after a method call: the old ones, with one replaced. -/
theorem mem_objects_update {object : Session}
    (hmem : object ∈ (registry.update ref session).objects) :
    object ∈ registry.objects ∨ object = session :=
  mem_or_eq_of_mem_set hmem

/-- What the method call does not touch is the same in every object. -/
theorem map_objects_update {α : Type} (field : Session → α)
    (hold : registry.objects[ref]? = some old)
    (hsame : field session = field old) :
    (registry.update ref session).objects.map field =
      registry.objects.map field := by
  simp only [update, map_set, hsame]
  obtain ⟨hlt, rfl⟩ := List.getElem?_eq_some_iff.mp hold
  have hlength : ref < (registry.objects.map field).length := by simpa using hlt
  have hset := set_getElem_self hlength
  rwa [getElem_map] at hset

/-- At most one session is registered, and it is one with `peerId`. -/
def OnlyFor (registry : SessionRegistry) (peerId : PeerId) : Prop :=
  (registry.bySession.entries = [] ∧ registry.byPeer.entries = []) ∨
    ∃ ref session, registry.objects[ref]? = some session ∧
      session.remotePeerId = peerId ∧
      registry.bySession.entries = [(session.sessionId, ref)] ∧
      registry.byPeer.entries = [(peerId, ref)]

theorem onlyFor_empty (peerId : PeerId) : empty.OnlyFor peerId :=
  Or.inl ⟨rfl, rfl⟩

section

variable (honly : registry.OnlyFor peerId)

include honly

/-- One session is far from the limit. -/
theorem OnlyFor.exists_register (session : Session) :
    ∃ registry', registry.register session = .ok registry' := by
  have hsize : registry.bySession.size ≤ 1 := by
    rcases honly with ⟨hentries, _⟩ | ⟨_, _, _, _, hentries, _⟩ <;>
      simp [size, hentries]
  refine SessionRegistry.exists_register ?_ session
  unfold maxSessions
  omega

theorem OnlyFor.withoutOld_entries :
    (registry.withoutOld peerId).entries = [] := by
  rcases honly with ⟨hids, hpeers⟩ | ⟨ref, session, hobj, _, hids, hpeers⟩
  · have hnone : registry.getByPeerId peerId = none := by
      simp [getByPeerId, OrderedDict.get?, OrderedDict.lookup, hpeers]
    simp only [withoutOld, hnone, hids]
  · have hsome : registry.getByPeerId peerId = some (ref, session) := by
      simp [getByPeerId, OrderedDict.get?, OrderedDict.lookup, hpeers, hobj]
    simp [withoutOld, hsome, erase, hids]

theorem OnlyFor.register (hpeer : session.remotePeerId = peerId)
    (hreg : registry.register session = .ok registry') :
    registry'.OnlyFor peerId := by
  have hold := honly.withoutOld_entries
  have hpeers : (registry.byPeer.set peerId registry.objects.length).entries =
      [(peerId, registry.objects.length)] := by
    rcases honly with ⟨_, hentries⟩ | ⟨_, _, _, _, _, hentries⟩ <;>
      simp [OrderedDict.set, OrderedDict.assign, hentries]
  unfold SessionRegistry.register at hreg
  split at hreg
  · cases hreg
  · cases hreg
    refine Or.inr ⟨registry.objects.length, session, by simp, hpeer, ?_, ?_⟩
    · simp [OrderedDict.set, OrderedDict.assign, hpeer, hold]
    · simpa only [hpeer] using hpeers

theorem OnlyFor.remove (sessionId : Bytes) :
    (registry.remove sessionId).OnlyFor peerId := by
  cases hget : registry.getBySessionId sessionId with
  | none => simpa only [SessionRegistry.remove, hget] using honly
  | some found =>
    obtain ⟨_, _⟩ := found
    obtain ⟨href, hobj⟩ := getBySessionId_eq_some hget
    simp only [SessionRegistry.remove, hget]
    rcases honly with ⟨hids, _⟩ | ⟨_, _, hobj', hpeer, hids, hpeers⟩
    · simp [OrderedDict.get?, OrderedDict.lookup, hids] at href
    · -- The session found is the only one there is.
      simp only [OrderedDict.get?, OrderedDict.lookup, hids] at href
      split at href
      · next hid =>
        cases href
        rw [hobj, some.injEq] at hobj'
        subst hobj'
        refine Or.inl ⟨?_, ?_⟩
        · simp [erase, hids, hid]
        · simp [erase, hpeers, hpeer]
      · cases href

end

end SessionRegistry

end AshiChat
