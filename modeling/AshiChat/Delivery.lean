/-
One node's outgoing messages and the peers they go to, over a network that may
lose, duplicate, delay and reorder packets.  The node's side is the queue with
the session registry; a peer's side is its registry and the `_handle_data`
calls under way there.  Packets stay in `net` once sent, so every delivery
schedule is a list of events.
-/
import AshiChat.Endpoint

namespace AshiChat

open QueueManager EventRun OrderedDict SessionRegistry List

/-- How far `_handle_data` has come with a decrypted message; the stages lie
between its awaits. -/
inductive Stage where
  | decrypted | acked | displayed | appAcked
deriving DecidableEq, Repr

/-- A message a peer decrypted: the header of the packet, the queue entry the
packet carries, and the progress of its handler. -/
structure DeliveryRecord where
  peer : PeerId
  sessionId : Bytes
  sequenceNumber : Nat
  messageId : MessageId
  stage : Stage
deriving DecidableEq, Repr

/-- Packets between the node and its peers.  A DATA packet is kept together
with the id of the entry it was built from. -/
inductive NetPacket where
  | data (messageId : MessageId) (payload : DataPayload)
  | ack (payload : AckPayload)
  | appAck (payload : AppAckPayload)
deriving DecidableEq, Repr

/-- The next stage of a `_handle_data` call, and the packet it sends there. -/
def DeliveryRecord.advance (record : DeliveryRecord) :
    DeliveryRecord × List NetPacket :=
  match record.stage with
  | .decrypted => ({ record with stage := .acked },
      [.ack ⟨record.sessionId, record.sequenceNumber⟩])
  | .acked => ({ record with stage := .displayed }, [])
  | .displayed => ({ record with stage := .appAcked },
      [.appAck ⟨record.sessionId, record.sequenceNumber⟩])
  | .appAcked => (record, [])

structure DeliveryWorld where
  queue : QueueManager
  registry : SessionRegistry
  peers : PeerId → SessionRegistry
  net : List NetPacket
  records : List DeliveryRecord

inductive DeliveryEvent where
  | enqueue (messageId : MessageId) (receiver : PeerId) (plaintext : Bytes)
  | connect (session : Session)
  | disconnect (sessionId : Bytes)
  | build (messageId : MessageId) (ref : Nat) (now : ℚ)
  | timeout (messageId : MessageId)
  | receiveSync (sync : SyncPayload) (now : ℚ)
  | receiveAck (ack : AckPayload)
  | receiveAppAck (ack : AppAckPayload)
  | peerConnect (peer : PeerId) (session : Session)
  | peerDisconnect (peer : PeerId) (sessionId : Bytes)
  | peerReceive (peer : PeerId) (messageId : MessageId) (payload : DataPayload)
  | peerAdvance (index : Nat)
deriving DecidableEq

namespace DeliveryWorld

def initial : DeliveryWorld where
  queue := .empty
  registry := .empty
  peers := fun _ => .empty
  net := []
  records := []

/-- The packet a build call hands to the transport. -/
def builtPacket (messageId : MessageId) :
    Except PyError (Option Built) → List NetPacket
  | .ok (some built) => [.data messageId built.sealed.payload]
  | _ => []

/-- `build_data_packet` for the receiver's session.  The callers look the
session up before an await, so the object may be one that the registry has
replaced since. -/
def build (P : Primitives) (world : DeliveryWorld) (messageId : MessageId)
    (ref : Nat) (now : ℚ) : DeliveryWorld :=
  match world.registry.objects[ref]?, world.queue.get? messageId with
  | some session, some entry =>
    if entry.receiver = session.remotePeerId then
      let outcome := buildDataPacket P world.queue messageId session now
      { world with
        queue := outcome.queue
        registry := world.registry.update ref outcome.session
        net := world.net ++ builtPacket messageId outcome.result }
    else world
  | _, _ => world

/-- `_handle_sync` -/
def receiveSync (P : Primitives) (world : DeliveryWorld) (sync : SyncPayload)
    (now : ℚ) : DeliveryWorld :=
  match world.registry.getBySessionId sync.sessionId with
  | none => world
  | some (_, session) =>
    let outcome := resendMissed P session sync.sequenceNumber now
      world.queue world.queue.entries
    { world with
      queue := outcome.queue
      net := world.net ++ outcome.sent.map
        (fun resent => .data resent.1 resent.2.sealed.payload) }

/-- `_handle_app_ack` -/
def receiveAppAck (world : DeliveryWorld) (ack : AppAckPayload) :
    DeliveryWorld :=
  match world.registry.getBySessionId ack.sessionId with
  | none => world
  | some (_, session) =>
    { world with
      queue := (world.queue.acknowledgeBySequence session.remotePeerId
        ack.ackSequenceNumber).1 }

/-- `_handle_data` at a peer, up to its first await. -/
def peerReceive (P : Primitives) (world : DeliveryWorld) (peer : PeerId)
    (messageId : MessageId) (payload : DataPayload) : DeliveryWorld :=
  match (world.peers peer).getBySessionId payload.sessionId with
  | none => world
  | some (ref, session) =>
    match decryptDataPacket P payload session with
    | (.ok (some _), session') =>
      { world with
        peers := Function.update world.peers peer
          ((world.peers peer).update ref session')
        records := world.records ++ [⟨peer, payload.sessionId,
          payload.sequenceNumber, messageId, .decrypted⟩] }
    | _ => world

def peerAdvance (world : DeliveryWorld) (index : Nat) : DeliveryWorld :=
  match world.records[index]? with
  | none => world
  | some record =>
    { world with
      records := world.records.set index (record.advance).1
      net := world.net ++ (record.advance).2 }

/-- Register at the node; a full registry raises and changes nothing. -/
def connect (world : DeliveryWorld) (session : Session) : DeliveryWorld :=
  match world.registry.register session with
  | .ok registry => { world with registry := registry }
  | .error _ => world

def peerConnect (world : DeliveryWorld) (peer : PeerId) (session : Session) :
    DeliveryWorld :=
  match (world.peers peer).register session with
  | .ok registry =>
    { world with peers := Function.update world.peers peer registry }
  | .error _ => world

variable (P : Primitives) (peerOf : Bytes → PeerId)

/-- One event.  Session ids are random: `peerOf` names the one peer each id
belongs to, and no peer registers an id twice.  The network delivers only what
was sent. -/
def step (world : DeliveryWorld) : DeliveryEvent → DeliveryWorld
  | .enqueue messageId receiver plaintext =>
    if world.queue.contains messageId then world
    else { world with
      queue := world.queue.enqueue messageId receiver plaintext }
  | .connect session =>
    if peerOf session.sessionId = session.remotePeerId then
      world.connect session
    else world
  | .disconnect sessionId =>
    { world with registry := world.registry.remove sessionId }
  | .build messageId ref now => world.build P messageId ref now
  | .timeout messageId =>
    { world with queue := (world.queue.handleTimeout messageId).1 }
  | .receiveSync sync now => world.receiveSync P sync now
  | .receiveAck ack =>
    if .ack ack ∈ world.net then
      { world with queue := (world.queue.handleAck ack).1 }
    else world
  | .receiveAppAck ack =>
    if .appAck ack ∈ world.net then world.receiveAppAck ack else world
  | .peerConnect peer session =>
    if peerOf session.sessionId = peer ∧ session.sessionId ∉
        (world.peers peer).objects.map Session.sessionId then
      world.peerConnect peer session
    else world
  | .peerDisconnect peer sessionId =>
    { world with
      peers := Function.update world.peers peer
        ((world.peers peer).remove sessionId) }
  | .peerReceive peer messageId payload =>
    if .data messageId payload ∈ world.net then
      world.peerReceive P peer messageId payload
    else world
  | .peerAdvance index => world.peerAdvance index

/-- Entries stay, with their receivers. -/
def KeepsReceivers (before after : QueueManager) : Prop :=
  ∀ messageId entry, before.get? messageId = some entry →
    ∃ entry', after.get? messageId = some entry' ∧
      entry'.receiver = entry.receiver

theorem keepsReceivers_modify (queue : QueueManager) (messageId : MessageId)
    {change : QueueEntry → QueueEntry}
    (hchange : ∀ entry, (change entry).receiver = entry.receiver) :
    KeepsReceivers queue (queue.modify messageId change) := by
  intro other entry hget
  rw [get?_modify]
  split
  · exact ⟨change entry, by rw [hget]; rfl, hchange entry⟩
  · exact ⟨entry, hget, rfl⟩

theorem keepsReceivers_refl (queue : QueueManager) :
    KeepsReceivers queue queue :=
  fun _ entry hget => ⟨entry, hget, rfl⟩

theorem keepsReceivers_of_sameCore {before after : QueueManager}
    (hcore : SameCore after before) : KeepsReceivers before after := by
  intro messageId entry hget
  obtain ⟨entry', hget', hsame⟩ := hcore.symm.get? hget
  exact ⟨entry', hget', hsame.receiver_eq.symm⟩

variable {record : DeliveryRecord} {queue : QueueManager}
  {messageId : MessageId} {registry : SessionRegistry} {peer : PeerId}
  {session : Session}

theorem keepsReceivers_enqueue (hfresh : queue.contains messageId = false)
    (receiver : PeerId) (plaintext : Bytes) :
    KeepsReceivers queue (queue.enqueue messageId receiver plaintext) := by
  intro other entry hget
  refine ⟨entry, ?_, rfl⟩
  have hne : messageId ≠ other := by
    rintro rfl
    rw [contains_eq_false_iff, hget] at hfresh
    cases hfresh
  rw [enqueue, get?_set, if_neg hne, hget]

/-- The trail behind every packet and every record. -/
structure Traced (world : DeliveryWorld) : Prop where
  objects : ∀ session ∈ world.registry.objects,
    peerOf session.sessionId = session.remotePeerId
  peerIndexed : ∀ peer, (world.peers peer).Indexed
  peerObjects : ∀ peer, ∀ session ∈ (world.peers peer).objects,
    peerOf session.sessionId = peer
  data : ∀ messageId payload, .data messageId payload ∈ world.net →
    ∃ entry, world.queue.get? messageId = some entry ∧
      entry.receiver = peerOf payload.sessionId
  record : ∀ record ∈ world.records, peerOf record.sessionId = record.peer ∧
    ∃ payload, .data record.messageId payload ∈ world.net ∧
      payload.sessionId = record.sessionId ∧
      payload.sequenceNumber = record.sequenceNumber
  ack : ∀ ack, .ack ack ∈ world.net → ∃ record ∈ world.records,
    record.sessionId = ack.sessionId ∧
      record.sequenceNumber = ack.ackSequenceNumber
  appAck : ∀ ack, .appAck ack ∈ world.net → ∃ record ∈ world.records,
    record.sessionId = ack.sessionId ∧
      record.sequenceNumber = ack.ackSequenceNumber ∧
      record.stage = .appAcked

variable {P peerOf} {world : DeliveryWorld}

theorem traced_initial : Traced peerOf initial where
  objects := by simp [initial, SessionRegistry.empty]
  peerIndexed _ := indexed_empty
  peerObjects := by simp [initial, SessionRegistry.empty]
  data := by simp [initial]
  record := by simp [initial]
  ack := by simp [initial]
  appAck := by simp [initial]

section

variable (htraced : Traced peerOf world)

include htraced

theorem Traced.withQueue (hkeeps : KeepsReceivers world.queue queue) :
    Traced peerOf { world with queue := queue } where
  objects := htraced.objects
  peerIndexed := htraced.peerIndexed
  peerObjects := htraced.peerObjects
  data messageId payload hmem := by
    obtain ⟨entry, hget, hreceiver⟩ := htraced.data messageId payload hmem
    obtain ⟨entry', hget', hsame⟩ := hkeeps messageId entry hget
    exact ⟨entry', hget', hsame.trans hreceiver⟩
  record := htraced.record
  ack := htraced.ack
  appAck := htraced.appAck

theorem Traced.withRegistry (hobjects : ∀ session ∈ registry.objects,
      peerOf session.sessionId = session.remotePeerId) :
    Traced peerOf { world with registry := registry } :=
  { htraced with objects := hobjects }

theorem Traced.withPeer (peer : PeerId) (hindexed : registry.Indexed)
    (hobjects : ∀ session ∈ registry.objects, peerOf session.sessionId = peer) :
    Traced peerOf { world with
      peers := Function.update world.peers peer registry } where
  objects := htraced.objects
  peerIndexed other := by
    by_cases hpeer : other = peer
    · subst hpeer
      simpa using hindexed
    · simpa [hpeer] using htraced.peerIndexed other
  peerObjects other := by
    by_cases hpeer : other = peer
    · subst hpeer
      simpa using hobjects
    · simpa [hpeer] using htraced.peerObjects other
  data := htraced.data
  record := htraced.record
  ack := htraced.ack
  appAck := htraced.appAck

/-- Sending DATA packets of entries whose receiver owns the session. -/
theorem Traced.sendData {packets : List NetPacket}
    (hpackets : ∀ packet ∈ packets, ∃ messageId payload entry,
      packet = .data messageId payload ∧
        world.queue.get? messageId = some entry ∧
        entry.receiver = peerOf payload.sessionId) :
    Traced peerOf { world with net := world.net ++ packets } where
  objects := htraced.objects
  peerIndexed := htraced.peerIndexed
  peerObjects := htraced.peerObjects
  data messageId payload hmem := by
    rcases mem_append.mp hmem with hold | hnew
    · exact htraced.data messageId payload hold
    · obtain ⟨_, _, entry, heq, hget, hreceiver⟩ := hpackets _ hnew
      cases heq
      exact ⟨entry, hget, hreceiver⟩
  record record hmem := by
    obtain ⟨hpeer, payload, hsent, hheader⟩ := htraced.record record hmem
    exact ⟨hpeer, payload, mem_append_left _ hsent, hheader⟩
  ack ack hmem := by
    rcases mem_append.mp hmem with hold | hnew
    · exact htraced.ack ack hold
    · obtain ⟨_, _, _, heq, _⟩ := hpackets _ hnew
      cases heq
  appAck ack hmem := by
    rcases mem_append.mp hmem with hold | hnew
    · exact htraced.appAck ack hold
    · obtain ⟨_, _, _, heq, _⟩ := hpackets _ hnew
      cases heq

end

/-- Building touches nothing at the peers. -/
theorem build_frame (messageId : MessageId) (ref : Nat) (now : ℚ) :
    (world.build P messageId ref now).peers = world.peers ∧
      (world.build P messageId ref now).records = world.records := by
  unfold build
  repeat' split
  all_goals exact ⟨rfl, rfl⟩

theorem keepsReceivers_build (P : Primitives) (queue : QueueManager)
    (messageId : MessageId) (session : Session) (now : ℚ) :
    KeepsReceivers queue
      (buildDataPacket P queue messageId session now).queue := by
  rcases buildDataPacket_queue P queue messageId session now with hq | hq <;>
    rw [hq]
  · exact keepsReceivers_refl queue
  · exact keepsReceivers_modify queue messageId fun _ => rfl

theorem Traced.build (htraced : Traced peerOf world) (messageId : MessageId)
    (ref : Nat) (now : ℚ) :
    Traced peerOf (world.build P messageId ref now) := by
  unfold DeliveryWorld.build
  split
  · next session entry hobject hentry =>
    split
    · next hreceiver =>
      have hkeeps := keepsReceivers_build P world.queue messageId session now
      have howner := htraced.objects session (mem_of_getElem? hobject)
      obtain ⟨_, hsession⟩ :=
        buildDataPacket_session P world.queue messageId session now
      have hregistry : ∀ object ∈ (world.registry.update ref
          (buildDataPacket P world.queue messageId session
            now).session).objects,
          peerOf object.sessionId = object.remotePeerId := by
        intro object hmem
        rcases mem_objects_update hmem with hold | rfl
        · exact htraced.objects object hold
        · rw [hsession]
          exact howner
      refine ((htraced.withQueue hkeeps).withRegistry hregistry).sendData ?_
      intro packet hpacket
      unfold builtPacket at hpacket
      split at hpacket
      · next _ hbuilt =>
        rw [mem_singleton] at hpacket
        obtain ⟨_, _, _, hseal⟩ := buildDataPacket_eq_some hbuilt
        obtain ⟨entry', hentry', hsame⟩ := hkeeps messageId entry hentry
        refine ⟨messageId, _, entry', hpacket, hentry', ?_⟩
        rw [hsame, hreceiver, (sealData_header hseal).1, howner]
      · simp at hpacket
    · exact htraced
  · exact htraced

theorem Traced.receiveSync (htraced : Traced peerOf world)
    (sync : SyncPayload) (now : ℚ) :
    Traced peerOf (world.receiveSync P sync now) := by
  unfold DeliveryWorld.receiveSync
  split
  · exact htraced
  · next _ session hlookup =>
    have hobject := (getBySessionId_eq_some hlookup).2
    have howner := htraced.objects session (mem_of_getElem? hobject)
    have hkeeps := keepsReceivers_of_sameCore (resendMissed_sameCore P
      session sync.sequenceNumber now world.queue world.queue.entries)
    refine (htraced.withQueue hkeeps).sendData ?_
    intro packet hpacket
    obtain ⟨resent, hresent, rfl⟩ := mem_map.mp hpacket
    obtain ⟨entry, _, hentry, hmissed, hseal⟩ := resendMissed_sound P session
      sync.sequenceNumber now (SameCore.refl world.queue) world.queue.entries
      (fun _ hmem => get?_eq_of_mem_entries _ hmem) resent hresent
    obtain ⟨entry', hentry', hsame⟩ := hkeeps resent.1 entry
      (get?_eq_of_mem_entries _ hentry)
    refine ⟨resent.1, _, entry', rfl, hentry', ?_⟩
    rw [hsame, hmissed.1, (sealData_header hseal).1, howner]

theorem Traced.addRecord (htraced : Traced peerOf world)
    (hpeer : peerOf record.sessionId = record.peer)
    (hsent : ∃ payload, .data record.messageId payload ∈ world.net ∧
      payload.sessionId = record.sessionId ∧
      payload.sequenceNumber = record.sequenceNumber) :
    Traced peerOf { world with records := world.records ++ [record] } where
  objects := htraced.objects
  peerIndexed := htraced.peerIndexed
  peerObjects := htraced.peerObjects
  data := htraced.data
  record other hmem := by
    rcases mem_append.mp hmem with hold | hnew
    · exact htraced.record other hold
    · rw [mem_singleton] at hnew
      subst hnew
      exact ⟨hpeer, hsent⟩
  ack ack hmem := by
    obtain ⟨other, hother, hfacts⟩ := htraced.ack ack hmem
    exact ⟨other, mem_append_left _ hother, hfacts⟩
  appAck ack hmem := by
    obtain ⟨other, hother, hfacts⟩ := htraced.appAck ack hmem
    exact ⟨other, mem_append_left _ hother, hfacts⟩

/-- Decryption at a peer: the session was found under the packet's id. -/
theorem peerReceive_cases (P : Primitives) (world : DeliveryWorld)
    (peer : PeerId) (messageId : MessageId) (payload : DataPayload) :
    world.peerReceive P peer messageId payload = world ∨
    ∃ ref session session' plaintext,
      (world.peers peer).getBySessionId payload.sessionId =
        some (ref, session) ∧
      decryptDataPacket P payload session = (.ok (some plaintext), session') ∧
      world.peerReceive P peer messageId payload = { world with
          peers := Function.update world.peers peer
            ((world.peers peer).update ref session')
          records := world.records ++ [⟨peer, payload.sessionId,
            payload.sequenceNumber, messageId, .decrypted⟩] } := by
  unfold peerReceive
  split
  · exact Or.inl rfl
  · next ref session hlookup =>
    split
    · next plaintext session' hdec =>
      exact Or.inr ⟨ref, session, session', plaintext, hlookup, hdec, rfl⟩
    · exact Or.inl rfl

theorem Traced.peerReceive (htraced : Traced peerOf world)
    {payload : DataPayload} (hsent : .data messageId payload ∈ world.net) :
    Traced peerOf (world.peerReceive P peer messageId payload) := by
  rcases peerReceive_cases P world peer messageId payload with
    hsame | ⟨_, session, session', _, hlookup, hdec, hstep⟩
  · rwa [hsame]
  · rw [hstep]
    have hobject := (getBySessionId_eq_some hlookup).2
    have hid := (htraced.peerIndexed peer).sessionId_eq hlookup
    have howner := htraced.peerObjects peer session (mem_of_getElem? hobject)
    have hsession : session'.sessionId = session.sessionId := by
      obtain ⟨_, hrecv⟩ := decryptDataPacket_session P payload session
      rw [hdec] at hrecv
      simp only at hrecv
      rw [hrecv]
    have hpeers := htraced.withPeer peer
      ((htraced.peerIndexed peer).update hobject hsession)
      (fun object hmem => by
        rcases mem_objects_update hmem with hold | rfl
        · exact htraced.peerObjects peer object hold
        · rw [hsession, howner])
    exact hpeers.addRecord (hid ▸ howner) ⟨payload, hsent, rfl, rfl⟩

/-- Progress of a handler keeps the header of its record. -/
theorem advance_header (record : DeliveryRecord) :
    (record.advance).1.peer = record.peer ∧
    (record.advance).1.sessionId = record.sessionId ∧
    (record.advance).1.sequenceNumber = record.sequenceNumber ∧
    (record.advance).1.messageId = record.messageId := by
  unfold DeliveryRecord.advance
  split <;> exact ⟨rfl, rfl, rfl, rfl⟩

theorem advance_stage_appAcked (hstage : record.stage = .appAcked) :
    (record.advance).1.stage = .appAcked := by
  simp [DeliveryRecord.advance, hstage]

/-- What a handler sends at its next stage. -/
theorem mem_advance_packets {packet : NetPacket}
    (hmem : packet ∈ (record.advance).2) :
    packet = .ack ⟨record.sessionId, record.sequenceNumber⟩ ∨
      (packet = .appAck ⟨record.sessionId, record.sequenceNumber⟩ ∧
        (record.advance).1.stage = .appAcked) := by
  unfold DeliveryRecord.advance at hmem ⊢
  split at hmem
  · exact Or.inl (by simpa using hmem)
  · simp at hmem
  · exact Or.inr ⟨by simpa using hmem, by simp⟩
  · simp at hmem

/-- A record seen before the step is still there, one stage on at most. -/
theorem mem_records_set {records : List DeliveryRecord} {index : Nat}
    (hget : records[index]? = some record) {other : DeliveryRecord}
    (hmem : other ∈ records) :
    ∃ other' ∈ records.set index (record.advance).1,
      other' = other ∨ other' = (other.advance).1 := by
  obtain ⟨i, hi⟩ := getElem?_of_mem hmem
  by_cases hindex : index = i
  · subst hindex
    rw [hget, Option.some.injEq] at hi
    subst hi
    exact ⟨_, List.mem_set (List.getElem?_eq_some_iff.mp hget).1 _, Or.inr rfl⟩
  · have hkept : (records.set index (record.advance).1)[i]? = some other := by
      rw [getElem?_set_ne hindex, hi]
    exact ⟨other, mem_of_getElem? hkept, Or.inl rfl⟩

theorem Traced.peerAdvance (htraced : Traced peerOf world) (index : Nat) :
    Traced peerOf (world.peerAdvance index) := by
  unfold DeliveryWorld.peerAdvance
  split
  · exact htraced
  · next record hget =>
    have hrecord := mem_of_getElem? hget
    have hadvanced : (record.advance).1 ∈
        world.records.set index (record.advance).1 :=
      List.mem_set (List.getElem?_eq_some_iff.mp hget).1 _
    obtain ⟨hpeer, hid, hseq, hmessage⟩ := advance_header record
    constructor
    · exact htraced.objects
    · exact htraced.peerIndexed
    · exact htraced.peerObjects
    · intro messageId payload hmem
      rcases mem_append.mp hmem with hold | hnew
      · exact htraced.data messageId payload hold
      · rcases mem_advance_packets hnew with heq | ⟨heq, _⟩ <;> cases heq
    · intro other hmem
      rcases mem_or_eq_of_mem_set hmem with hold | rfl
      · obtain ⟨howner, payload, hsent, hheader⟩ := htraced.record other hold
        exact ⟨howner, payload, mem_append_left _ hsent, hheader⟩
      · obtain ⟨howner, payload, hsent, hheader⟩ :=
          htraced.record record hrecord
        rw [hpeer, hid, hseq, hmessage]
        exact ⟨howner, payload, mem_append_left _ hsent, hheader⟩
    · intro ack hmem
      rcases mem_append.mp hmem with hold | hnew
      · obtain ⟨other, hother, hsession, hnumber⟩ := htraced.ack ack hold
        obtain ⟨other', hmem', rfl | rfl⟩ := mem_records_set hget hother
        · exact ⟨_, hmem', hsession, hnumber⟩
        · obtain ⟨_, hid', hseq', _⟩ := advance_header other
          exact ⟨_, hmem', hid'.trans hsession, hseq'.trans hnumber⟩
      · rcases mem_advance_packets hnew with heq | ⟨heq, _⟩
        · cases heq
          exact ⟨_, hadvanced, hid, hseq⟩
        · cases heq
    · intro ack hmem
      rcases mem_append.mp hmem with hold | hnew
      · obtain ⟨other, hother, hsession, hnumber, hstage⟩ :=
          htraced.appAck ack hold
        obtain ⟨other', hmem', rfl | rfl⟩ := mem_records_set hget hother
        · exact ⟨_, hmem', hsession, hnumber, hstage⟩
        · obtain ⟨_, hid', hseq', _⟩ := advance_header other
          exact ⟨_, hmem', hid'.trans hsession, hseq'.trans hnumber,
            advance_stage_appAcked hstage⟩
      · rcases mem_advance_packets hnew with heq | ⟨heq, hstage⟩
        · cases heq
        · cases heq
          exact ⟨_, hadvanced, hid, hseq, hstage⟩

theorem Traced.connect (htraced : Traced peerOf world)
    (howner : peerOf session.sessionId = session.remotePeerId) :
    Traced peerOf (world.connect session) := by
  unfold DeliveryWorld.connect
  split
  · next _ hreg =>
    refine htraced.withRegistry ?_
    rw [objects_register hreg]
    intro object hmem
    rcases mem_append.mp hmem with hold | hnew
    · exact htraced.objects object hold
    · rw [mem_singleton] at hnew
      exact hnew ▸ howner
  · exact htraced

theorem Traced.peerConnect (htraced : Traced peerOf world)
    (howner : peerOf session.sessionId = peer) :
    Traced peerOf (world.peerConnect peer session) := by
  unfold DeliveryWorld.peerConnect
  split
  · next _ hreg =>
    refine htraced.withPeer peer ((htraced.peerIndexed peer).register hreg) ?_
    rw [objects_register hreg]
    intro object hmem
    rcases mem_append.mp hmem with hold | hnew
    · exact htraced.peerObjects peer object hold
    · rw [mem_singleton] at hnew
      exact hnew ▸ howner
  · exact htraced

theorem keepsReceivers_handleAck (queue : QueueManager) (ack : AckPayload) :
    KeepsReceivers queue (queue.handleAck ack).1 := by
  unfold handleAck
  split
  · exact keepsReceivers_refl queue
  · exact keepsReceivers_modify queue _ fun _ => rfl

theorem keepsReceivers_acknowledge (queue : QueueManager) (peerId : PeerId)
    (seq : Nat) :
    KeepsReceivers queue (queue.acknowledgeBySequence peerId seq).1 := by
  unfold acknowledgeBySequence
  split
  · exact keepsReceivers_refl queue
  · exact keepsReceivers_modify queue _ fun _ => rfl

theorem keepsReceivers_handleTimeout (queue : QueueManager)
    (messageId : MessageId) :
    KeepsReceivers queue (queue.handleTimeout messageId).1 := by
  unfold handleTimeout
  split
  · exact keepsReceivers_refl queue
  · exact keepsReceivers_modify queue messageId QueueEntry.timedOut_receiver

/-- Every event keeps the trail. -/
theorem Traced.step (htraced : Traced peerOf world) (event : DeliveryEvent) :
    Traced peerOf (world.step P peerOf event) := by
  cases event with
  | enqueue _ receiver plaintext =>
    simp only [DeliveryWorld.step]
    split
    · exact htraced
    · next hfresh =>
      exact htraced.withQueue (keepsReceivers_enqueue
        (Bool.eq_false_of_not_eq_true hfresh) receiver plaintext)
  | connect =>
    simp only [DeliveryWorld.step]
    split
    · next howner => exact htraced.connect howner
    · exact htraced
  | disconnect =>
    refine htraced.withRegistry ?_
    simpa using htraced.objects
  | build messageId ref now => exact htraced.build messageId ref now
  | timeout =>
    exact htraced.withQueue (keepsReceivers_handleTimeout _ _)
  | receiveSync sync now => exact htraced.receiveSync sync now
  | receiveAck =>
    simp only [DeliveryWorld.step]
    split
    · exact htraced.withQueue (keepsReceivers_handleAck _ _)
    · exact htraced
  | receiveAppAck =>
    simp only [DeliveryWorld.step]
    split
    · unfold DeliveryWorld.receiveAppAck
      split
      · exact htraced
      · exact htraced.withQueue (keepsReceivers_acknowledge _ _ _)
    · exact htraced
  | peerConnect =>
    simp only [DeliveryWorld.step]
    split
    · next hguard => exact htraced.peerConnect hguard.1
    · exact htraced
  | peerDisconnect peer sessionId =>
    refine htraced.withPeer peer
      ((htraced.peerIndexed peer).remove sessionId) ?_
    simpa using htraced.peerObjects peer
  | peerReceive =>
    simp only [DeliveryWorld.step]
    split
    · next hsent => exact htraced.peerReceive hsent
    · exact htraced
  | peerAdvance index => exact htraced.peerAdvance index

/-- No packet and no receipt is ever without its trail. -/
theorem deliveries_traced (P : Primitives) (peerOf : Bytes → PeerId)
    (events : List DeliveryEvent) :
    Along (step P peerOf) (Traced peerOf) initial events :=
  fun pre _ => inv_run (fun _ event htraced => htraced.step event)
    traced_initial pre

end DeliveryWorld

end AshiChat
