/-
How often a message is displayed.  A receiver recognises a repeated packet by
the number within its session; a retry takes a new number and a SYNC after a
reconnect repeats the old number in a new session, so both look like new
messages.
-/
import AshiChat.Delivery
import AshiChat.Reference

namespace AshiChat

open QueueManager EventRun List SessionRegistry OrderedDict DeliveryWorld

/-- What a receiver tells packets apart by. -/
def DataPayload.header (payload : DataPayload) : Bytes × Nat :=
  (payload.sessionId, payload.sequenceNumber)

/-- A DATA packet has the header that is given for its message, if one is. -/
def NetPacket.agrees (header? : MessageId → Option (Bytes × Nat)) :
    NetPacket → Bool
  | .data messageId payload => (header? messageId).all (· == payload.header)
  | _ => true

/-- The callbacks of `on_message_received` ran for this record. -/
def DeliveryRecord.shown (record : DeliveryRecord) : Bool :=
  record.stage == .displayed || record.stage == .appAcked

namespace DeliveryWorld

/-- No message was displayed twice. -/
def DisplayedOnce (world : DeliveryWorld) : Prop :=
  ((world.records.filter DeliveryRecord.shown).map
    DeliveryRecord.messageId).Nodup

/-- The header under which an event sends a message: `build_data_packet` draws
the next number of the session, a SYNC is answered with the number of the
entry in the session that asks. -/
def sendHeader? (world : DeliveryWorld) : DeliveryEvent → MessageId →
    Option (Bytes × Nat)
  | .build messageId ref _, sent => do
    let session ← world.registry.objects[ref]?
    let entry ← world.queue.get? messageId
    if sent = messageId ∧ entry.status = .queued then
      some (session.sessionId, session.sendSequence)
    else none
  | .receiveSync sync _, sent => do
    let (_, session) ← world.registry.getBySessionId sync.sessionId
    let entry ← world.queue.get? sent
    let seq ← entry.sequenceNumber
    if Missed session sync.sequenceNumber entry seq then
      some (session.sessionId, seq)
    else none
  | _, _ => none

/-- A message that has been sent before is sent again only under the session
id and the number it was sent with. -/
def ResendsSameHeader (world : DeliveryWorld) (event : DeliveryEvent) : Prop :=
  ∀ packet ∈ world.net, packet.agrees (world.sendHeader? event) = true

instance (world : DeliveryWorld) (event : DeliveryEvent) :
    Decidable (world.ResendsSameHeader event) :=
  inferInstanceAs (Decidable (∀ packet ∈ world.net, _))

/-- All packets of a message carry one header. -/
def OneHeader (world : DeliveryWorld) : Prop :=
  ∀ messageId payload other, .data messageId payload ∈ world.net →
    .data messageId other ∈ world.net → payload.header = other.header

/-- The receive counters cover every record, and each message has one. -/
structure Counted (world : DeliveryWorld) : Prop where
  uniqueIds : ∀ peer, ((world.peers peer).objects.map Session.sessionId).Nodup
  registered : ∀ record ∈ world.records,
    record.sessionId ∈ (world.peers record.peer).objects.map Session.sessionId
  covered : ∀ record ∈ world.records,
    ∀ session ∈ (world.peers record.peer).objects,
      session.sessionId = record.sessionId →
      record.sequenceNumber ≤ session.recvSequence
  once : (world.records.map DeliveryRecord.messageId).Nodup

theorem counted_initial : Counted initial where
  uniqueIds := by simp [initial, SessionRegistry.empty]
  registered := by simp [initial]
  covered := by simp [initial]
  once := by simp [initial]

theorem Counted.displayedOnce {world : DeliveryWorld}
    (hcounted : Counted world) : world.DisplayedOnce :=
  hcounted.once.sublist (List.Sublist.map _ filter_sublist)

/-- Events on the node's side leave peers and records alone. -/
theorem Counted.of_same {before after : DeliveryWorld}
    (hcounted : Counted before) (hpeers : after.peers = before.peers)
    (hrecords : after.records = before.records) : Counted after := by
  constructor
  · rw [hpeers]; exact hcounted.uniqueIds
  · rw [hpeers, hrecords]; exact hcounted.registered
  · rw [hpeers, hrecords]; exact hcounted.covered
  · rw [hrecords]; exact hcounted.once

section

variable {P : Primitives} {peerOf : Bytes → PeerId} {world : DeliveryWorld}

variable {peer : PeerId}

section

variable (hcounted : Counted world)

include hcounted

/-- Another registry at one peer: ids stay unique and known, and the counters
still cover the records. -/
theorem Counted.withRegistry {registry : SessionRegistry}
    (hunique : (registry.objects.map Session.sessionId).Nodup)
    (hkept : ∀ sessionId ∈ (world.peers peer).objects.map Session.sessionId,
      sessionId ∈ registry.objects.map Session.sessionId)
    (hcovered : ∀ record ∈ world.records, record.peer = peer →
      ∀ session ∈ registry.objects, session.sessionId = record.sessionId →
        record.sequenceNumber ≤ session.recvSequence) :
    Counted { world with
      peers := Function.update world.peers peer registry } := by
  constructor
  · intro other
    by_cases hpeer : other = peer
    · subst hpeer
      simpa using hunique
    · simpa [hpeer] using hcounted.uniqueIds other
  · intro record hmem
    have hold := hcounted.registered record hmem
    by_cases hpeer : record.peer = peer
    · rw [hpeer] at hold ⊢
      simpa using hkept _ hold
    · simpa [hpeer] using hold
  · intro record hmem session hsession
    by_cases hpeer : record.peer = peer
    · rw [hpeer] at hsession
      simp only [Function.update_self] at hsession
      exact hcovered record hmem hpeer session hsession
    · simp only [Function.update_of_ne hpeer] at hsession
      exact hcounted.covered record hmem session hsession
  · exact hcounted.once

/-- One more record, of a message that had none. -/
theorem Counted.withRecord {record : DeliveryRecord}
    (hregistered : record.sessionId ∈
      (world.peers record.peer).objects.map Session.sessionId)
    (hcovered : ∀ session ∈ (world.peers record.peer).objects,
      session.sessionId = record.sessionId →
        record.sequenceNumber ≤ session.recvSequence)
    (hnew : ∀ old ∈ world.records, old.messageId ≠ record.messageId) :
    Counted { world with records := world.records ++ [record] } := by
  constructor
  · exact hcounted.uniqueIds
  · intro other hmem
    rcases mem_append.mp hmem with hold | hlast
    · exact hcounted.registered other hold
    · cases mem_singleton.mp hlast
      exact hregistered
  · intro other hmem
    rcases mem_append.mp hmem with hold | hlast
    · exact hcounted.covered other hold
    · cases mem_singleton.mp hlast
      exact hcovered
  · simp only [map_append, map_cons, map_nil]
    refine nodup_append.mpr ⟨hcounted.once, by simp, ?_⟩
    intro message hmessage other hother
    obtain ⟨old, hold, rfl⟩ := mem_map.mp hmessage
    rw [mem_singleton.mp hother]
    exact hnew old hold

/-- A new session with an unused id at a peer. -/
theorem Counted.peerConnect {session : Session} (hfresh : session.sessionId ∉
      (world.peers peer).objects.map Session.sessionId) :
    Counted (world.peerConnect peer session) := by
  unfold DeliveryWorld.peerConnect
  split
  · next _ hreg =>
    have hobjects := objects_register hreg
    refine hcounted.withRegistry ?_ ?_ ?_
    · rw [hobjects, map_append]
      refine nodup_append.mpr ⟨hcounted.uniqueIds peer, by simp, ?_⟩
      intro old hold new hnew heq
      simp only [map_cons, map_nil, mem_singleton] at hnew
      exact hfresh (hnew ▸ heq ▸ hold)
    · intro sessionId hold
      rw [hobjects, map_append]
      exact mem_append_left _ hold
    · intro record hmem hpeer object hobject hid
      rw [hobjects] at hobject
      rcases mem_append.mp hobject with hold | hnew
      · exact hcounted.covered record hmem object (hpeer ▸ hold) hid
      · cases mem_singleton.mp hnew
        have hold := hcounted.registered record hmem
        rw [hpeer, ← hid] at hold
        exact absurd hold hfresh
  · exact hcounted

theorem Counted.peerDisconnect (peer : PeerId) (sessionId : Bytes) :
    Counted { world with
      peers := Function.update world.peers peer
        ((world.peers peer).remove sessionId) } := by
  have hobjects : ((world.peers peer).remove sessionId).objects =
      (world.peers peer).objects := by simp
  refine hcounted.withRegistry ?_ ?_ ?_
  · rw [hobjects]
    exact hcounted.uniqueIds peer
  · rw [hobjects]
    exact fun _ hold => hold
  · intro record hmem hpeer session hsession
    rw [hobjects, ← hpeer] at hsession
    exact hcounted.covered record hmem session hsession

theorem Counted.peerReceive (htraced : Traced peerOf world)
    (hone : world.OneHeader) {messageId : MessageId} {payload : DataPayload}
    (hsent : .data messageId payload ∈ world.net) :
    Counted (world.peerReceive P peer messageId payload) := by
  rcases peerReceive_cases P world peer messageId payload with
    hsame | ⟨ref, session, session', _, hlookup, hdec, hstep⟩
  · rwa [hsame]
  rw [hstep]
  obtain ⟨hcheck, hsession⟩ := decryptDataPacket_eq_some hdec
  have hobject := (getBySessionId_eq_some hlookup).2
  have hmem := mem_of_getElem? hobject
  have hid := (htraced.peerIndexed peer).sessionId_eq hlookup
  have hlt : session.recvSequence < payload.sequenceNumber := by
    simpa [Session.checkRecvSequence] using hcheck
  have hids := map_objects_update Session.sessionId hobject
    (show session'.sessionId = session.sessionId by rw [hsession])
  have hunique := hids ▸ hcounted.uniqueIds peer
  have hraised := hcounted.withRegistry hunique (fun _ hold => hids ▸ hold) (by
    intro record hrecord hpeer object hobject' hobjectId
    rcases mem_objects_update hobject' with hkept | rfl
    · exact hcounted.covered record hrecord object (hpeer ▸ hkept) hobjectId
    · have hbefore := hcounted.covered record hrecord session (hpeer ▸ hmem)
        (by rw [← hobjectId, hsession])
      rw [hsession]
      exact hbefore.trans hlt.le)
  refine hraised.withRecord ?_ ?_ ?_
  · simp only [Function.update_self]
    rw [hids]
    exact mem_map.mpr ⟨session, hmem, hid⟩
  · -- Ids are unique, so the object is the one just moved.
    intro object hobject' hobjectId
    simp only [Function.update_self] at hobject' hobjectId ⊢
    have hmoved : session' ∈ ((world.peers peer).update ref session').objects :=
      List.mem_set (List.getElem?_eq_some_iff.mp hobject).1 _
    have heq : object = session' := inj_on_of_nodup_map hunique
      hobject' hmoved (by rw [hobjectId, hsession, hid])
    rw [heq, hsession]
  · -- A record of this message would carry the number that was just let pass.
    intro record hrecord hsameMessage
    obtain ⟨howner, _, hfirst, hfirstId, hfirstSeq⟩ :=
      htraced.record record hrecord
    rw [hsameMessage] at hfirst
    obtain ⟨hsameId, hsameSeq⟩ := Prod.mk.inj (hone _ _ _ hfirst hsent)
    have hrecordId := hfirstId.symm.trans hsameId
    have hrecordSeq := hfirstSeq.symm.trans hsameSeq
    have hpeer : record.peer = peer := by
      rw [← howner, hrecordId, ← hid, htraced.peerObjects peer session hmem]
    have hcovered := hcounted.covered record hrecord session (hpeer ▸ hmem)
      (hid.trans hrecordId.symm)
    omega

theorem Counted.peerAdvance (index : Nat) :
    Counted (world.peerAdvance index) := by
  unfold DeliveryWorld.peerAdvance
  split
  · exact hcounted
  · next record hget =>
    obtain ⟨hpeer, hid, hseq, hmessage⟩ := advance_header record
    have hrecord := mem_of_getElem? hget
    constructor
    · exact hcounted.uniqueIds
    · intro other hmem
      rcases mem_or_eq_of_mem_set hmem with hold | rfl
      · exact hcounted.registered other hold
      · rw [hpeer, hid]
        exact hcounted.registered record hrecord
    · intro other hmem
      rcases mem_or_eq_of_mem_set hmem with hold | rfl
      · exact hcounted.covered other hold
      · rw [hpeer, hid, hseq]
        exact hcounted.covered record hrecord
    · have hsame : (world.records.map DeliveryRecord.messageId)[index]? =
          some record.advance.1.messageId := by
        rw [getElem?_map, hget, hmessage]
        rfl
      obtain ⟨hlt, hvalue⟩ := List.getElem?_eq_some_iff.mp hsame
      simp only [map_set]
      rw [← hvalue, set_getElem_self hlt]
      exact hcounted.once

theorem Counted.step (htraced : Traced peerOf world) (hone : world.OneHeader)
    (event : DeliveryEvent) : Counted (world.step P peerOf event) := by
  cases event with
  | enqueue =>
    simp only [DeliveryWorld.step]
    split
    · exact hcounted
    · exact hcounted.of_same rfl rfl
  | connect =>
    simp only [DeliveryWorld.step, DeliveryWorld.connect]
    repeat' split
    all_goals exact hcounted.of_same rfl rfl
  | disconnect => exact hcounted.of_same rfl rfl
  | build messageId ref now =>
    obtain ⟨hpeers, hrecords⟩ := build_frame messageId ref now
    exact hcounted.of_same hpeers hrecords
  | timeout => exact hcounted.of_same rfl rfl
  | receiveSync =>
    simp only [DeliveryWorld.step, DeliveryWorld.receiveSync]
    split
    · exact hcounted
    · exact hcounted.of_same rfl rfl
  | receiveAck =>
    simp only [DeliveryWorld.step]
    split
    · exact hcounted.of_same rfl rfl
    · exact hcounted
  | receiveAppAck =>
    simp only [DeliveryWorld.step, DeliveryWorld.receiveAppAck]
    repeat' split
    all_goals exact hcounted.of_same rfl rfl
  | peerConnect =>
    simp only [DeliveryWorld.step]
    split
    · next hguard => exact hcounted.peerConnect hguard.2
    · exact hcounted
  | peerDisconnect peer sessionId => exact hcounted.peerDisconnect peer sessionId
  | peerReceive =>
    simp only [DeliveryWorld.step]
    split
    · next hsent => exact hcounted.peerReceive htraced hone hsent
    · exact hcounted
  | peerAdvance index => exact hcounted.peerAdvance index

end

/-- A DATA packet on the network was there before or has just been sent. -/
theorem data_step {event : DeliveryEvent} {messageId : MessageId}
    {payload : DataPayload}
    (hmem : .data messageId payload ∈ (world.step P peerOf event).net) :
    .data messageId payload ∈ world.net ∨
      world.sendHeader? event messageId = some payload.header := by
  cases event with
  | build =>
    simp only [step, build] at hmem
    split at hmem
    · next session entry hobject hentry =>
      split at hmem
      · refine (mem_append.mp hmem).imp_right fun hnew => ?_
        unfold builtPacket at hnew
        split at hnew
        · next _ hbuilt =>
          obtain ⟨_, hqueued, hstatus, hseal⟩ := buildDataPacket_eq_some hbuilt
          obtain ⟨rfl, rfl⟩ := NetPacket.data.inj (mem_singleton.mp hnew)
          obtain ⟨hid, hseq⟩ := sealData_header hseal
          simp [sendHeader?, hobject, hqueued, hstatus,
            DataPayload.header, hid, hseq]
        · cases hnew
      · exact .inl hmem
    · exact .inl hmem
  | receiveSync sync now =>
    simp only [step, receiveSync] at hmem
    split at hmem
    · exact .inl hmem
    · next _ session hlookup =>
      refine (mem_append.mp hmem).imp_right fun hnew => ?_
      obtain ⟨resent, hresent, heq⟩ := mem_map.mp hnew
      obtain ⟨rfl, rfl⟩ := NetPacket.data.inj heq
      obtain ⟨entry, _, hentry, hmissed, hseal⟩ := resendMissed_sound P session
        sync.sequenceNumber now (SameCore.refl world.queue) world.queue.entries
        (fun _ hmem => get?_eq_of_mem_entries _ hmem) resent hresent
      obtain ⟨hid, hseq⟩ := sealData_header hseal
      have hget := get?_eq_of_mem_entries _ hentry
      simp [sendHeader?, hlookup, hget, hmissed.2.1, hmissed,
        DataPayload.header, hid, hseq]
  | peerAdvance =>
    refine .inl ?_
    simp only [step, peerAdvance] at hmem
    split at hmem
    · exact hmem
    · refine (mem_append.mp hmem).resolve_right fun hnew => ?_
      rcases mem_advance_packets hnew with heq | ⟨heq, -⟩ <;> cases heq
  | _ =>
    refine .inl ?_
    simp only [step, connect, receiveAppAck, peerConnect, peerReceive] at hmem
    repeat' split at hmem
    all_goals exact hmem

theorem OneHeader.step (hone : world.OneHeader) {event : DeliveryEvent}
    (hsame : world.ResendsSameHeader event) :
    (world.step P peerOf event).OneHeader := by
  have hrepeats : ∀ messageId payload header,
      .data messageId payload ∈ world.net →
        world.sendHeader? event messageId = some header →
          payload.header = header := by
    intro messageId payload header hsent hheader
    have hagrees := hsame _ hsent
    simp only [NetPacket.agrees, hheader, Option.all_some, beq_iff_eq]
      at hagrees
    exact hagrees.symm
  intro messageId payload other hpayload hother
  rcases data_step hpayload with hold | hnew
  · rcases data_step hother with hold' | hnew'
    · exact hone messageId payload other hold hold'
    · exact hrepeats messageId payload _ hold hnew'
  · rcases data_step hother with hold' | hnew'
    · exact (hrepeats messageId other _ hold' hnew).symm
    · exact Option.some.inj (hnew.symm.trans hnew')

end

end DeliveryWorld

/-- In every run in which a message is sent again only under its first session
id and number, no message is displayed twice. -/
theorem displayed_at_most_once (P : Primitives) (peerOf : Bytes → PeerId)
    {events : List DeliveryEvent}
    (hsame : EveryStep (step P peerOf)
      DeliveryWorld.ResendsSameHeader .initial events) :
    Along (step P peerOf) DeliveryWorld.DisplayedOnce .initial events := by
  have hkeep : ∀ (world : DeliveryWorld) event,
      world.Traced peerOf ∧ world.OneHeader ∧ world.Counted →
      world.ResendsSameHeader event →
      (world.step P peerOf event).Traced peerOf ∧
        (world.step P peerOf event).OneHeader ∧
        (world.step P peerOf event).Counted :=
    fun _ event hinv hgood => ⟨hinv.1.step event, hinv.2.1.step hgood,
      hinv.2.2.step hinv.1 hinv.2.1 event⟩
  refine along_of_everyStep hkeep (fun _ hinv => hinv.2.2.displayedOnce)
    ⟨traced_initial, ?_, counted_initial⟩ hsame
  simp [DeliveryWorld.OneHeader, initial]

namespace DisplayWitness

open Reference

instance (world : DeliveryWorld) : Decidable world.DisplayedOnce :=
  inferInstanceAs (Decidable (List.Nodup _))

def peer : PeerId := replicate 32 1

def self : PeerId := replicate 32 2

def session (remote : PeerId) : Session where
  sessionId := replicate 8 9
  encryptionKey := replicate 32 9
  remotePeerId := remote

def packet (seq : Nat) : DataPayload :=
  sealPayload primitives (session peer) seq [104, 105]

/-- A message arrives and is displayed. -/
def firstCopy : List DeliveryEvent :=
  [.connect (session peer), .peerConnect peer (session self),
    .enqueue 1 peer [104, 105], .build 1 0 0, .peerReceive peer 1 (packet 1),
    .peerAdvance 0, .peerAdvance 0]

/-- Its ACK is lost; the retry goes out under a new number. -/
def retriedCopy : List DeliveryEvent :=
  firstCopy ++ [.timeout 1, .build 1 0 10, .peerReceive peer 1 (packet 2),
    .peerAdvance 1, .peerAdvance 1]

theorem retry_displayed_twice : ¬ Along (step primitives fun _ => peer)
      DeliveryWorld.DisplayedOnce .initial retriedCopy := by
  intro halong
  have htwice : ¬ (run (step primitives
      fun _ => peer) .initial retriedCopy).DisplayedOnce := by decide +kernel
  exact htwice (halong retriedCopy prefix_rfl)

/-- The network repeats the packet itself. -/
theorem duplicated_packet_displayed_once :
    EveryStep (step primitives fun _ => peer)
        DeliveryWorld.ResendsSameHeader .initial
        (firstCopy ++ [.receiveSync ⟨(session peer).sessionId, 0⟩ 10,
          .peerReceive peer 1 (packet 1)]) ∧
      Along (step primitives fun _ => peer) DeliveryWorld.DisplayedOnce .initial
        (firstCopy ++ [.receiveSync ⟨(session peer).sessionId, 0⟩ 10,
          .peerReceive peer 1 (packet 1)]) := by
  have hsame : EveryStep (step primitives fun _ => peer)
      DeliveryWorld.ResendsSameHeader .initial
      (firstCopy ++ [.receiveSync ⟨(session peer).sessionId, 0⟩ 10,
        .peerReceive peer 1 (packet 1)]) := by
    decide +kernel
  exact ⟨hsame, displayed_at_most_once primitives _ hsame⟩

end DisplayWitness

end AshiChat
