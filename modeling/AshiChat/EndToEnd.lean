/-
Two honest ends and the wire between them: what one side sends, the other side
decodes from the bytes and processes.  First the handshake
(`handshake.py`), then one DATA message through queue, encryption, payload
layout and frame (`queue_manager.py`, `crypto.py`, `packet.py`).
-/
import AshiChat.Handshake
import AshiChat.QueueManager
import AshiChat.WireRoundTrip
import AshiChat.Reference

namespace AshiChat

open List DataPayload QueueManager

/-- What the peer decodes from the bytes of a packet. -/
def Packet.overWire (packet : Packet) : Except PyError Packet := do
  Packet.deserialize (← packet.serialize)

theorem overWire_makePacket (packetType : PacketType) {payload : Bytes}
    (hfits : payload.length ≤ maxPayloadSize) :
    (makePacket packetType payload).overWire =
      .ok (makePacket packetType payload) := by
  obtain ⟨_, hdata, hpacket⟩ := Packet.deserialize_serialize packetType hfits
  simp only [Packet.overWire, hdata, bind, Except.bind, hpacket]

section

variable {P : Primitives} (identity : LocalIdentity P)

theorem length_helloPayload_serialize (draw : HelloDraw) :
    (helloPayload identity draw).serialize.length = 144 := by
  obtain ⟨hid, heph, hnonce, hsig⟩ := helloPayload_sized identity draw
  simp [HelloPayload.serialize, hid, heph, hnonce, hsig]

theorem length_ackPayload_serialize (hello : HelloPayload) (draw : AckDraw) :
    (ackPayload identity hello draw).serialize.length = 152 := by
  obtain ⟨hid, heph, hsession, hnonce, hsig⟩ :=
    ackPayload_sized identity hello draw
  simp [HelloAckPayload.serialize, hid, heph, hsession, hnonce, hsig]

/-- An honest HELLO passes both checks of a responder that knows its sender. -/
theorem helloVerifies_helloPayload (hsignatures : P.SignaturesVerify)
    (draw : HelloDraw) {known : List PeerId} (hknown : identity.peerId ∈ known) :
    helloVerifies P known (helloPayload identity draw) = true := by
  have hsig : P.ed25519Verify identity.publicKeyBytes
      (identity.sign (helloSignedData (P.x25519PublicKey draw.ephemeral.val)
        draw.nonce.val))
      (helloSignedData (P.x25519PublicKey draw.ephemeral.val)
        draw.nonce.val) = true := by
    rw [identity.publicKeyBytes_eq]
    exact hsignatures ..
  simp [helloVerifies, helloPayload, verifySignature, hsig,
    ← identity.peerId_eq, hknown]

/-- An honest answer passes both checks of the initiator it is meant for. -/
theorem ackVerifies_ackPayload (hsignatures : P.SignaturesVerify)
    (initiator : LocalIdentity P) (helloDraw : HelloDraw) (draw : AckDraw)
    {known : List PeerId} (hknown : identity.peerId ∈ known) :
    ackVerifies P known (helloDraw.state P)
      (ackPayload identity (helloPayload initiator helloDraw) draw) = true := by
  have hsig : ∀ data, P.ed25519Verify identity.publicKeyBytes
      (identity.sign data) data = true := by
    intro data
    rw [identity.publicKeyBytes_eq]
    exact hsignatures ..
  simp [ackVerifies, ackPayload, helloPayload, HelloDraw.state, verifySignature,
    hsig, ← identity.peerId_eq, hknown]

end

/-- Two ends that know each other always complete the handshake, over the wire
and back, with the same key and the same session id. -/
theorem handshake_completes {P : Primitives} (hexchange : P.ExchangeAgrees)
    (hsignatures : P.SignaturesVerify) (initiator responder : LocalIdentity P)
    {knownInitiator knownResponder : List PeerId}
    (hresponder : responder.peerId ∈ knownInitiator)
    (hinitiator : initiator.peerId ∈ knownResponder)
    (helloDraw : HelloDraw) (ackDraw : AckDraw) :
    ∃ hello reply ack responderKeys initiatorKeys,
      (createHello initiator helloDraw).1.overWire = .ok hello ∧
      processHello hello knownResponder responder ackDraw =
        .ok (some (reply, responderKeys)) ∧
      reply.overWire = .ok ack ∧
      processHelloAck P ack (createHello initiator helloDraw).2
        knownInitiator = .ok (some initiatorKeys) ∧
      initiatorKeys.encryptionKey = responderKeys.encryptionKey ∧
      initiatorKeys.sessionId = responderKeys.sessionId ∧
      initiatorKeys.remotePeerId = responder.peerId ∧
      responderKeys.remotePeerId = initiator.peerId := by
  obtain ⟨secret, hleft, hright⟩ :=
    hexchange helloDraw.ephemeral ackDraw.ephemeral
  have hhello := HelloPayload.deserialize_serialize
    (helloPayload_sized initiator helloDraw)
  have hack := HelloAckPayload.deserialize_serialize
    (ackPayload_sized responder (helloPayload initiator helloDraw) ackDraw)
  refine ⟨_, _, _, _, _, overWire_makePacket .hello (by
      rw [length_helloPayload_serialize]
      decide),
    processHello_eq_some_iff.mpr ⟨_, secret, hhello,
      helloVerifies_helloPayload initiator hsignatures helloDraw hinitiator,
      hright, rfl, rfl⟩,
    overWire_makePacket .helloAck (by
      rw [length_ackPayload_serialize]
      decide),
    processHelloAck_eq_some_iff.mpr ⟨_, secret, hack,
      ackVerifies_ackPayload responder hsignatures initiator helloDraw ackDraw
        hresponder, hleft, rfl⟩,
    rfl, rfl, ?_, ?_⟩
  · exact responder.peerId_eq.symm
  · exact initiator.peerId_eq.symm

open QueueManager

/-- The longest message one packet holds: 32 bytes of the payload are not
ciphertext. -/
def maxPlaintext : Nat := maxPayloadSize - 32

theorem encryptable_of_le {plaintext : Bytes}
    (hlen : plaintext.length ≤ maxPlaintext) : Encryptable plaintext := by
  unfold Encryptable maxAeadData
  unfold maxPlaintext maxPayloadSize at hlen
  omega

/-- A sealed message of that length fits the wire fields and the frame. -/
theorem sealPayload_sized (P : Primitives) {session : Session}
    (hid : session.sessionId.length = 8) {seq : Nat} (hseq : seq < 2 ^ 32)
    {plaintext : Bytes} (hlen : plaintext.length ≤ maxPlaintext) :
    (sealPayload P session seq plaintext).Sized where
  sessionId := hid
  sequenceNumber := hseq
  authTag := by
    simp only [sealPayload, length_drop, P.aesGcmEncrypt_length]
    omega
  fits := by
    unfold maxPlaintext maxPayloadSize at hlen
    simp only [sealPayload, sealCall, length_take,
      P.aesGcmEncrypt_length, maxPayloadSize]
    omega

theorem length_serialize_of_sized {payload : DataPayload}
    (hsized : payload.Sized) {bytes : Bytes}
    (hbytes : payload.serialize = .ok bytes) :
    bytes.length ≤ maxPayloadSize := by
  rw [serialize_ok hsized, Except.ok.injEq] at hbytes
  have hfits := hsized.fits
  simp only [← hbytes, length_append, hsized.sessionId, hsized.authTag,
    BigEndian.length_encode]
  omega

theorem readyPlaintext?_enqueue (queue : QueueManager) (messageId : MessageId)
    (receiver : PeerId) (plaintext : Bytes) :
    readyPlaintext? (queue.enqueue messageId receiver plaintext) messageId =
      some plaintext := by
  simp [readyPlaintext?, enqueue]

/-- The other end opens what this end sealed, and its counter follows. -/
theorem decryptDataPacket_of_peer {P : Primitives} (hundo : P.DecryptUndoes)
    {sender recipient : Session} (hkeyed : sender.Keyed)
    (hid : recipient.sessionId = sender.sessionId)
    (hkey : recipient.encryptionKey = sender.encryptionKey) {seq : Nat}
    (hseq : seq < 2 ^ 32) (hnew : recipient.recvSequence < seq)
    (plaintext : Bytes) :
    decryptDataPacket P (sealPayload P sender seq plaintext) recipient =
      (.ok (some plaintext), { recipient with recvSequence := seq }) := by
  have hrecipient : recipient.Keyed :=
    ⟨hid ▸ hkeyed.sessionId, hkey ▸ hkeyed.encryptionKey⟩
  have hsame : sealPayload P sender seq plaintext =
      sealPayload P recipient seq plaintext :=
    congrArg SealedData.payload
      (sealedWith_congr P hid.symm hkey.symm seq plaintext)
  rw [hsame, decryptDataPacket_sealPayload hundo hrecipient hseq,
    Session.checkRecvSequence, decide_eq_true hnew, if_pos rfl,
    Session.advanceRecvSequence, if_pos hnew]

/-- A message that fits one packet arrives: what is enqueued, built and
serialised is deserialised and decrypted at the other end. -/
theorem data_round_trip {P : Primitives} (hundo : P.DecryptUndoes)
    (queue : QueueManager) (messageId : MessageId) (receiver : PeerId)
    {plaintext : Bytes} (hlen : plaintext.length ≤ 65503)
    {sender recipient : Session} (hsession : sender.sessionId.length = 8)
    (haes : aesKeyOk sender.encryptionKey = true)
    (hid : recipient.sessionId = sender.sessionId)
    (hkey : recipient.encryptionKey = sender.encryptionKey)
    (hseq : sender.sendSequence < 2 ^ 32)
    (hnew : recipient.recvSequence < sender.sendSequence) (now : ℚ) :
    ∃ built data packet payload,
      (buildDataPacket P (queue.enqueue messageId receiver plaintext)
        messageId sender now).result = .ok (some built) ∧
      built.packet.serialize = .ok data ∧
      Packet.deserialize data = .ok packet ∧
      packet.packetType = .data ∧
      deserialize packet.payload = .ok payload ∧
      decryptDataPacket P payload recipient = (.ok (some plaintext),
          { recipient with recvSequence := built.sequenceNumber }) := by
  have hkeyed : sender.Keyed := ⟨hsession, haes⟩
  obtain ⟨_, hbytes, hbuild⟩ := buildDataPacket_of_ready P now
    (readyPlaintext?_enqueue queue messageId receiver plaintext) hkeyed hseq
    (encryptable_of_le hlen)
  have hsized := sealPayload_sized P hsession hseq hlen
  obtain ⟨data, hdata, hpacket⟩ := Packet.deserialize_serialize .data
    (length_serialize_of_sized hsized hbytes)
  refine ⟨_, data, _, _, by rw [hbuild], hdata, hpacket, rfl,
    deserialize_serialize hsized hbytes, ?_⟩
  exact decryptDataPacket_of_peer hundo hkeyed hid hkey hseq hnew plaintext

namespace EndToEndWitness

open Reference

def left : LocalIdentity primitives := .ofPrivateKey _ (replicate 32 1)

def right : LocalIdentity primitives := .ofPrivateKey _ (replicate 32 2)

theorem handshake_of_two : ∃ hello reply ack responderKeys initiatorKeys,
      (createHello left ⟨constant 32 3, constant 16 4⟩).1.overWire = .ok hello ∧
      processHello hello [left.peerId] right ⟨constant 32 5,
        constant 16 6, constant 8 7⟩ = .ok (some (reply, responderKeys)) ∧
      reply.overWire = .ok ack ∧
      processHelloAck primitives ack (createHello left ⟨constant 32 3,
          constant 16 4⟩).2 [right.peerId] = .ok (some initiatorKeys) ∧
      initiatorKeys.encryptionKey = responderKeys.encryptionKey ∧
      initiatorKeys.sessionId = responderKeys.sessionId ∧
      initiatorKeys.remotePeerId = right.peerId ∧
      responderKeys.remotePeerId = left.peerId :=
  handshake_completes exchangeAgrees signaturesVerify
    left right mem_cons_self mem_cons_self _ _

/-- The session about to use its last sequence number. -/
def session : Session where
  sessionId := replicate 8 7
  encryptionKey := replicate 32 8
  remotePeerId := right.peerId
  sendSequence := 2 ^ 32 - 1

/-- The longest message. -/
def longest : Bytes := replicate 65503 65

theorem longest_arrives : ∃ built data packet payload,
      (buildDataPacket primitives
        (enqueue .empty 0 right.peerId longest) 0 session
          0).result = .ok (some built) ∧
      built.packet.serialize = .ok data ∧
      Packet.deserialize data = .ok packet ∧
      packet.packetType = .data ∧
      deserialize packet.payload = .ok payload ∧
      decryptDataPacket primitives payload session = (.ok (some longest),
          { session with recvSequence := built.sequenceNumber }) :=
  data_round_trip idealAead.undoes .empty 0 right.peerId
    length_replicate.le (by decide) (by decide) rfl rfl (by decide)
    (by decide) 0

end EndToEndWitness

end AshiChat
