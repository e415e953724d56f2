/-
The binary wire format (`packet.py`): packets, the typed payloads of the
handshake and messaging types, and their byte layouts.  Integers are big
endian; `struct.pack` refuses a value that does not fit its field.
-/
import AshiChat.Kit.BigEndian

namespace AshiChat

open List

abbrev Bytes := List UInt8

/-- Membership of a byte string in a list is tested through this instance. -/
instance : LawfulBEq Bytes := inferInstance

/-- A bytes literal of the source, `b"…"`. -/
def ascii (text : String) : Bytes :=
  text.toList.map fun char => UInt8.ofNat char.toNat

/-- `SHA-256` of a raw Ed25519 public key. -/
abbrev PeerId := Bytes

/-- The exceptions the modelled code can raise.  Texts are kept where the
source writes them itself. -/
inductive PyError where
  | packetError (message : String)
  | structError
  | indexError
  | assertionError (message : String)
  | overflowError
  | valueError (message : String)
  | runtimeError (message : String)
deriving DecidableEq, Repr

/-- `data[start:stop]` -/
def slice (data : Bytes) (start stop : Nat) : Bytes :=
  (data.drop start).take (stop - start)

variable {width start stop value : Nat} {data : Bytes}

theorem length_slice (hle : start ≤ stop) (hstop : stop ≤ data.length) :
    (slice data start stop).length = stop - start := by
  simp only [slice, length_take, length_drop]
  omega

/-- A slice that skips a leading block of known length. -/
theorem slice_append_right (front back : Bytes) (hwidth : front.length = width)
    (hle : width ≤ start) :
    slice (front ++ back) start stop =
      slice back (start - width) (stop - width) := by
  have hskip : start - front.length = start - width := by rw [hwidth]
  have htake : stop - start = stop - width - (start - width) := by omega
  rw [slice, slice, drop_append, hskip, htake,
    drop_eq_nil_of_le (by omega), nil_append]

/-- A slice that is exactly the leading block. -/
theorem slice_append_left (front back : Bytes) (hwidth : front.length = width) :
    slice (front ++ back) 0 width = front := by
  simp [slice, ← hwidth]

theorem slice_self (hwidth : data.length = width) :
    slice data 0 width = data := by
  simp [slice, ← hwidth]

/-- `struct.pack(">I", value)` -/
def packU32 (value : Nat) : Except PyError Bytes :=
  if value < 2 ^ 32 then .ok (BigEndian.encode 4 value) else .error .structError

theorem packU32_ok (hfits : value < 2 ^ 32) :
    packU32 value = .ok (BigEndian.encode 4 value) :=
  if_pos hfits

/-- `struct.unpack(">I", data)[0]` on four bytes. -/
def unpackU32 (data : Bytes) : Nat := BigEndian.decode data

theorem unpackU32_encode (hfits : value < 2 ^ 32) :
    unpackU32 (BigEndian.encode 4 value) = value :=
  BigEndian.decode_encode (by simpa using hfits)

inductive PacketType where
  | hello | helloAck | data | ack | endpointUpdate
  | resolveRequest | ping | pong | sync | appAck
deriving DecidableEq, Repr

/-- The `IntEnum` values of `PacketType`. -/
def PacketType.code : PacketType → UInt8
  | .hello => 0x01
  | .helloAck => 0x02
  | .data => 0x03
  | .ack => 0x04
  | .endpointUpdate => 0x05
  | .resolveRequest => 0x06
  | .ping => 0x07
  | .pong => 0x08
  | .sync => 0x09
  | .appAck => 0x0A

def protocolVersion : UInt8 := 0x01

/-- Top-level wire packet. -/
structure Packet where
  version : UInt8
  packetType : PacketType
  payload : Bytes
deriving DecidableEq, Repr

/-- `make_packet`: wrap an already serialized payload. -/
def makePacket (packetType : PacketType) (payload : Bytes) : Packet :=
  ⟨protocolVersion, packetType, payload⟩

structure HelloPayload where
  identityPublicKey : Bytes
  ephemeralPublicKey : Bytes
  randomNonce : Bytes
  signature : Bytes
deriving DecidableEq, Repr

namespace HelloPayload

def size : Nat := 32 + 32 + 16 + 64

def serialize (hello : HelloPayload) : Bytes :=
  hello.identityPublicKey ++ (hello.ephemeralPublicKey ++
    (hello.randomNonce ++ hello.signature))

def deserialize (data : Bytes) : Except PyError HelloPayload :=
  if data.length < size then
    .error (.packetError s!"HelloPayload too short: {data.length} < {size}")
  else
    .ok {
      identityPublicKey := slice data 0 32
      ephemeralPublicKey := slice data 32 64
      randomNonce := slice data 64 80
      signature := slice data 80 144 }

/-- The field widths the layout assumes. -/
structure Sized (hello : HelloPayload) : Prop where
  identity : hello.identityPublicKey.length = 32
  ephemeral : hello.ephemeralPublicKey.length = 32
  nonce : hello.randomNonce.length = 16
  signature : hello.signature.length = 64

variable {hello : HelloPayload}

theorem sized_of_deserialize {data : Bytes}
    (hdec : deserialize data = .ok hello) : hello.Sized := by
  unfold deserialize at hdec
  split at hdec
  · cases hdec
  · next hlen =>
    cases hdec
    have hsize : 144 ≤ data.length := by simpa [size] using hlen
    constructor <;> simp only <;> rw [length_slice] <;> omega

theorem deserialize_serialize (hsized : hello.Sized) :
    deserialize hello.serialize = .ok hello := by
  obtain ⟨hid, heph, hnonce, hsig⟩ := hsized
  obtain ⟨identity, ephemeral, nonce, signature⟩ := hello
  simp only at hid heph hnonce hsig
  have hlen : ¬ (serialize ⟨identity, ephemeral, nonce, signature⟩).length <
      size := by
    simp [serialize, size, hid, heph, hnonce, hsig]
  rw [deserialize, if_neg hlen]
  simp only [serialize]
  rw [slice_append_left _ _ hid, slice_append_right _ _ hid (by omega),
    slice_append_left _ _ heph, slice_append_right _ _ hid (by omega),
    slice_append_right _ _ heph (by omega), slice_append_left _ _ hnonce,
    slice_append_right _ _ hid (by omega), slice_append_right _ _ heph (by
    omega), slice_append_right _ _ hnonce (by omega), slice_self hsig]

end HelloPayload

structure HelloAckPayload where
  identityPublicKey : Bytes
  ephemeralPublicKey : Bytes
  sessionId : Bytes
  randomNonce : Bytes
  signature : Bytes
deriving DecidableEq, Repr

namespace HelloAckPayload

def size : Nat := 152

def serialize (ack : HelloAckPayload) : Bytes :=
  ack.identityPublicKey ++ (ack.ephemeralPublicKey ++ (ack.sessionId ++
    (ack.randomNonce ++ ack.signature)))

def deserialize (data : Bytes) : Except PyError HelloAckPayload :=
  if data.length < size then
    .error (.packetError s!"HelloAckPayload too short: {data.length} < {size}")
  else
    .ok {
      identityPublicKey := slice data 0 32
      ephemeralPublicKey := slice data 32 64
      sessionId := slice data 64 72
      randomNonce := slice data 72 88
      signature := slice data 88 152 }

structure Sized (ack : HelloAckPayload) : Prop where
  identity : ack.identityPublicKey.length = 32
  ephemeral : ack.ephemeralPublicKey.length = 32
  sessionId : ack.sessionId.length = 8
  nonce : ack.randomNonce.length = 16
  signature : ack.signature.length = 64

variable {ack : HelloAckPayload}

theorem sized_of_deserialize {data : Bytes} (hdec : deserialize data = .ok ack) :
    ack.Sized := by
  unfold deserialize at hdec
  split at hdec
  · cases hdec
  · next hlen =>
    cases hdec
    have hsize : 152 ≤ data.length := by simpa [size] using hlen
    constructor <;> simp only <;> rw [length_slice] <;> omega

theorem deserialize_serialize (hsized : ack.Sized) :
    deserialize ack.serialize = .ok ack := by
  obtain ⟨hid, heph, hsession, hnonce, hsig⟩ := hsized
  obtain ⟨identity, ephemeral, session, nonce, signature⟩ := ack
  simp only at hid heph hsession hnonce hsig
  have hlen : ¬ (serialize
      ⟨identity, ephemeral, session, nonce, signature⟩).length < size := by
    simp [serialize, size, hid, heph, hsession, hnonce, hsig]
  rw [deserialize, if_neg hlen]
  simp only [serialize]
  rw [slice_append_left _ _ hid, slice_append_right _ _ hid (by omega),
    slice_append_left _ _ heph, slice_append_right _ _ hid (by omega),
    slice_append_right _ _ heph (by omega), slice_append_left _ _ hsession,
    slice_append_right _ _ hid (by omega), slice_append_right _ _ heph (by
    omega), slice_append_right _ _ hsession (by omega), slice_append_left _ _
    hnonce, slice_append_right _ _ hid (by omega), slice_append_right _ _ heph
    (by omega), slice_append_right _ _ hsession (by omega), slice_append_right _
    _ hnonce (by omega), slice_self hsig]

end HelloAckPayload

/-- DATA packet payload: one encrypted message. -/
structure DataPayload where
  sessionId : Bytes
  sequenceNumber : Nat
  ciphertext : Bytes
  authTag : Bytes
deriving DecidableEq, Repr

/-- `DataPayload.serialize`; the two length-checked fields may raise. -/
def DataPayload.serialize (payload : DataPayload) : Except PyError Bytes := do
  let seq ← packU32 payload.sequenceNumber
  let len ← packU32 payload.ciphertext.length
  return payload.sessionId ++ seq ++ len ++ payload.ciphertext ++ payload.authTag

structure AckPayload where
  sessionId : Bytes
  ackSequenceNumber : Nat
deriving DecidableEq, Repr

structure SyncPayload where
  sessionId : Bytes
  sequenceNumber : Nat
deriving DecidableEq, Repr

structure AppAckPayload where
  sessionId : Bytes
  ackSequenceNumber : Nat
deriving DecidableEq, Repr

end AshiChat
