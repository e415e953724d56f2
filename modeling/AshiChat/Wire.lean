/-
The whole wire format (`packet.py`): the frame around a payload, and an
encoder and a decoder for each of the ten payload classes.  Decoders are
modelled with every exception the operations they use could raise, so that
"nothing but `PacketError` escapes" is a statement about them.
-/
import AshiChat.Packet
import AshiChat.Kit.IpText

namespace AshiChat

open BigEndian List

/-- What the code uses of `ipaddress`; `none` is a `ValueError`.  An address
is v4 or v6, prints in a form that is read back, and is determined by its
packed bytes and, for v6, by its scope. -/
structure IpLibrary where
  Address : Type
  ipAddress : String → Option Address
  ipv4Address : Bytes → Option Address
  ipv6Address : Bytes → Option Address
  str : Address → String
  packed : Address → Bytes
  isIPv4 : Address → Bool
  scopeId : Address → Option String
  ipAddress_str : ∀ address, ipAddress (str address) = some address
  ipv4Address_ok : ∀ data, data.length = 4 → ∃ address,
    ipv4Address data = some address ∧ isIPv4 address = true ∧
      packed address = data ∧ scopeId address = none
  ipv6Address_ok : ∀ data, data.length = 16 → ∃ address,
    ipv6Address data = some address ∧ isIPv4 address = false ∧
      packed address = data ∧ scopeId address = none
  length_packed : ∀ address,
    (packed address).length = if isIPv4 address then 4 else 16
  eq_of_packed : ∀ left right, isIPv4 left = isIPv4 right →
    packed left = packed right → scopeId left = scopeId right → left = right

/-- `struct.pack` of one unsigned big-endian field of `width` bytes. -/
def structPack (width value : Nat) : Except PyError Bytes :=
  if value < 256 ^ width then .ok (encode width value)
  else .error .structError

/-- `struct.unpack` of one such field; another length is a `struct.error`. -/
def structUnpack (width : Nat) (data : Bytes) : Except PyError Nat :=
  if data.length = width then .ok (decode data)
  else .error .structError

/-- `data[position]` -/
def index (data : Bytes) (position : Nat) : Except PyError UInt8 :=
  match data[position]? with
  | some byte => .ok byte
  | none => .error .indexError

/-- The format `02x`. -/
def hexByte (byte : UInt8) : String :=
  String.ofList [Nat.digitChar (byte.toNat / 16),
    Nat.digitChar (byte.toNat % 16)]

variable {data : Bytes} {width value position : Nat}

theorem structPack_ok (hfits : value < 256 ^ width) :
    structPack width value = .ok (encode width value) :=
  if_pos hfits

theorem structUnpack_ok (hlen : data.length = width) :
    structUnpack width data = .ok (decode data) :=
  if_pos hlen

theorem structUnpack_encode (hfits : value < 256 ^ width) :
    structUnpack width (encode width value) = .ok value := by
  rw [structUnpack_ok (length_encode width value), decode_encode hfits]

theorem structUnpack_lt (hread : structUnpack width data = .ok value) :
    value < 256 ^ width := by
  unfold structUnpack at hread
  split at hread
  · next hlen =>
    cases hread
    rw [← hlen]
    exact decode_lt data
  · cases hread

/-- A field that was read is written back as it stood. -/
theorem structPack_decode (hlen : data.length = width) :
    structPack width (decode data) = .ok data := by
  have hfits := decode_lt data
  rw [hlen] at hfits
  rw [structPack_ok hfits, encode_decode_of_length hlen]

theorem packU32_eq (value : Nat) : packU32 value = structPack 4 value := rfl

theorem index_ok (hlt : position < data.length) :
    index data position = .ok data[position] := by
  simp [index, getElem?_eq_getElem hlt]

theorem slice_zero (data : Bytes) (stop : Nat) :
    slice data 0 stop = data.take stop := by
  simp [slice]

/-- Adjacent slices join. -/
theorem slice_append_slice (data : Bytes) {start middle stop : Nat}
    (hfirst : start ≤ middle) (hsecond : middle ≤ stop) :
    slice data start middle ++ slice data middle stop =
      slice data start stop := by
  have hdrop : data.drop middle = (data.drop start).drop (middle - start) := by
    rw [drop_drop, Nat.add_sub_cancel' hfirst]
  have hsplit : stop - start = (middle - start) + (stop - middle) := by omega
  rw [slice, slice, slice, hdrop, hsplit, take_add]

/-- One byte is a slice of length one. -/
theorem slice_succ (hlt : position < data.length) :
    slice data position (position + 1) = [data[position]] := by
  rw [slice, drop_eq_getElem_cons hlt, Nat.add_sub_cancel_left,
    take_succ_cons, take_zero]

def maxPayloadSize : Nat := 65535

def maxTtl : Nat := 5

def headerSize : Nat := 4

/-- The member of `PacketType` with a value, as `ptype in _VALID_TYPES` and
`PacketType(ptype)` find it. -/
def PacketType.ofCode (code : UInt8) : Option PacketType :=
  [.hello, .helloAck, .data, .ack, .endpointUpdate, .resolveRequest, .ping,
    .pong, .sync, .appAck].find? fun packetType => packetType.code == code

theorem PacketType.ofCode_code (packetType : PacketType) :
    ofCode packetType.code = some packetType := by
  cases packetType <;> decide

theorem PacketType.code_of_ofCode {code : UInt8} {packetType : PacketType}
    (hof : ofCode code = some packetType) : packetType.code = code := by
  have hfound := find?_some hof
  simpa using hfound

namespace Packet

/-- `Packet.serialize`; the length field may not fit. -/
def serialize (packet : Packet) : Except PyError Bytes := do
  let length ← structPack 2 packet.payload.length
  return packet.version :: packet.packetType.code :: length ++ packet.payload

variable {packet : Packet}

theorem serialize_of_le (hfits : packet.payload.length ≤ maxPayloadSize) :
    ∃ data, packet.serialize = .ok data := by
  have hlength : packet.payload.length < 256 ^ 2 := Nat.lt_succ_of_le hfits
  simp only [serialize, structPack, hlength, ↓reduceIte, bind, Except.bind]
  exact ⟨_, rfl⟩

theorem serialize_of_gt (hlong : maxPayloadSize < packet.payload.length) :
    packet.serialize = .error .structError := by
  have hlength : ¬ packet.payload.length < 256 ^ 2 :=
    Nat.not_lt.mpr (Nat.succ_le_of_lt hlong)
  simp only [serialize, structPack, hlength, ↓reduceIte, bind, Except.bind]

/-- `struct.unpack(">BBH", header)` -/
def unpackHeader : Bytes → Except PyError (UInt8 × UInt8 × Nat)
  | [version, code, high, low] =>
    .ok (version, code, decode [high, low])
  | _ => .error .structError

def deserialize (data : Bytes) : Except PyError Packet :=
  if data.length < headerSize then
    .error (.packetError
      s!"Data too short for header: {data.length} < {headerSize}")
  else do
    let (version, code, length) ← unpackHeader (data.take headerSize)
    if version ≠ protocolVersion then
      .error (.packetError ("Unknown version: 0x" ++ hexByte version))
    else
      match PacketType.ofCode code with
      | none =>
        .error (.packetError ("Unknown packet type: 0x" ++ hexByte code))
      | some packetType =>
        if length > maxPayloadSize then
          .error (.packetError
            s!"Payload too large: {length} > {maxPayloadSize}")
        else
          let payload := data.drop headerSize
          if payload.length < length then
            .error (.packetError (s!"Truncated payload: declared {length}"
              ++ s!", got {payload.length}"))
          else .ok ⟨version, packetType, payload.take length⟩

end Packet

/-- The body shared by the classes that are a session id and a 32-bit number:
`ACK`, `SYNC` and `APP_ACK`. -/
def numbered {α : Type} (name : String) (build : Bytes → Nat → α)
    (data : Bytes) : Except PyError α :=
  if data.length < 12 then
    .error (.packetError (name ++ s!" too short: {data.length} < 12"))
  else do
    let number ← structUnpack 4 (slice data 8 12)
    return build (slice data 0 8) number

/-- The body shared by `PING` and `PONG`. -/
def paired {α : Type} (name : String) (build : Bytes → Bytes → α)
    (data : Bytes) : Except PyError α :=
  if data.length < 16 then
    .error (.packetError (name ++ s!" too short: {data.length} < 16"))
  else .ok (build (slice data 0 8) (slice data 8 16))

def DataPayload.deserialize (data : Bytes) : Except PyError DataPayload :=
  if data.length < 28 then
    .error (.packetError s!"DataPayload too short: {data.length}")
  else do
    let seq ← structUnpack 4 (slice data 8 12)
    let ctLen ← structUnpack 4 (slice data 12 16)
    if data.length < 16 + ctLen + 16 then
      .error (.packetError "DataPayload truncated ciphertext/tag")
    else
      return {
        sessionId := slice data 0 8
        sequenceNumber := seq
        ciphertext := slice data 16 (16 + ctLen)
        authTag := slice data (16 + ctLen) (16 + ctLen + 16) }

/-- A number that was read off the wire fits its four bytes. -/
theorem DataPayload.sequenceNumber_lt {payload : DataPayload}
    (hread : DataPayload.deserialize data = .ok payload) :
    payload.sequenceNumber < 2 ^ 32 := by
  unfold DataPayload.deserialize at hread
  split at hread
  · cases hread
  · cases hseq : structUnpack 4 (slice data 8 12) with
    | error => simp [hseq, bind, Except.bind] at hread
    | ok =>
      cases hct : structUnpack 4 (slice data 12 16) with
      | error => simp [hseq, hct, bind, Except.bind] at hread
      | ok =>
        simp only [hseq, hct, bind, Except.bind] at hread
        split at hread
        · cases hread
        · cases hread
          simpa using structUnpack_lt hseq

namespace AckPayload

def serialize (payload : AckPayload) : Except PyError Bytes := do
  return payload.sessionId ++ (← packU32 payload.ackSequenceNumber)

def deserialize : Bytes → Except PyError AckPayload :=
  numbered "AckPayload" AckPayload.mk

end AckPayload

namespace SyncPayload

def serialize (payload : SyncPayload) : Except PyError Bytes := do
  return payload.sessionId ++ (← packU32 payload.sequenceNumber)

def deserialize : Bytes → Except PyError SyncPayload :=
  numbered "SyncPayload" SyncPayload.mk

end SyncPayload

namespace AppAckPayload

def serialize (payload : AppAckPayload) : Except PyError Bytes := do
  return payload.sessionId ++ (← packU32 payload.ackSequenceNumber)

def deserialize : Bytes → Except PyError AppAckPayload :=
  numbered "AppAckPayload" AppAckPayload.mk

end AppAckPayload

structure PingPayload where
  sessionId : Bytes
  pingId : Bytes
deriving DecidableEq, Repr

namespace PingPayload

def serialize (payload : PingPayload) : Bytes :=
  payload.sessionId ++ payload.pingId

def deserialize : Bytes → Except PyError PingPayload :=
  paired "PingPayload" PingPayload.mk

end PingPayload

structure PongPayload where
  sessionId : Bytes
  pingId : Bytes
deriving DecidableEq, Repr

namespace PongPayload

def serialize (payload : PongPayload) : Bytes :=
  payload.sessionId ++ payload.pingId

def deserialize : Bytes → Except PyError PongPayload :=
  paired "PongPayload" PongPayload.mk

end PongPayload

structure ResolveRequestPayload where
  requestId : Bytes
  targetPeerId : PeerId
  ttl : Nat
deriving DecidableEq, Repr

namespace ResolveRequestPayload

/-- `serialize`; the hop budget is clamped before it is packed. -/
def serialize (payload : ResolveRequestPayload) : Except PyError Bytes := do
  let clamped ← structPack 1 (min payload.ttl maxTtl)
  return payload.requestId ++ payload.targetPeerId ++ clamped

def deserialize (data : Bytes) : Except PyError ResolveRequestPayload :=
  if data.length < 49 then
    .error (.packetError
      s!"ResolveRequestPayload too short: {data.length} < 49")
  else do
    let ttl ← index data 48
    return {
      requestId := slice data 0 16
      targetPeerId := slice data 16 48
      ttl := min ttl.toNat maxTtl }

end ResolveRequestPayload

/-- A signed statement of a peer's address. -/
structure EndpointUpdatePayload where
  peerId : PeerId
  endpointIp : String
  endpointPort : Nat
  versionCounter : Nat
  signature : Bytes
deriving DecidableEq, Repr

namespace EndpointUpdatePayload

variable (ip : IpLibrary)

def serialize (payload : EndpointUpdatePayload) : Except PyError Bytes :=
  match ip.ipAddress payload.endpointIp with
  | none => .error (.packetError ("Invalid IP address: " ++ payload.endpointIp))
  | some address => do
      let ipType : UInt8 := if ip.isIPv4 address then 0x04 else 0x06
      let port ← structPack 2 payload.endpointPort
      let counter ← structPack 8 payload.versionCounter
      return payload.peerId ++ (ipType :: ip.packed address ++
        (port ++ (counter ++ payload.signature)))

/-- The address bytes at offset 33 and the offset after them. -/
def readIp (ipType : UInt8) (data : Bytes) : Except PyError (String × Nat) :=
  if ipType = 0x04 then
    if data.length < 33 + 4 then
      .error (.packetError "EndpointUpdate truncated IPv4")
    else
      match ip.ipv4Address (slice data 33 37) with
      | none => .error (.valueError "not permitted as an IPv4 address")
      | some address => .ok (ip.str address, 37)
  else if ipType = 0x06 then
    if data.length < 33 + 16 then
      .error (.packetError "EndpointUpdate truncated IPv6")
    else
      match ip.ipv6Address (slice data 33 49) with
      | none => .error (.valueError "not permitted as an IPv6 address")
      | some address => .ok (ip.str address, 49)
  else .error (.packetError ("Unknown IP type: 0x" ++ hexByte ipType))

def deserialize (data : Bytes) : Except PyError EndpointUpdatePayload :=
  if data.length < 32 + 1 then
    .error (.packetError "EndpointUpdatePayload too short")
  else do
    let ipType ← index data 32
    let (ipStr, offset) ← readIp ip ipType data
    if data.length < offset + 2 + 8 + 64 then
      .error (.packetError "EndpointUpdate truncated port/counter/sig")
    else
      let port ← structUnpack 2 (slice data offset (offset + 2))
      let counter ← structUnpack 8 (slice data (offset + 2) (offset + 10))
      return {
        peerId := slice data 0 32
        endpointIp := ipStr
        endpointPort := port
        versionCounter := counter
        signature := slice data (offset + 10) (offset + 74) }

end EndpointUpdatePayload

inductive Payload where
  | hello (payload : HelloPayload)
  | helloAck (payload : HelloAckPayload)
  | data (payload : DataPayload)
  | ack (payload : AckPayload)
  | endpointUpdate (payload : EndpointUpdatePayload)
  | resolveRequest (payload : ResolveRequestPayload)
  | ping (payload : PingPayload)
  | pong (payload : PongPayload)
  | sync (payload : SyncPayload)
  | appAck (payload : AppAckPayload)
deriving DecidableEq, Repr

namespace Payload

def packetType : Payload → PacketType
  | .hello _ => .hello
  | .helloAck _ => .helloAck
  | .data _ => .data
  | .ack _ => .ack
  | .endpointUpdate _ => .endpointUpdate
  | .resolveRequest _ => .resolveRequest
  | .ping _ => .ping
  | .pong _ => .pong
  | .sync _ => .sync
  | .appAck _ => .appAck

/-- `payload_obj.serialize()` -/
def serialize (ip : IpLibrary) : Payload → Except PyError Bytes
  | .hello payload => .ok payload.serialize
  | .helloAck payload => .ok payload.serialize
  | .data payload => payload.serialize
  | .ack payload => payload.serialize
  | .endpointUpdate payload => payload.serialize ip
  | .resolveRequest payload => payload.serialize
  | .ping payload => .ok payload.serialize
  | .pong payload => .ok payload.serialize
  | .sync payload => payload.serialize
  | .appAck payload => payload.serialize

/-- `deserialize` of the class a packet type stands for. -/
def deserialize (ip : IpLibrary) (packetType : PacketType) (data : Bytes) :
    Except PyError Payload :=
  match packetType with
  | .hello => .hello <$> HelloPayload.deserialize data
  | .helloAck => .helloAck <$> HelloAckPayload.deserialize data
  | .data => .data <$> DataPayload.deserialize data
  | .ack => .ack <$> AckPayload.deserialize data
  | .endpointUpdate =>
    .endpointUpdate <$> EndpointUpdatePayload.deserialize ip data
  | .resolveRequest => .resolveRequest <$> ResolveRequestPayload.deserialize data
  | .ping => .ping <$> PingPayload.deserialize data
  | .pong => .pong <$> PongPayload.deserialize data
  | .sync => .sync <$> SyncPayload.deserialize data
  | .appAck => .appAck <$> AppAckPayload.deserialize data

end Payload

/-- `make_packet` of a typed payload. -/
def makeTypedPacket (ip : IpLibrary) (packetType : PacketType)
    (payload : Payload) : Except PyError Packet := do
  return makePacket packetType (← payload.serialize ip)

end AshiChat
