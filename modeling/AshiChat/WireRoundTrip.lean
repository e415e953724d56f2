/-
The round trip over the whole wire format: a typed payload is put into a
packet, the packet is sent as bytes, and the receiver gets the payload back.
-/
import AshiChat.WireFormat

namespace AshiChat

open BigEndian Except List EndpointUpdatePayload DataPayload ResolveRequestPayload

/-- A field is found between what stands before and after it. -/
theorem slice_between {data : Bytes} {start stop : Nat}
    (front field back : Bytes) (hdata : data = front ++ (field ++ back))
    (hstart : front.length = start) (hstop : start + field.length = stop) :
    slice data start stop = field := by
  subst hdata
  rw [slice_append_right front _ hstart (Nat.le_refl start), Nat.sub_self,
    ← hstop, Nat.add_sub_cancel_left]
  exact slice_append_left field back rfl

variable {α : Type}

theorem paired_append (name : String) (build : Bytes → Bytes → α)
    {first second : Bytes} (hfirst : first.length = 8)
    (hsecond : second.length = 8) :
    paired name build (first ++ second) = .ok (build first second) := by
  have hlen : ¬ (first ++ second).length < 16 := by simp [hfirst, hsecond]
  rw [paired, if_neg hlen, slice_append_left _ _ hfirst,
    slice_append_right _ _ hfirst (Nat.le_refl 8), slice_self hsecond]

theorem numbered_append (name : String) (build : Bytes → Nat → α)
    {sessionId : Bytes} {number : Nat} (hsession : sessionId.length = 8)
    (hnumber : number < 2 ^ 32) :
    numbered name build (sessionId ++ encode 4 number) =
      .ok (build sessionId number) := by
  have hlen : ¬ (sessionId ++ encode 4 number).length < 12 := by
    simp [hsession]
  rw [numbered, if_neg hlen, slice_append_left _ _ hsession,
    slice_append_right _ _ hsession (Nat.le_refl 8),
    slice_self (length_encode 4 number), structUnpack_encode hnumber]
  rfl

namespace DataPayload

/-- The documented widths, and an encoding that fits a packet. -/
structure Sized (payload : DataPayload) : Prop where
  sessionId : payload.sessionId.length = 8
  sequenceNumber : payload.sequenceNumber < 2 ^ 32
  authTag : payload.authTag.length = 16
  fits : 32 + payload.ciphertext.length ≤ maxPayloadSize

variable {payload : DataPayload}

theorem serialize_ok (hsized : payload.Sized) :
    payload.serialize = .ok (payload.sessionId ++
      encode 4 payload.sequenceNumber ++
      encode 4 payload.ciphertext.length ++ payload.ciphertext ++
      payload.authTag) := by
  have hlen : payload.ciphertext.length < 2 ^ 32 := by
    have hfits := hsized.fits
    simp only [maxPayloadSize] at hfits
    omega
  rw [serialize, packU32_ok hsized.sequenceNumber, packU32_ok hlen]
  rfl

theorem deserialize_serialize (hsized : payload.Sized) {data : Bytes}
    (hdata : payload.serialize = .ok data) :
    deserialize data = .ok payload := by
  rw [serialize_ok hsized] at hdata
  obtain ⟨hsession, hnumber, htag, hfits⟩ := hsized
  obtain ⟨session, number, ciphertext, tag⟩ := payload
  simp only [maxPayloadSize, ok.injEq] at hdata hfits
  simp only at hsession hnumber htag
  have hct : ciphertext.length < 2 ^ 32 := by omega
  generalize hseqField : encode 4 number = seqField at hdata
  generalize hctField : encode 4 ciphertext.length = ctField at hdata
  have hseqLen : seqField.length = 4 := by simp [← hseqField]
  have hctLen : ctField.length = 4 := by simp [← hctField]
  have hlen : data.length = 32 + ciphertext.length := by
    simp only [← hdata, length_append, hsession, hseqLen, hctLen, htag]
    omega
  have hfirst : slice data 0 8 = session :=
    slice_between [] session (seqField ++ (ctField ++ (ciphertext ++ tag)))
      (by simp [← hdata]) rfl (by omega)
  have hseq : slice data 8 12 = seqField :=
    slice_between session seqField (ctField ++ (ciphertext ++ tag))
      (by simp [← hdata]) hsession (by omega)
  have hctSlice : slice data 12 16 = ctField :=
    slice_between (session ++ seqField) ctField (ciphertext ++ tag)
      (by simp [← hdata]) (by simp [hsession, hseqLen]) (by omega)
  have hcipher : slice data 16 (16 + ciphertext.length) = ciphertext :=
    slice_between (session ++ seqField ++ ctField) ciphertext tag
      (by simp [← hdata]) (by simp [hsession, hseqLen, hctLen]) rfl
  have hlast : slice data (16 + ciphertext.length)
      (16 + ciphertext.length + 16) = tag :=
    slice_between (session ++ seqField ++ ctField ++ ciphertext) tag []
      (by simp [← hdata])
      (by simp only [length_append]; omega) (by omega)
  rw [deserialize, if_neg (by omega), hseq, hctSlice, ← hseqField,
    ← hctField, structUnpack_encode hnumber, structUnpack_encode hct]
  change (if data.length < 16 + ciphertext.length + 16 then _ else _) = _
  rw [if_neg (by omega), hfirst, hcipher, hlast]
  rfl

end DataPayload

namespace ResolveRequestPayload

structure Sized (payload : ResolveRequestPayload) : Prop where
  requestId : payload.requestId.length = 16
  targetPeerId : payload.targetPeerId.length = 32
  ttl : payload.ttl ≤ maxTtl

variable {payload : ResolveRequestPayload}

theorem serialize_ok (hsized : payload.Sized) :
    payload.serialize = .ok (payload.requestId ++ payload.targetPeerId ++
      [UInt8.ofNat payload.ttl]) := by
  have httl := hsized.ttl
  have hfits : min payload.ttl maxTtl < 256 ^ 1 := by
    simp only [maxTtl]
    omega
  rw [serialize, structPack_ok hfits, Nat.min_eq_left httl]
  rfl

theorem deserialize_serialize (hsized : payload.Sized) {data : Bytes}
    (hdata : payload.serialize = .ok data) :
    deserialize data = .ok payload := by
  rw [serialize_ok hsized] at hdata
  obtain ⟨hrequest, htarget, httl⟩ := hsized
  obtain ⟨request, target, ttl⟩ := payload
  simp only [ok.injEq, maxTtl] at hdata hrequest htarget httl
  have hlen : data.length = 49 := by simp [← hdata, hrequest, htarget]
  have hfirst : slice data 0 16 = request :=
    slice_between [] request (target ++ [UInt8.ofNat ttl]) (by simp [← hdata])
      rfl (by omega)
  have hsecond : slice data 16 48 = target :=
    slice_between request target [UInt8.ofNat ttl] (by simp [← hdata])
      hrequest (by omega)
  have hlast : data[48]? = some (UInt8.ofNat ttl) := by
    rw [← hdata, getElem?_append_right (by simp [hrequest, htarget])]
    simp [hrequest, htarget]
  have hbyte : min (UInt8.ofNat ttl).toNat maxTtl = ttl := by
    simp only [UInt8.toNat_ofNat', maxTtl]
    omega
  rw [deserialize, if_neg (by omega), hfirst, hsecond, index, hlast]
  change Except.ok (mk request target _) = _
  rw [hbyte]

end ResolveRequestPayload

namespace EndpointUpdatePayload

variable (ip : IpLibrary)

/-- The documented widths, and an address in the form `ipaddress` prints. -/
structure Sized (payload : EndpointUpdatePayload) : Prop where
  peerId : payload.peerId.length = 32
  canonical : ∃ address, ip.str address = payload.endpointIp
  endpointPort : payload.endpointPort < 2 ^ 16
  versionCounter : payload.versionCounter < 2 ^ 64
  signature : payload.signature.length = 64

/-- The address has no IPv6 scope (`%eth0`), which the wire does not carry. -/
def Unscoped (payload : EndpointUpdatePayload) : Prop :=
  (ip.ipAddress payload.endpointIp).bind ip.scopeId = none

variable {payload : EndpointUpdatePayload} {data : Bytes}

theorem serialize_ok (hsized : payload.Sized ip) {address : ip.Address}
    (haddress : ip.ipAddress payload.endpointIp = some address) :
    payload.serialize ip = .ok (payload.peerId ++
      ((if ip.isIPv4 address then (0x04 : UInt8) else 0x06) ::
        ip.packed address ++ (encode 2 payload.endpointPort ++
          (encode 8 payload.versionCounter ++ payload.signature)))) := by
  have hport : payload.endpointPort < 256 ^ 2 := by
    simpa using hsized.endpointPort
  have hcounter : payload.versionCounter < 256 ^ 8 := by
    simpa using hsized.versionCounter
  simp only [serialize, haddress, structPack_ok hport, structPack_ok hcounter]
  rfl

/-- The address that the decoder makes of packed bytes is the one they came
from, if that had no scope. -/
theorem readIp_packed {address : ip.Address}
    (hscope : ip.scopeId address = none)
    (hlen : 33 + (ip.packed address).length ≤ data.length)
    (hbytes : slice data 33 (33 + (ip.packed address).length) =
      ip.packed address) :
    readIp ip (if ip.isIPv4 address then (0x04 : UInt8) else 0x06) data =
      .ok (ip.str address, 33 + (ip.packed address).length) := by
  have hwidth := ip.length_packed address
  cases hfour : ip.isIPv4 address with
  | true =>
    rw [hfour, if_pos rfl] at hwidth
    rw [hwidth] at hbytes hlen ⊢
    obtain ⟨found, hread, hfound, hpacked, hplain⟩ := ip.ipv4Address_ok _ hwidth
    have hsame := ip.eq_of_packed found address (hfound.trans hfour.symm)
      hpacked (hplain.trans hscope.symm)
    rw [if_pos rfl, readIp, if_pos rfl, if_neg (Nat.not_lt.mpr hlen), hbytes,
      hread, hsame]
  | false =>
    rw [hfour] at hwidth
    simp only [Bool.false_eq_true, if_false] at hwidth
    rw [hwidth] at hbytes hlen ⊢
    obtain ⟨found, hread, hfound, hpacked, hplain⟩ := ip.ipv6Address_ok _ hwidth
    have hsame := ip.eq_of_packed found address (hfound.trans hfour.symm)
      hpacked (hplain.trans hscope.symm)
    rw [if_neg (by decide), readIp, if_neg (by decide), if_pos rfl,
      if_neg (Nat.not_lt.mpr hlen), hbytes, hread, hsame]

theorem deserialize_serialize (hsized : payload.Sized ip)
    (hunscoped : payload.Unscoped ip) (hdata : payload.serialize ip = .ok data) :
    deserialize ip data = .ok payload := by
  obtain ⟨address, hcanonical⟩ := hsized.canonical
  have haddress : ip.ipAddress payload.endpointIp = some address := by
    rw [← hcanonical, ip.ipAddress_str]
  have hscope : ip.scopeId address = none := by
    simpa [Unscoped, haddress] using hunscoped
  rw [serialize_ok ip hsized haddress] at hdata
  obtain ⟨hpeer, -, hport, hversion, hsignature⟩ := hsized
  obtain ⟨peer, _, port, version, signature⟩ := payload
  simp only [ok.injEq] at hdata hcanonical
  simp only at hpeer hport hversion hsignature
  generalize hportField : encode 2 port = portField at hdata
  generalize hcountField : encode 8 version = countField at hdata
  generalize htype : (if ip.isIPv4 address then (0x04 : UInt8) else 0x06) =
    ipType at hdata
  generalize hwidth : (ip.packed address).length = width
  have hportLen : portField.length = 2 := by simp [← hportField]
  have hcountLen : countField.length = 8 := by simp [← hcountField]
  have hlen : data.length = 33 + width + 74 := by
    simp only [← hdata, length_append, length_cons, hpeer, hwidth,
      hportLen, hcountLen, hsignature]
    omega
  have hfirst : slice data 0 32 = peer :=
    slice_between [] peer _ (by simp [← hdata]; rfl) rfl (by omega)
  have hbytes : slice data 33 (33 + width) = ip.packed address :=
    slice_between (peer ++ [ipType]) (ip.packed address)
      (portField ++ (countField ++ signature)) (by simp [← hdata])
      (by simp [hpeer]) (by omega)
  have hportSlice : slice data (33 + width) (33 + width + 2) = portField :=
    slice_between (peer ++ [ipType] ++ ip.packed address) portField
      (countField ++ signature) (by simp [← hdata])
      (by simp only [length_append, length_singleton]; omega)
      (by omega)
  have hcountSlice : slice data (33 + width + 2) (33 + width + 10) =
      countField :=
    slice_between (peer ++ [ipType] ++ ip.packed address ++ portField)
      countField signature (by simp [← hdata])
      (by simp only [length_append, length_singleton]; omega)
      (by omega)
  have hlast : slice data (33 + width + 10) (33 + width + 74) = signature :=
    slice_between (peer ++ [ipType] ++ ip.packed address ++ portField ++
      countField) signature [] (by simp [← hdata])
      (by simp only [length_append, length_singleton]; omega)
      (by omega)
  have hbyte : data[32] = ipType := by
    have hslice : slice data 32 33 = [ipType] :=
      slice_between peer [ipType] _ (by simp [← hdata]; rfl) hpeer rfl
    rw [slice_succ (by omega)] at hslice
    exact (cons.inj hslice).1
  have hread : readIp ip data[32] data = .ok (ip.str address, 33 + width) := by
    rw [hbyte, ← htype, ← hwidth]
    exact readIp_packed ip hscope (by omega) (by rw [hwidth, hbytes])
  rw [deserialize_ok ip (by omega) hread, hfirst, hportSlice, hcountSlice,
    hlast, ← hportField, ← hcountField, decode_encode (by simpa using hport),
    decode_encode (by simpa using hversion), hcanonical]

/-- What the decoder returns never has a scope. -/
theorem unscoped_of_deserialize (hdecode : deserialize ip data = .ok payload) :
    payload.Unscoped ip := by
  have hexact := exact ip data
  unfold Exact at hexact
  split at hexact
  · next length hdeclared =>
    simp only [declaredLength] at hdeclared
    split at hdeclared
    · cases hdeclared
    · next width hwidth =>
      obtain ⟨_, hget, hwidth⟩ := Option.bind_eq_some_iff.mp hwidth
      obtain ⟨_, rfl⟩ := List.getElem?_eq_some_iff.mp hget
      split at hdeclared
      · next hlen =>
        have haddress : 33 + width ≤ data.length := by omega
        obtain ⟨_, hread, -, -, hplain⟩ := readIp_ok ip hwidth haddress
        rw [deserialize_ok ip hlen hread] at hdecode
        cases hdecode
        simp [Unscoped, ip.ipAddress_str, hplain]
      · cases hdeclared
  · obtain ⟨_, herror⟩ := hexact
    rw [herror] at hdecode
    cases hdecode

end EndpointUpdatePayload

/-- A payload that fits is framed and unframed without loss. -/
theorem Packet.deserialize_serialize (packetType : PacketType)
    {payload : Bytes} (hfits : payload.length ≤ maxPayloadSize) :
    ∃ data, (makePacket packetType payload).serialize = .ok data ∧
      Packet.deserialize data = .ok (makePacket packetType payload) := by
  have hfield : payload.length < 256 ^ 2 := by
    simp only [maxPayloadSize] at hfits
    omega
  obtain ⟨high, low, hbytes⟩ : ∃ high low,
      encode 2 payload.length = [high, low] := ⟨_, _, rfl⟩
  have hlength : decode [high, low] = payload.length := by
    rw [← hbytes, decode_encode hfield]
  refine ⟨protocolVersion :: packetType.code :: high :: low :: payload, ?_, ?_⟩
  · simp only [Packet.serialize, makePacket, structPack_ok hfield, hbytes]
    rfl
  · rw [Packet.deserialize_header, if_neg (not_not.mpr rfl),
      PacketType.ofCode_code]
    simp only [hlength, lt_irrefl, ↓reduceIte, take_length]
    rfl

namespace Payload

/-- The byte fields have their documented widths, the numbers fit their
fields, the address is in canonical form and the encoding fits a packet. -/
def Formed (ip : IpLibrary) : Payload → Prop
  | .hello payload => payload.Sized
  | .helloAck payload => payload.Sized
  | .data payload => payload.Sized
  | .ack payload =>
    payload.sessionId.length = 8 ∧ payload.ackSequenceNumber < 2 ^ 32
  | .endpointUpdate payload => payload.Sized ip
  | .resolveRequest payload => payload.Sized
  | .ping payload => payload.sessionId.length = 8 ∧ payload.pingId.length = 8
  | .pong payload => payload.sessionId.length = 8 ∧ payload.pingId.length = 8
  | .sync payload =>
    payload.sessionId.length = 8 ∧ payload.sequenceNumber < 2 ^ 32
  | .appAck payload =>
    payload.sessionId.length = 8 ∧ payload.ackSequenceNumber < 2 ^ 32

/-- An address in the payload has no IPv6 scope. -/
def Unscoped (ip : IpLibrary) : Payload → Prop
  | .endpointUpdate payload => payload.Unscoped ip
  | _ => True

/-- The payload is packed, framed, sent, unframed and unpacked unchanged. -/
def RoundTrips (ip : IpLibrary) (payload : Payload) : Prop := ∃ data packet,
    (makeTypedPacket ip payload.packetType payload >>= Packet.serialize) =
      .ok data ∧
    Packet.deserialize data = .ok packet ∧
    packet.version = protocolVersion ∧
    packet.packetType = payload.packetType ∧
    deserialize ip packet.packetType packet.payload = .ok payload

variable {ip : IpLibrary} {payload : Payload}

/-- A well-formed payload has an encoding, and it fits a packet. -/
theorem serialize_ok (hformed : payload.Formed ip) :
    ∃ data, payload.serialize ip = .ok data ∧ data.length ≤ maxPayloadSize := by
  cases payload with
  | hello =>
    obtain ⟨hid, heph, hnonce, hsig⟩ := hformed
    refine ⟨_, rfl, ?_⟩
    simp [HelloPayload.serialize, hid, heph, hnonce, hsig, maxPayloadSize]
  | helloAck =>
    obtain ⟨hid, heph, hsession, hnonce, hsig⟩ := hformed
    refine ⟨_, rfl, ?_⟩
    simp [HelloAckPayload.serialize, hid, heph, hsession, hnonce, hsig,
      maxPayloadSize]
  | data =>
    refine ⟨_, serialize_ok hformed, ?_⟩
    have hfits := DataPayload.Sized.fits hformed
    simp only [length_append, hformed.sessionId, hformed.authTag, length_encode]
    omega
  | ack payload | sync payload | appAck payload =>
    refine ⟨_, congrArg (· >>= fun seq => pure (payload.sessionId ++ seq))
      (packU32_ok hformed.2), ?_⟩
    simp [hformed.1, maxPayloadSize]
  | endpointUpdate payload =>
    obtain ⟨address, hcanonical⟩ := hformed.canonical
    have haddress : ip.ipAddress payload.endpointIp = some address := by
      rw [← hcanonical, ip.ipAddress_str]
    refine ⟨_, serialize_ok ip hformed haddress, ?_⟩
    have hwidth : (ip.packed address).length ≤ 16 := by
      rw [ip.length_packed]
      split <;> decide
    simp only [length_append, length_cons, hformed.peerId,
      hformed.signature, length_encode, maxPayloadSize]
    omega
  | resolveRequest =>
    refine ⟨_, serialize_ok hformed, ?_⟩
    simp [hformed.requestId, hformed.targetPeerId, maxPayloadSize]
  | ping payload | pong payload =>
    refine ⟨_, rfl, ?_⟩
    simp [PingPayload.serialize, PongPayload.serialize, hformed.1, hformed.2,
      maxPayloadSize]

variable {data : Bytes}

theorem deserialize_serialize (hformed : payload.Formed ip)
    (hunscoped : payload.Unscoped ip) (hdata : payload.serialize ip = .ok data) :
    deserialize ip payload.packetType data = .ok payload := by
  cases payload with
  | hello =>
    cases hdata
    exact congrArg (Functor.map Payload.hello)
      (HelloPayload.deserialize_serialize hformed)
  | helloAck =>
    cases hdata
    exact congrArg (Functor.map Payload.helloAck)
      (HelloAckPayload.deserialize_serialize hformed)
  | data =>
    exact congrArg (Functor.map Payload.data)
      (deserialize_serialize hformed hdata)
  | ack =>
    rw [serialize, AckPayload.serialize, packU32_ok hformed.2] at hdata
    cases hdata
    exact congrArg (Functor.map Payload.ack)
      (numbered_append _ _ hformed.1 hformed.2)
  | endpointUpdate =>
    exact congrArg (Functor.map Payload.endpointUpdate)
      (deserialize_serialize ip hformed hunscoped hdata)
  | resolveRequest =>
    exact congrArg (Functor.map Payload.resolveRequest)
      (deserialize_serialize hformed hdata)
  | ping =>
    cases hdata
    exact congrArg (Functor.map Payload.ping)
      (paired_append _ _ hformed.1 hformed.2)
  | pong =>
    cases hdata
    exact congrArg (Functor.map Payload.pong)
      (paired_append _ _ hformed.1 hformed.2)
  | sync =>
    rw [serialize, SyncPayload.serialize, packU32_ok hformed.2] at hdata
    cases hdata
    exact congrArg (Functor.map Payload.sync)
      (numbered_append _ _ hformed.1 hformed.2)
  | appAck =>
    rw [serialize, AppAckPayload.serialize, packU32_ok hformed.2] at hdata
    cases hdata
    exact congrArg (Functor.map Payload.appAck)
      (numbered_append _ _ hformed.1 hformed.2)

theorem unscoped_of_deserialize {packetType : PacketType}
    (hdecode : deserialize ip packetType data = .ok payload) :
    payload.Unscoped ip := by
  cases payload with
  | endpointUpdate =>
    cases packetType with
    | endpointUpdate =>
      simp only [deserialize, Functor.map, Except.map] at hdecode
      split at hdecode
      · cases hdecode
      · next _ hvalue =>
        cases hdecode
        exact unscoped_of_deserialize ip hvalue
    | hello | helloAck | data | ack | resolveRequest | ping | pong | sync
        | appAck =>
      simp only [deserialize, Functor.map, Except.map] at hdecode
      split at hdecode <;> cases hdecode
  | hello _ | helloAck _ | data _ | ack _ | resolveRequest _ | ping _ | pong _
      | sync _ | appAck _ => trivial

/-- Every well-formed payload survives the wire, except that the scope of an
IPv6 address is lost: the address field has sixteen bytes and no room for it. -/
theorem roundTrips_iff_unscoped (ip : IpLibrary) (payload : Payload)
    (hformed : payload.Formed ip) :
    payload.RoundTrips ip ↔ payload.Unscoped ip := by
  constructor
  · rintro ⟨data, packet, -, -, -, -, hdecode⟩
    exact unscoped_of_deserialize hdecode
  · intro hunscoped
    obtain ⟨_, hserialize, hfits⟩ := serialize_ok hformed
    obtain ⟨data, hframe, hunframe⟩ :=
      Packet.deserialize_serialize payload.packetType hfits
    refine ⟨data, _, ?_, hunframe, rfl, rfl,
      deserialize_serialize hformed hunscoped hserialize⟩
    rw [makeTypedPacket, hserialize]
    exact hframe

end Payload

namespace WireWitness

/-- The address library over `IpText`, which prints no `::` shorthand. -/
def ipaddress : IpLibrary where
  Address := IpText.Address
  ipAddress text := IpText.parse text.toList
  ipv4Address data := (IpText.sized? 4 data).map .v4
  ipv6Address data := (IpText.sized? 16 data).map (.v6 · none)
  str address := String.ofList (IpText.print address)
  packed
    | .v4 octets => octets.1
    | .v6 octets _ => octets.1
  isIPv4
    | .v4 _ => true
    | .v6 _ _ => false
  scopeId
    | .v4 _ => none
    | .v6 _ scope => scope.map fun text => String.ofList text.1
  ipAddress_str address := by
    rw [String.toList_ofList, IpText.parse_print]
  ipv4Address_ok data hlen := ⟨.v4 ⟨data, hlen⟩, by
    simp [IpText.sized?, hlen]⟩
  ipv6Address_ok data hlen := ⟨.v6 ⟨data, hlen⟩ none, by
    simp [IpText.sized?, hlen]⟩
  length_packed
    | .v4 octets => octets.2
    | .v6 octets _ => octets.2
  eq_of_packed := by
    intro left right hfamily hpacked hscope
    match left, right with
    | .v4 _, .v4 _ => exact congrArg IpText.Address.v4 (Subtype.ext hpacked)
    | .v6 _ none, .v6 _ none =>
      exact congrArg (IpText.Address.v6 · none) (Subtype.ext hpacked)
    | .v6 left (some scope), .v6 right (some scope') =>
      have hoctets : left = right := Subtype.ext hpacked
      have htext : scope = scope' := by
        have hprinted := congrArg String.toList (Option.some.inj hscope)
        exact Subtype.ext (by simpa using hprinted)
      rw [hoctets, htext]

/-- The octets of `fe80:1:2:3:4:5:6:7`. -/
def linkLocal : IpText.Address :=
  .v6 ⟨[0xfe, 0x80, 0, 1, 0, 2, 0, 3, 0, 4, 0, 5, 0, 6, 0, 7], rfl⟩
    (some ⟨"eth0".toList, by decide⟩)

def announcing (text : String) : EndpointUpdatePayload where
  peerId := replicate 32 1
  endpointIp := text
  endpointPort := 9000
  versionCounter := 3
  signature := replicate 64 2

/-- A link-local address with a scope is in canonical form, and comes back
without the scope. -/
theorem scope_lost : (Payload.endpointUpdate
      (announcing "fe80:1:2:3:4:5:6:7%eth0")).Formed ipaddress ∧
    ¬ (Payload.endpointUpdate
      (announcing "fe80:1:2:3:4:5:6:7%eth0")).RoundTrips ipaddress ∧
    ((makeTypedPacket ipaddress .endpointUpdate (.endpointUpdate
        (announcing "fe80:1:2:3:4:5:6:7%eth0"))).bind Packet.serialize).bind
      (fun data => (Packet.deserialize data).bind fun packet =>
        Payload.deserialize ipaddress packet.packetType packet.payload) =
      .ok (.endpointUpdate (announcing "fe80:1:2:3:4:5:6:7")) := by
  refine ⟨⟨rfl, ⟨linkLocal, by decide +kernel⟩, by decide, by decide, rfl⟩,
    ?_, by decide +kernel⟩
  rintro ⟨data, packet, -, -, -, -, hdecode⟩
  have hplain := Payload.unscoped_of_deserialize hdecode
  revert hplain
  unfold Payload.Unscoped EndpointUpdatePayload.Unscoped
  decide +kernel

/-- An update that announces an IPv4 address survives the wire. -/
theorem announcing_survives :
    (Payload.endpointUpdate (announcing "192.0.2.7")).Formed ipaddress ∧
    (Payload.endpointUpdate (announcing "192.0.2.7")).RoundTrips ipaddress := by
  have hformed : (Payload.endpointUpdate (announcing "192.0.2.7")).Formed
      ipaddress :=
    ⟨rfl, ⟨.v4 ⟨[192, 0, 2, 7], rfl⟩, by decide +kernel⟩, by decide,
      by decide, rfl⟩
  have hplain : (Payload.endpointUpdate (announcing "192.0.2.7")).Unscoped
      ipaddress := by
    unfold Payload.Unscoped EndpointUpdatePayload.Unscoped
    decide +kernel
  exact ⟨hformed,
    (Payload.roundTrips_iff_unscoped ipaddress _ hformed).mpr hplain⟩

end WireWitness

end AshiChat
