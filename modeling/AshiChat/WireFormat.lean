/-
What the decoders of the wire format accept.  A byte string declares the
length a decoder will read, or declares none; the decoder accepts exactly in
the first case, and what it returns is written back as the bytes it read.
-/
import AshiChat.Wire

namespace AshiChat

open List

/-- On `data` the decoder returns a value or a `PacketError`.  It returns a
value exactly when a length is declared, all of which is present, and that
value is encoded as the `normal` form of the bytes read. -/
def Exact {α : Type} (decode : Bytes → Except PyError α)
    (encode : α → Except PyError Bytes) (declared : Bytes → Option Nat)
    (normal : Bytes → Bytes) (data : Bytes) : Prop :=
  match declared data with
  | some length =>
    length ≤ data.length ∧ ∃ value, decode data = .ok value ∧
      encode value = .ok (normal (data.take length))
  | none => ∃ message, decode data = .error (.packetError message)

/-- The length of a layout whose fields are all of fixed width. -/
def fixedLength (size : Nat) (data : Bytes) : Option Nat :=
  if size ≤ data.length then some size else none

section Exact

variable {α β : Type} {decode : Bytes → Except PyError α}
  {encode : α → Except PyError Bytes} {declared : Bytes → Option Nat}
  {normal : Bytes → Bytes} {data : Bytes}

theorem Exact.accepts {length : Nat} {value : α}
    (hdeclared : declared data = some length) (hlen : length ≤ data.length)
    (hdecode : decode data = .ok value)
    (hencode : encode value = .ok (normal (data.take length))) :
    Exact decode encode declared normal data := by
  simp only [Exact, hdeclared]
  exact ⟨hlen, value, hdecode, hencode⟩

variable {message : String} {size : Nat}

theorem Exact.refuses (hdeclared : declared data = none)
    (hdecode : decode data = .error (.packetError message)) :
    Exact decode encode declared normal data := by
  simp only [Exact, hdeclared]
  exact ⟨message, hdecode⟩

theorem exact_fixedLength {value : α}
    (hshort : data.length < size → decode data = .error (.packetError message))
    (hlong : size ≤ data.length → decode data = .ok value)
    (hencode : size ≤ data.length →
      encode value = .ok (normal (data.take size))) :
    Exact decode encode (fixedLength size) normal data := by
  by_cases hlen : size ≤ data.length
  · exact .accepts (if_pos hlen) hlen (hlong hlen) (hencode hlen)
  · exact .refuses (if_neg hlen) (hshort (Nat.lt_of_not_le hlen))

/-- A decoder that checks the length and cuts the fields out. -/
theorem exact_guarded {message : Bytes → String} {fields : Bytes → α}
    (hencode : encode (fields data) = .ok (normal (data.take size))) :
    Exact (fun data => if data.length < size then
        .error (.packetError (message data)) else .ok (fields data))
      encode (fixedLength size) normal data := by
  apply exact_fixedLength
  · intro hshort
    exact if_pos hshort
  · intro hlong
    exact if_neg (Nat.not_lt.mpr hlong)
  · intro _
    exact hencode

/-- A constructor around the decoded value changes nothing. -/
theorem Exact.map (wrap : α → β) {encode' : β → Except PyError Bytes}
    (hexact : Exact decode encode declared normal data)
    (hencode : ∀ value, encode' (wrap value) = encode value) :
    Exact (fun data => wrap <$> decode data) encode' declared normal data := by
  unfold Exact at hexact ⊢
  split at hexact
  · obtain ⟨hlen, value, hdecode, hwritten⟩ := hexact
    exact ⟨hlen, wrap value, by simp [hdecode], (hencode value).trans hwritten⟩
  · obtain ⟨message, hdecode⟩ := hexact
    exact ⟨message, by simp [hdecode]⟩

end Exact

variable (data : Bytes)

theorem HelloPayload.exact :
    Exact HelloPayload.deserialize (fun hello => .ok hello.serialize)
      (fixedLength 144) id data := by
  refine exact_guarded ?_
  simp only [HelloPayload.serialize, HelloPayload.size, id_eq]
  rw [slice_append_slice, slice_append_slice, slice_append_slice, slice_zero]
    <;> decide

theorem HelloAckPayload.exact :
    Exact HelloAckPayload.deserialize (fun ack => .ok ack.serialize)
      (fixedLength 152) id data := by
  refine exact_guarded ?_
  simp only [HelloAckPayload.serialize, HelloAckPayload.size, id_eq]
  rw [slice_append_slice, slice_append_slice, slice_append_slice,
    slice_append_slice, slice_zero] <;> decide

variable {α : Type}

theorem paired_exact (name : String) (build : Bytes → Bytes → α)
    {encode : α → Except PyError Bytes}
    (hencode : ∀ first second, encode (build first second) =
      .ok (first ++ second)) (data : Bytes) :
    Exact (paired name build) encode (fixedLength 16) id data := by
  refine exact_guarded ?_
  rw [hencode, slice_append_slice _ (by decide) (by decide), slice_zero, id_eq]

theorem numbered_exact (name : String) (build : Bytes → Nat → α)
    {encode : α → Except PyError Bytes}
    (hencode : ∀ sessionId number, encode (build sessionId number) = do
      return sessionId ++ (← packU32 number)) (data : Bytes) :
    Exact (numbered name build) encode (fixedLength 12) id data := by
  have hfield : 12 ≤ data.length → (slice data 8 12).length = 4 :=
    fun hlong => length_slice (by decide) hlong
  apply exact_fixedLength
  · intro hshort
    exact if_pos hshort
  · intro hlong
    rw [numbered, if_neg (Nat.not_lt.mpr hlong), structUnpack_ok (hfield hlong)]
    rfl
  · intro hlong
    rw [hencode, packU32_eq, structPack_decode (hfield hlong)]
    change Except.ok (slice data 0 8 ++ slice data 8 12) = _
    rw [slice_append_slice _ (by decide) (by decide), slice_zero, id_eq]

/-- The hop budget of a request, at offset 48, written back clamped. -/
def clampTtl (data : Bytes) : Bytes :=
  data.modify 48 fun ttl => UInt8.ofNat (min ttl.toNat maxTtl)

theorem clampTtl_take {data : Bytes} (hlong : 49 ≤ data.length) :
    clampTtl (data.take 49) =
      data.take 48 ++ [UInt8.ofNat (min (data[48]).toNat maxTtl)] := by
  have hlen : 48 < (data.take 49).length := by
    rw [length_take]
    omega
  rw [clampTtl, modify_eq_take_cons_drop hlen, getElem_take,
    take_take, drop_eq_nil_of_le (by rw [length_take]; omega)]
  rfl

theorem ResolveRequestPayload.exact :
    Exact ResolveRequestPayload.deserialize ResolveRequestPayload.serialize
      (fixedLength 49) clampTtl data := by
  by_cases hlong : 49 ≤ data.length
  · have hclamp : min (min (data[48]).toNat maxTtl) maxTtl < 256 ^ 1 := by
      simp only [maxTtl]
      omega
    have hdecode : deserialize data = .ok ⟨slice data 0 16,
        slice data 16 48, min (data[48]).toNat maxTtl⟩ := by
      rw [deserialize, if_neg (Nat.not_lt.mpr hlong), index_ok hlong]
      rfl
    refine .accepts (if_pos hlong) hlong hdecode ?_
    rw [serialize, structPack_ok hclamp, clampTtl_take hlong]
    change Except.ok (slice data 0 16 ++ slice data 16 48 ++ _) = _
    rw [slice_append_slice _ (by decide) (by decide), slice_zero,
      min_assoc, min_self]
    rfl
  · exact .refuses (if_neg hlong) (if_pos (Nat.lt_of_not_le hlong))

namespace DataPayload

/-- `32 + ct_len`, where the length field is the four bytes at offset 12. -/
def declaredLength (data : Bytes) : Option Nat :=
  let length := 32 + BigEndian.decode (slice data 12 16)
  if length ≤ data.length then some length else none

theorem exact (data : Bytes) :
    Exact deserialize serialize declaredLength id data := by
  by_cases hshort : data.length < 28
  · refine .refuses (if_neg ?_) (if_pos hshort)
    omega
  have hseq : (slice data 8 12).length = 4 := length_slice (by decide) (by omega)
  have hct : (slice data 12 16).length = 4 := length_slice (by decide) (by omega)
  have hopen : deserialize data =
      if data.length < 16 + BigEndian.decode (slice data 12 16) + 16 then
        .error (.packetError "DataPayload truncated ciphertext/tag")
      else .ok {
        sessionId := slice data 0 8
        sequenceNumber := BigEndian.decode (slice data 8 12)
        ciphertext := slice data 16 (16 + BigEndian.decode (slice data 12 16))
        authTag := slice data (16 + BigEndian.decode (slice data 12 16))
          (16 + BigEndian.decode (slice data 12 16) + 16) } := by
    rw [deserialize, if_neg hshort, structUnpack_ok hseq, structUnpack_ok hct]
    rfl
  by_cases hfits : 32 + BigEndian.decode (slice data 12 16) ≤ data.length
  · have hdecode := hopen.trans (if_neg (by omega))
    refine .accepts (if_pos hfits) hfits hdecode ?_
    have hlen : (slice data 16
        (16 + BigEndian.decode (slice data 12 16))).length =
        BigEndian.decode (slice data 12 16) := by
      rw [length_slice (by omega) (by omega), Nat.add_sub_cancel_left]
    rw [serialize]
    simp only [packU32_eq, hlen, structPack_decode hseq, structPack_decode hct]
    change Except.ok (slice data 0 8 ++ slice data 8 12 ++ slice data 12 16 ++
      slice data 16 _ ++ slice data _ _) = _
    rw [slice_append_slice _ (by decide) (by decide), slice_append_slice _ (by
      decide) (by decide), slice_append_slice _ (by omega) (by omega),
      slice_append_slice _ (by omega) (by omega), slice_zero, id_eq]
    congr 2
    omega
  · exact .refuses (if_neg hfits) (hopen.trans (if_pos (by omega)))

end DataPayload

namespace EndpointUpdatePayload

variable (ip : IpLibrary)

/-- How many address bytes an `ip_type` announces. -/
def addressWidth (ipType : UInt8) : Option Nat :=
  if ipType = 0x04 then some 4 else if ipType = 0x06 then some 16 else none

/-- Peer id, type byte and address, then port, counter and signature. -/
def declaredLength (data : Bytes) : Option Nat :=
  match data[32]?.bind addressWidth with
  | none => none
  | some width =>
    if 33 + width + 74 ≤ data.length then some (33 + width + 74) else none

variable {data : Bytes} {width : Nat} {ipType : UInt8}

section

variable (hwidth : addressWidth ipType = some width)

include hwidth

theorem addressWidth_cases :
    ipType = 0x04 ∧ width = 4 ∨ ipType = 0x06 ∧ width = 16 := by
  unfold addressWidth at hwidth
  split at hwidth
  · next hfour => exact .inl ⟨hfour, (Option.some.inj hwidth).symm⟩
  · split at hwidth
    · next hsix => exact .inr ⟨hsix, (Option.some.inj hwidth).symm⟩
    · cases hwidth

/-- A known type with all its address bytes present is read as an address of
that type with those bytes. -/
theorem readIp_ok (hlen : 33 + width ≤ data.length) :
    ∃ address, readIp ip ipType data = .ok (ip.str address, 33 + width) ∧
      ip.packed address = slice data 33 (33 + width) ∧
      (if ip.isIPv4 address then (0x04 : UInt8) else 0x06) = ipType ∧
      ip.scopeId address = none := by
  have hbytes : (slice data 33 (33 + width)).length = width := by
    rw [length_slice (by omega) hlen, Nat.add_sub_cancel_left]
  rcases addressWidth_cases hwidth with ⟨rfl, rfl⟩ | ⟨rfl, rfl⟩
  · obtain ⟨address, hread, hfour, hpacked, hplain⟩ :=
      ip.ipv4Address_ok _ hbytes
    refine ⟨address, ?_, hpacked, if_pos hfour, hplain⟩
    rw [readIp, if_pos rfl, if_neg (Nat.not_lt.mpr hlen), hread]
  · obtain ⟨address, hread, hsix, hpacked, hplain⟩ := ip.ipv6Address_ok _ hbytes
    refine ⟨address, ?_, hpacked, by simp [hsix], hplain⟩
    rw [readIp, if_neg (by decide), if_pos rfl, if_neg (Nat.not_lt.mpr hlen),
      hread]

theorem readIp_short (hlen : data.length < 33 + width) :
    ∃ message, readIp ip ipType data = .error (.packetError message) := by
  rcases addressWidth_cases hwidth with ⟨rfl, rfl⟩ | ⟨rfl, rfl⟩
  · exact ⟨_, (if_pos rfl).trans (if_pos hlen)⟩
  · exact ⟨_, (if_neg (by decide)).trans ((if_pos rfl).trans (if_pos hlen))⟩

end

theorem readIp_unknown (hwidth : addressWidth ipType = none) :
    ∃ message, readIp ip ipType data = .error (.packetError message) := by
  have hfour : ipType ≠ 0x04 := by
    rintro rfl
    cases hwidth
  have hsix : ipType ≠ 0x06 := by
    rintro rfl
    cases hwidth
  exact ⟨_, (if_neg hfour).trans (if_neg hsix)⟩

/-- The decoder past its first length check. -/
theorem deserialize_eq (hlen : 33 ≤ data.length) :
    deserialize ip data = (readIp ip data[32] data).bind fun read =>
      if data.length < read.2 + 2 + 8 + 64 then
        .error (.packetError "EndpointUpdate truncated port/counter/sig")
      else do
        let port ← structUnpack 2 (slice data read.2 (read.2 + 2))
        let counter ← structUnpack 8 (slice data (read.2 + 2) (read.2 + 10))
        return {
          peerId := slice data 0 32
          endpointIp := read.1
          endpointPort := port
          versionCounter := counter
          signature := slice data (read.2 + 10) (read.2 + 74) } := by
  rw [deserialize, if_neg (Nat.not_lt.mpr hlen), index_ok hlen]
  rfl

theorem length_port_counter (hlen : 33 + width + 74 ≤ data.length) :
    (slice data (33 + width) (33 + width + 2)).length = 2 ∧
      (slice data (33 + width + 2) (33 + width + 10)).length = 8 := by
  rw [length_slice (by omega) (by omega), length_slice (by omega) (by omega)]
  omega

theorem deserialize_ok {address : ip.Address}
    (hlen : 33 + width + 74 ≤ data.length)
    (hread : readIp ip data[32] data = .ok (ip.str address, 33 + width)) :
    deserialize ip data = .ok {
      peerId := slice data 0 32
      endpointIp := ip.str address
      endpointPort :=
        BigEndian.decode (slice data (33 + width) (33 + width + 2))
      versionCounter :=
        BigEndian.decode (slice data (33 + width + 2) (33 + width + 10))
      signature := slice data (33 + width + 10) (33 + width + 74) } := by
  obtain ⟨hport, hcounter⟩ := length_port_counter hlen
  rw [deserialize_eq ip (by omega), hread]
  simp only [Except.bind, if_neg (show ¬ data.length < 33 + width + 2 + 8 + 64
    by omega), structUnpack_ok hport, structUnpack_ok hcounter]
  rfl

/-- A failure to read the address is the failure of the decoder. -/
theorem deserialize_error {message : String} (hlen : 33 ≤ data.length)
    (hread : readIp ip data[32] data = .error (.packetError message)) :
    deserialize ip data = .error (.packetError message) := by
  rw [deserialize_eq ip hlen, hread]
  rfl

/-- The fields of an accepted string are written back as they stood. -/
theorem serialize_slices {address : ip.Address}
    (hlen : 33 + width + 74 ≤ data.length)
    (hpacked : ip.packed address = slice data 33 (33 + width))
    (htype : (if ip.isIPv4 address then (0x04 : UInt8) else 0x06) = data[32]) :
    serialize ip {
      peerId := slice data 0 32
      endpointIp := ip.str address
      endpointPort :=
        BigEndian.decode (slice data (33 + width) (33 + width + 2))
      versionCounter :=
        BigEndian.decode (slice data (33 + width + 2) (33 + width + 10))
      signature := slice data (33 + width + 10) (33 + width + 74) } =
      .ok (data.take (33 + width + 74)) := by
  obtain ⟨hport, hcounter⟩ := length_port_counter hlen
  simp only [serialize, ip.ipAddress_str, structPack_decode hport,
    structPack_decode hcounter, htype, hpacked]
  change Except.ok (slice data 0 32 ++ ([data[32]] ++ slice data 33 _ ++ _)) = _
  rw [← slice_succ (by omega), slice_append_slice _ (by omega) (by omega),
    slice_append_slice _ (by omega) (by omega), slice_append_slice _ (by omega)
    (by omega), slice_append_slice _ (by omega) (by omega), slice_append_slice _
    (by omega) (by omega), slice_zero]

theorem exact (data : Bytes) :
    Exact (deserialize ip) (serialize ip) declaredLength id data := by
  by_cases hhead : data.length < 33
  · refine .refuses ?_ (if_pos hhead)
    rw [declaredLength, getElem?_eq_none (by omega)]
    rfl
  have hget : data[32]? = some data[32] := getElem?_eq_getElem (by omega)
  cases hwidth : addressWidth data[32] with
  | none =>
    obtain ⟨message, hread⟩ := readIp_unknown ip hwidth
    have hdeclared : declaredLength data = none := by
      simp [declaredLength, hget, hwidth]
    exact .refuses hdeclared (deserialize_error ip (by omega) hread)
  | some width =>
    have hdeclared : declaredLength data =
        if 33 + width + 74 ≤ data.length then some (33 + width + 74)
        else none := by
      simp [declaredLength, hget, hwidth]
    by_cases haddress : data.length < 33 + width
    · obtain ⟨message, hread⟩ := readIp_short ip hwidth haddress
      exact .refuses (hdeclared.trans (if_neg (by omega)))
        (deserialize_error ip (by omega) hread)
    obtain ⟨_, hread, hpacked, htype, -⟩ :=
      readIp_ok ip hwidth (Nat.not_lt.mp haddress)
    by_cases hlen : 33 + width + 74 ≤ data.length
    · exact .accepts (hdeclared.trans (if_pos hlen)) hlen (deserialize_ok ip
        hlen hread) (serialize_slices ip hlen hpacked htype)
    · have htruncated : deserialize ip data = .error (.packetError
          "EndpointUpdate truncated port/counter/sig") := by
        rw [deserialize_eq ip (by omega), hread]
        exact if_pos (by simp only; omega)
      exact .refuses (hdeclared.trans (if_neg hlen)) htruncated

end EndpointUpdatePayload

namespace Packet

/-- Four header bytes with version 1 and a known type, then as many payload
bytes as the header declares. -/
def declaredLength : Bytes → Option Nat
  | version :: code :: high :: low :: payload =>
    let length := BigEndian.decode [high, low]
    if version = protocolVersion ∧ (0x01 ≤ code ∧ code ≤ 0x0A) ∧
        length ≤ payload.length then
      some (headerSize + length)
    else none
  | _ => none

theorem ofCode_eq_none_iff (code : UInt8) :
    PacketType.ofCode code = none ↔ ¬ (0x01 ≤ code ∧ code ≤ 0x0A) := by
  have hall : ∀ value < 256, PacketType.ofCode (UInt8.ofNat value) = none ↔
      ¬ (0x01 ≤ UInt8.ofNat value ∧ UInt8.ofNat value ≤ 0x0A) := by
    decide +kernel
  simpa using hall code.toNat code.toNat_lt

/-- The decoder on a string that has a header; the check against
`MAX_PAYLOAD_SIZE` never fires, since the field has two bytes. -/
theorem deserialize_header (version code high low : UInt8) (payload : Bytes) :
    deserialize (version :: code :: high :: low :: payload) =
      if version ≠ protocolVersion then
        .error (.packetError ("Unknown version: 0x" ++ hexByte version))
      else
        match PacketType.ofCode code with
        | none =>
          .error (.packetError ("Unknown packet type: 0x" ++ hexByte code))
        | some packetType =>
          let length := BigEndian.decode [high, low]
          if payload.length < length then
            .error (.packetError (s!"Truncated payload: declared {length}"
              ++ s!", got {payload.length}"))
          else .ok ⟨version, packetType, payload.take length⟩ := by
  have hfield : ¬ BigEndian.decode [high, low] > maxPayloadSize := by
    have hlt := BigEndian.decode_lt [high, low]
    simp only [length_cons, length_nil] at hlt
    simp only [maxPayloadSize]
    omega
  rw [deserialize, if_neg (by simp [headerSize])]
  simp only [headerSize, take_succ_cons, take_zero, unpackHeader,
    drop_succ_cons, drop_zero]
  change (if version ≠ protocolVersion then _ else _) = _
  cases PacketType.ofCode code with
  | none => rfl
  | some => simp only [if_neg hfield]

theorem serialize_take {version code high low : UInt8} {payload : Bytes}
    {packetType : PacketType} (hcode : packetType.code = code)
    (hlen : BigEndian.decode [high, low] ≤ payload.length) :
    serialize ⟨version, packetType,
        payload.take (BigEndian.decode [high, low])⟩ =
      .ok (version :: code :: high :: low ::
        payload.take (BigEndian.decode [high, low])) := by
  have hfield : structPack 2 (BigEndian.decode [high, low]) =
      .ok [high, low] := structPack_decode rfl
  simp only [serialize, length_take, Nat.min_eq_left hlen, hfield, hcode]
  rfl

theorem exact (data : Bytes) :
    Exact deserialize serialize declaredLength id data := by
  match data with
  | [] | [_] | [_, _] | [_, _, _] => exact .refuses rfl rfl
  | version :: code :: high :: low :: payload =>
    have hopen := deserialize_header version code high low payload
    by_cases hversion : version = protocolVersion
    · rw [if_neg (not_not.mpr hversion)] at hopen
      cases htype : PacketType.ofCode code with
      | none =>
        rw [htype] at hopen
        have hrange := (ofCode_eq_none_iff code).mp htype
        exact .refuses (if_neg fun hall => hrange hall.2.1) hopen
      | some =>
        rw [htype] at hopen
        have hrange : 0x01 ≤ code ∧ code ≤ 0x0A := by
          by_contra hout
          rw [(ofCode_eq_none_iff code).mpr hout] at htype
          cases htype
        by_cases hlen : BigEndian.decode [high, low] ≤ payload.length
        · refine .accepts (if_pos ⟨hversion, hrange, hlen⟩) ?_
            (hopen.trans (if_neg (Nat.not_lt.mpr hlen))) ?_
          · simp only [headerSize, length_cons]
            omega
          · rw [serialize_take (PacketType.code_of_ofCode htype) hlen]
            simp [headerSize, Nat.add_comm 4]
        · exact .refuses (if_neg fun hall => hlen hall.2.2)
            (hopen.trans (if_pos (Nat.lt_of_not_le hlen)))
    · rw [if_pos hversion] at hopen
      exact .refuses (if_neg fun hall => hversion hall.1) hopen

end Packet

namespace Payload

/-- The bytes each payload class reads. -/
def declaredLength : PacketType → Bytes → Option Nat
  | .hello => fixedLength 144
  | .helloAck => fixedLength 152
  | .data => DataPayload.declaredLength
  | .ack | .sync | .appAck => fixedLength 12
  | .endpointUpdate => EndpointUpdatePayload.declaredLength
  | .resolveRequest => fixedLength 49
  | .ping | .pong => fixedLength 16

/-- How the bytes read are written back: as they stood, but for the hop
budget of a request. -/
def normal : PacketType → Bytes → Bytes
  | .resolveRequest => clampTtl
  | _ => id

theorem exact (ip : IpLibrary) (packetType : PacketType) (data : Bytes) :
    Exact (deserialize ip packetType) (serialize ip)
      (declaredLength packetType) (normal packetType) data := by
  cases packetType with
  | hello => exact (HelloPayload.exact data).map Payload.hello fun _ => rfl
  | helloAck =>
    exact (HelloAckPayload.exact data).map Payload.helloAck fun _ => rfl
  | data => exact (DataPayload.exact data).map Payload.data fun _ => rfl
  | ack =>
    exact (numbered_exact "AckPayload" AckPayload.mk (fun _ _ => rfl)
      data).map Payload.ack fun _ => rfl
  | endpointUpdate =>
    exact (EndpointUpdatePayload.exact ip data).map Payload.endpointUpdate
      fun _ => rfl
  | resolveRequest =>
    exact (ResolveRequestPayload.exact data).map Payload.resolveRequest
      fun _ => rfl
  | ping =>
    exact (paired_exact "PingPayload" PingPayload.mk (fun _ _ => rfl)
      data).map Payload.ping fun _ => rfl
  | pong =>
    exact (paired_exact "PongPayload" PongPayload.mk (fun _ _ => rfl)
      data).map Payload.pong fun _ => rfl
  | sync =>
    exact (numbered_exact "SyncPayload" SyncPayload.mk (fun _ _ => rfl)
      data).map Payload.sync fun _ => rfl
  | appAck =>
    exact (numbered_exact "AppAckPayload" AppAckPayload.mk (fun _ _ => rfl)
      data).map Payload.appAck fun _ => rfl

end Payload

/-- Every decoder of the format, the frame's and the ten payload classes',
accepts exactly its grammar and raises nothing but `PacketError`. -/
theorem decoders_exact (ip : IpLibrary) (data : Bytes) :
    Exact Packet.deserialize Packet.serialize Packet.declaredLength id data ∧
      ∀ packetType, Exact (Payload.deserialize ip packetType)
        (Payload.serialize ip) (Payload.declaredLength packetType)
        (Payload.normal packetType) data :=
  ⟨Packet.exact data, fun packetType => Payload.exact ip packetType data⟩

end AshiChat
