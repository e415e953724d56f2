/-
What a node says about its own address, as a peer reads it (`node.py`,
`packet.py`).  The node signs the address text it was given; the wire carries
the packed address, and the peer checks the signature over the text that
`ipaddress` prints for it.  The text stands in the signed bytes without a
length; what follows it has a fixed width.
-/
import AshiChat.Resolution
import AshiChat.WireRoundTrip
import AshiChat.Reference

namespace AshiChat

open List

variable {P : Primitives}

/-- The update as `_handle_endpoint_update` reads it from the datagram. -/
def receivedUpdate (ip : IpLibrary) (update : EndpointUpdatePayload) :
    Except PyError EndpointUpdatePayload := do
  let packet ← makeTypedPacket ip .endpointUpdate (.endpointUpdate update)
  let data ← packet.serialize
  let received ← Packet.deserialize data
  EndpointUpdatePayload.deserialize ip received.payload

variable {update : EndpointUpdatePayload}

/-- An update in the form that the wire preserves is received as it is. -/
theorem receivedUpdate_eq {ip : IpLibrary}
    (hsized : update.Sized ip) (hunscoped : update.Unscoped ip) :
    receivedUpdate ip update = .ok update := by
  have hformed : (Payload.endpointUpdate update).Formed ip := hsized
  obtain ⟨_, hserialize, hfits⟩ := Payload.serialize_ok hformed
  obtain ⟨_, hframe, hunframe⟩ :=
    Packet.deserialize_serialize .endpointUpdate hfits
  have hdecode := EndpointUpdatePayload.deserialize_serialize ip hsized
    hunscoped hserialize
  simp only [receivedUpdate, makeTypedPacket, hserialize]
  rw [← hdecode]
  simp only [Except.bind, bind, pure, Except.pure] at hframe ⊢
  rw [hframe]
  simp only [hunframe]
  rfl

theorem exists_unscoped (ip : IpLibrary) (address : ip.Address) :
    ∃ plain, ip.scopeId plain = none ∧ ip.isIPv4 plain = ip.isIPv4 address ∧
      ip.packed plain = ip.packed address := by
  have hlength := ip.length_packed address
  cases hfour : ip.isIPv4 address with
  | true =>
    obtain ⟨plain, -, hsame, hpacked, hscope⟩ :=
      ip.ipv4Address_ok (ip.packed address) (by simpa [hfour] using hlength)
    exact ⟨plain, hscope, hsame, hpacked⟩
  | false =>
    obtain ⟨plain, -, hsame, hpacked, hscope⟩ :=
      ip.ipv6Address_ok (ip.packed address) (by simpa [hfour] using hlength)
    exact ⟨plain, hscope, hsame, hpacked⟩

/-- Whatever the address text, the update arrives with the text that is printed
for the packed address. -/
theorem receivedUpdate_unscoped {ip : IpLibrary} {address plain : ip.Address}
    (haccepted : ip.ipAddress update.endpointIp = some address)
    (hscope : ip.scopeId plain = none)
    (hfour : ip.isIPv4 plain = ip.isIPv4 address)
    (hpacked : ip.packed plain = ip.packed address)
    (hsized : EndpointUpdatePayload.Sized ip
      { update with endpointIp := ip.str plain }) :
    receivedUpdate ip update =
      .ok { update with endpointIp := ip.str plain } := by
  have hsame : update.serialize ip = EndpointUpdatePayload.serialize ip
        { update with endpointIp := ip.str plain } := by
    simp only [EndpointUpdatePayload.serialize, haccepted, ip.ipAddress_str,
      hfour, hpacked]
  rw [← receivedUpdate_eq hsized]
  · simp only [receivedUpdate, makeTypedPacket, Payload.serialize, hsame]
  · simp only [EndpointUpdatePayload.Unscoped, ip.ipAddress_str,
      Option.bind_some, hscope]

theorem toList_loop (bytes : ByteArray) (start : Nat) (acc : Bytes) :
    ByteArray.toList.loop bytes start acc =
      acc.reverse ++ bytes.data.toList.drop start := by
  fun_induction ByteArray.toList.loop bytes start acc with
  | case1 start acc hlt ih =>
    have hstart : start < bytes.data.toList.length := by simpa using hlt
    rw [ih, reverse_cons, append_assoc, singleton_append,
      drop_eq_getElem_cons hstart]
    simp [ByteArray.get!, getElem!_pos, hlt]
  | case2 start acc hge =>
    rw [drop_eq_nil_of_le (by simpa using hge), append_nil]

/-- A text is determined by its UTF-8 bytes. -/
theorem toUTF8_toList_injective {left right : String}
    (heq : left.toUTF8.toList = right.toUTF8.toList) : left = right := by
  simp only [ByteArray.toList, toList_loop, reverse_nil, nil_append,
    drop_zero] at heq
  exact String.toByteArray_inj.mp (ByteArray.ext (Array.toList_inj.mp heq))

theorem endpointSigData_eq_ok {ip : String} {port version : Nat}
    {data : Bytes} :
    endpointSigData ip port version = .ok data ↔
      (port < 2 ^ 16 ∧ version < 2 ^ 64) ∧
        data = ip.toUTF8.toList ++ BigEndian.encode 2 port ++
          BigEndian.encode 8 version ++ ascii "ashichat-endpoint-v1" := by
  unfold endpointSigData
  split
  · next hfits =>
    rw [and_iff_right hfits, Except.ok.injEq, endpointSignedData,
      UInt16.toNat_ofNat_of_lt' hfits.1, UInt64.toNat_ofNat_of_lt' hfits.2]
    exact eq_comm
  · next hfits => exact iff_of_false (by rintro ⟨⟩) fun hok => hfits hok.1

/-- Different records have different signed bytes: the tail after the text
has the same length in all of them. -/
theorem endpointSigData_injective {left right : String}
    {leftPort rightPort leftVersion rightVersion : Nat} {data : Bytes}
    (hleft : endpointSigData left leftPort leftVersion = .ok data)
    (hright : endpointSigData right rightPort rightVersion = .ok data) :
    (left, leftPort, leftVersion) = (right, rightPort, rightVersion) := by
  obtain ⟨hleftFits, rfl⟩ := endpointSigData_eq_ok.mp hleft
  obtain ⟨hrightFits, heq⟩ := endpointSigData_eq_ok.mp hright
  obtain ⟨hfront, -⟩ := append_inj' heq rfl
  obtain ⟨hfront, hversion⟩ := append_inj' hfront (by simp)
  obtain ⟨htext, hport⟩ := append_inj' hfront (by simp)
  rw [toUTF8_toList_injective htext,
    BigEndian.encode_injective hleftFits.1 hrightFits.1 hport,
    BigEndian.encode_injective hleftFits.2 hrightFits.2 hversion]

/-- The record an update is about, and the bytes its signature covers. -/
def EndpointUpdatePayload.record (update : EndpointUpdatePayload) :
    String × Nat × Nat :=
  (update.endpointIp, update.endpointPort, update.versionCounter)

def EndpointUpdatePayload.sigData (update : EndpointUpdatePayload) :
    Except PyError Bytes :=
  endpointSigData update.endpointIp update.endpointPort update.versionCounter

/-- The updates a node builds for one address after the other. -/
def advertised (identity : LocalIdentity P) (localVersion : Nat)
    (endpoints : List Address) : List EndpointUpdatePayload :=
  EventRun.outputs
    (fun version endpoint => (buildEndpointUpdate identity version endpoint).1)
    (fun version endpoint =>
      (buildEndpointUpdate identity version endpoint).2.toOption.toList)
    localVersion endpoints

/-- Ideal signatures of a peer that signs nothing but its own updates: what
verifies under its key is what one of them is signed for. -/
def SignsOnly (peer : LocalIdentity P) (updates : List EndpointUpdatePayload) :
    Prop :=
  ∀ data signature,
    verifySignature P peer.publicKeyBytes data signature = true →
      ∃ update ∈ updates, update.sigData = .ok data

theorem SignsOnly.exists_record {peer : LocalIdentity P}
    {updates : List EndpointUpdatePayload} (hideal : SignsOnly peer updates)
    (hsigned : update.signedBy P peer.publicKeyBytes = true) :
    ∃ signed ∈ updates, update.record = signed.record := by
  rw [EndpointUpdatePayload.signedBy] at hsigned
  split at hsigned
  · cases hsigned
  · next data hdata =>
    obtain ⟨signed, hmem, hsame⟩ :=
      hideal data _ (Bool.and_eq_true_iff.mp hsigned).2
    exact ⟨signed, hmem, endpointSigData_injective hdata hsame⟩

/-- The node's own update reaches a peer that has its key, and verifies there
if the address is given in the form that `ipaddress` prints and has no scope.
If the node signs nothing but updates, each version for one address, it does
not verify otherwise. -/
theorem genuine_update_verifies_iff (ip : IpLibrary)
    (identity : LocalIdentity P) {localVersion port : Nat} {text : String}
    {address : ip.Address} (haccepted : ip.ipAddress text = some address)
    (hport : port < 2 ^ 16) (hversion : localVersion + 1 < 2 ^ 64)
    {table : PeerTable}
    (hkey : (table.peers.get? identity.peerId).map PeerEntry.publicKey =
      some identity.publicKeyBytes)
    (hverify : ∀ data, endpointSigData text port (localVersion + 1) = .ok data →
        verifySignature P identity.publicKeyBytes data (identity.sign data) =
          true) :
    ∃ update received,
      (buildEndpointUpdate identity localVersion (text, port)).2 = .ok update ∧
      receivedUpdate ip update = .ok received ∧
      (ip.str address = text ∧ ip.scopeId address = none →
        verifyEndpointSignature P table received = true) ∧
      ∀ updates, SignsOnly identity updates →
        (∀ signed ∈ updates, signed.versionCounter = localVersion + 1 →
          signed.endpointIp = text) →
        (verifyEndpointSignature P table received = true ↔
          ip.str address = text ∧ ip.scopeId address = none) := by
  obtain ⟨data, hdata⟩ :
      ∃ data, endpointSigData text port (localVersion + 1) = .ok data :=
    ⟨_, if_pos ⟨hport, hversion⟩⟩
  obtain ⟨plain, hplain, hfour, hpacked⟩ := exists_unscoped ip address
  have hsized : EndpointUpdatePayload.Sized ip ⟨identity.peerId,
      ip.str plain, port, localVersion + 1, identity.sign data⟩ := by
    refine ⟨?_, ⟨plain, rfl⟩, hport, hversion, identity.length_sign data⟩
    rw [identity.peerId_eq, derivePeerId, P.sha256_length]
  refine ⟨⟨identity.peerId, text, port, localVersion + 1, identity.sign data⟩,
    _, by rw [buildEndpointUpdate, hdata]; rfl,
    receivedUpdate_unscoped haccepted hplain hfour hpacked hsized, ?_⟩
  rw [verifyEndpointSignature_eq hkey]
  have hverifies : ip.str address = text ∧ ip.scopeId address = none →
      EndpointUpdatePayload.signedBy P identity.publicKeyBytes
        ⟨identity.peerId, ip.str plain, port, localVersion + 1,
          identity.sign data⟩ = true := by
    rintro ⟨hcanonical, hscope⟩
    have hsame : plain = address :=
      ip.eq_of_packed _ _ hfour hpacked (hplain.trans hscope.symm)
    simp only [EndpointUpdatePayload.signedBy, hsame, hcanonical, hdata,
      identity.length_publicKeyBytes, hverify data hdata]
    rfl
  refine ⟨hverifies, fun updates hideal honce => ⟨fun hsigned => ?_, hverifies⟩⟩
  obtain ⟨signed, hmem, hrecord⟩ := hideal.exists_record hsigned
  obtain ⟨hip, -, hcounter⟩ : ip.str plain = signed.endpointIp ∧ _ ∧
      localVersion + 1 = signed.versionCounter := by
    simpa [EndpointUpdatePayload.record] using hrecord
  have htext := hip.trans (honce signed hmem hcounter.symm)
  have hsame := ip.ipAddress_str plain
  rw [htext, haccepted, Option.some.injEq] at hsame
  rw [hsame]
  exact ⟨htext, hplain⟩

/-- The signed bytes determine address and version; so an update that is
accepted for a peer carries an address and a version that the peer signed
together. -/
theorem endpoint_signatures_bind :
    (∀ (ip otherIp : String) (port otherPort version otherVersion : Nat),
      port < 2 ^ 16 → otherPort < 2 ^ 16 → version < 2 ^ 64 →
      otherVersion < 2 ^ 64 →
      (ip, port, version) ≠ (otherIp, otherPort, otherVersion) →
      ∃ data otherData, endpointSigData ip port version = .ok data ∧
        endpointSigData otherIp otherPort otherVersion = .ok otherData ∧
        data ≠ otherData) ∧
      ∀ (P : Primitives) (peer : LocalIdentity P) (localVersion : Nat)
        (endpoints : List Address) (table : PeerTable)
        (update : EndpointUpdatePayload),
        SignsOnly peer (advertised peer localVersion endpoints) →
        (table.peers.get? update.peerId).map PeerEntry.publicKey =
          some peer.publicKeyBytes →
        verifyEndpointSignature P table update = true →
        ∃ signed ∈ advertised peer localVersion endpoints,
          update.record = signed.record := by
  constructor
  · intro ip otherIp port otherPort version otherVersion hport hotherPort
      hversion hotherVersion hne
    refine ⟨_, _, if_pos ⟨hport, hversion⟩, if_pos ⟨hotherPort, hotherVersion⟩,
      fun heq => hne ?_⟩
    exact endpointSigData_injective (if_pos ⟨hport, hversion⟩)
      ((if_pos ⟨hotherPort, hotherVersion⟩).trans (congrArg _ heq.symm))
  · intro P peer localVersion endpoints table update hideal hkey haccepted
    rw [verifyEndpointSignature_eq hkey] at haccepted
    exact hideal.exists_record haccepted

namespace GenuineUpdatesWitness

open Reference

def self : LocalIdentity primitives := .ofPrivateKey _ (constant 32 2).val

/-- The table of a peer that has the node as a contact. -/
def table : PeerTable := .load (constant 32 9).val
    (OrderedDict.empty.set self.peerId
      ⟨self.publicKeyBytes, none, 0, none, none, false, none⟩) 0

/-- What the peer makes of the node's first update for port 9000 at the
address. -/
def verdict (text : String) : Except PyError Bool := do
  let update ← (buildEndpointUpdate self 0 (text, 9000)).2
  let received ← receivedUpdate WireWitness.ipaddress update
  return verifyEndpointSignature primitives table received

/-- `ipaddress` accepts a leading zero in an IPv6 group and prints the group
without it; a scope is not sent.  The signature then covers another text. -/
theorem respelled_update_rejected :
    (WireWitness.ipaddress.ipAddress "2001:0db8:1:2:3:4:5:6").isSome = true ∧
    verdict "2001:0db8:1:2:3:4:5:6" = .ok false ∧
    verdict "2001:db8:1:2:3:4:5:6" = .ok true ∧
    (WireWitness.ipaddress.ipAddress "fe80:1:2:3:4:5:6:7%eth0").isSome =
      true ∧
    verdict "fe80:1:2:3:4:5:6:7%eth0" = .ok false := by
  decide +kernel

/-- Primitives under which only the first update of a node verifies. -/
def ideal : Primitives := { primitives with
    ed25519Verify := fun _ _ data =>
      endpointSigData "192.0.2.7" 9000 1 = .ok data }

def peer : LocalIdentity ideal := .ofPrivateKey _ (constant 32 2).val

def contact : PeerTable :=
  (PeerTable.empty []).addDirectPeer peer.peerId peer.publicKeyBytes none none 0

/-- The first update as it arrives. -/
def relayed : EndpointUpdatePayload :=
  ⟨peer.peerId, "192.0.2.7", 9000, 1, (constant 64 0).val⟩

theorem signsOnly_first :
    SignsOnly peer (advertised peer 0 [("192.0.2.7", 9000)]) := by
  intro data signature hverified
  exact ⟨_, mem_cons_self, of_decide_eq_true hverified⟩

theorem endpoint_signatures_bind_first :
    verifyEndpointSignature ideal contact relayed = true ∧
      ∃ signed ∈ advertised peer 0 [("192.0.2.7", 9000)],
        relayed.record = signed.record := by
  have haccepted : verifyEndpointSignature ideal contact relayed = true := by
    decide +kernel
  exact ⟨haccepted, endpoint_signatures_bind.2 ideal peer 0 _ contact relayed
    signsOnly_first (by decide +kernel) haccepted⟩

theorem genuine_update_verifies_iff_ipv4 : ∃ update received,
      (buildEndpointUpdate peer 0 ("192.0.2.7", 9000)).2 = .ok update ∧
      receivedUpdate WireWitness.ipaddress update = .ok received ∧
      verifyEndpointSignature ideal contact received = true := by
  have haccepted : WireWitness.ipaddress.ipAddress "192.0.2.7" =
      some (.v4 ⟨[192, 0, 2, 7], rfl⟩) :=
    WireWitness.ipaddress.ipAddress_str (.v4 ⟨[192, 0, 2, 7], rfl⟩)
  have hkey : (contact.peers.get? peer.peerId).map PeerEntry.publicKey =
      some peer.publicKeyBytes := by decide +kernel
  have hport : 9000 < 2 ^ 16 := by decide
  have hversion : 0 + 1 < 2 ^ 64 := by decide
  obtain ⟨update, received, hbuilt, hreceived, -, hiff⟩ :=
    genuine_update_verifies_iff WireWitness.ipaddress peer haccepted hport
      hversion hkey (fun data hdata => decide_eq_true hdata)
  exact ⟨update, received, hbuilt, hreceived,
    (hiff _ signsOnly_first (by decide)).mpr ⟨by decide +kernel, rfl⟩⟩

end GenuineUpdatesWitness

end AshiChat
