/-
Key agreement between honest nodes over a network that may alter, mix and
replay handshake packets.  The network hands every call an arbitrary packet;
the history records what the nodes' own keys signed and which HELLOs they
accepted.
-/
import AshiChat.Handshake
import AshiChat.Kit.EventRun
import AshiChat.Reference

namespace AshiChat

open EventRun List HelloAckPayload Except

/-- One `process_hello` call that succeeded. -/
structure Acceptance (P : Primitives) where
  responder : LocalIdentity P
  hello : HelloPayload
  draw : AckDraw
  keys : SessionKeys
deriving DecidableEq

/-- What the nodes did so far: the HELLOs they created, the HELLOs they
accepted, and everything signed with their identity keys. -/
structure HandshakeHistory (P : Primitives) where
  started : List (LocalIdentity P × HandshakeState) := []
  accepted : List (Acceptance P) := []
  signed : List (LocalIdentity P × Bytes) := []

/-- The bytes `_build_endpoint_update` signs. -/
def endpointSignedData (ip : String) (port : UInt16) (version : UInt64) :
    Bytes :=
  ip.toUTF8.toList ++ BigEndian.encode 2 port.toNat ++
    BigEndian.encode 8 version.toNat ++ ascii "ashichat-endpoint-v1"

/-- The calls that use an identity key or finish a handshake.  Each packet is
the network's choice. -/
inductive HandshakeEvent (P : Primitives) where
  | start (node : LocalIdentity P) (draw : HelloDraw)
  | receiveHello (node : LocalIdentity P) (packet : Packet)
      (known : List PeerId) (draw : AckDraw)
  | receiveAck (index : Nat) (packet : Packet) (known : List PeerId)
  | advertise (node : LocalIdentity P) (ip : String) (port : UInt16)
      (version : UInt64)

namespace HandshakeHistory

variable {P : Primitives}

/-- The listener is bound to an IPv4 address, so a node only ever advertises
dotted quads. -/
def ipv4Length : Nat := 15

def step (history : HandshakeHistory P) : HandshakeEvent P → HandshakeHistory P
  | .start node draw =>
    let hello := helloPayload node draw
    { history with
      started := history.started ++ [(node, (createHello node draw).2)]
      signed := history.signed ++ [(node, helloSignedData
        hello.ephemeralPublicKey hello.randomNonce)] }
  | .receiveHello node packet known draw =>
    match HelloPayload.deserialize packet.payload,
        processHello packet known node draw with
    | .ok hello, .ok (some (_, keys)) =>
      { history with
        accepted := history.accepted ++ [⟨node, hello, draw, keys⟩]
        signed := history.signed ++ [(node, ackSignedData
          draw.sessionId.val (P.x25519PublicKey draw.ephemeral.val)
          hello.ephemeralPublicKey hello.randomNonce)] }
    | _, _ => history
  | .receiveAck .. => history
  | .advertise node ip port version =>
    if ip.toUTF8.toList.length ≤ ipv4Length then
      { history with
        signed := history.signed ++
          [(node, endpointSignedData ip port version)] }
    else history

/-- Ideal signatures: what verifies under an honest node's key in a HELLO_ACK
was signed by that node. -/
def IdealSignatures (honest : List (LocalIdentity P))
    (history : HandshakeHistory P) : HandshakeEvent P → Prop
  | .receiveAck index packet _ =>
    ∀ node state ack, history.started[index]? = some (node, state) →
      deserialize packet.payload = .ok ack →
      ∀ owner ∈ honest, owner.publicKeyBytes = ack.identityPublicKey →
      let data := ackSignedData ack.sessionId ack.ephemeralPublicKey
        state.ephemeralPublicKeyBytes state.localNonce
      verifySignature P ack.identityPublicKey data ack.signature = true →
      (owner, data) ∈ history.signed
  | _ => True

/-- `owner` accepted a HELLO with the initiator's ephemeral key and nonce, and
gave the session the id the initiator has. -/
def Answered (owner : LocalIdentity P) (state : HandshakeState)
    (keys : SessionKeys) (accepted : Acceptance P) : Prop :=
  accepted.responder = owner ∧
    accepted.hello.ephemeralPublicKey = state.ephemeralPublicKeyBytes ∧
    accepted.hello.randomNonce = state.localNonce ∧
    accepted.keys.sessionId = keys.sessionId

/-- Every HELLO_ACK accepted in the name of an honest node satisfies
`agrees`, for some HELLO that node answered. -/
def EveryAckMeets (agrees : HelloAckPayload → SessionKeys → Acceptance P → Prop)
    (honest : List (LocalIdentity P)) (history : HandshakeHistory P) :
    HandshakeEvent P → Prop
  | .receiveAck index packet known =>
    ∀ node state ack keys, history.started[index]? = some (node, state) →
      deserialize packet.payload = .ok ack →
      processHelloAck P packet state known = .ok (some keys) →
      ∀ owner ∈ honest, owner.publicKeyBytes = keys.remotePublicKeyBytes →
      ∃ accepted ∈ history.accepted,
        Answered owner state keys accepted ∧ agrees ack keys accepted
  | _ => True

/-- Both ends derived the same key. -/
def SameKey (_ : HelloAckPayload) (keys : SessionKeys)
    (accepted : Acceptance P) : Prop :=
  accepted.keys.encryptionKey = keys.encryptionKey

/-- Both ends derived the same key, provided the HELLO_ACK arrived with the
nonce the responder drew. -/
def SameKeyIfNonceIntact (ack : HelloAckPayload) (keys : SessionKeys)
    (accepted : Acceptance P) : Prop :=
  ack.randomNonce = accepted.draw.nonce.val →
    accepted.keys.encryptionKey = keys.encryptionKey

/-- What the history always records: acceptances come from `process_hello`,
and every signed string as long as a HELLO_ACK's belongs to one of them. -/
structure Recorded (history : HandshakeHistory P) : Prop where
  started : ∀ entry ∈ history.started, ∃ draw : HelloDraw,
    entry.2 = draw.state P
  accepted : ∀ accepted ∈ history.accepted, accepted.hello.Sized ∧
    ∃ secret, P.x25519Exchange accepted.draw.ephemeral.val
        accepted.hello.ephemeralPublicKey = some secret ∧
      accepted.keys = responderKeys P accepted.hello accepted.draw secret
  signed : ∀ entry ∈ history.signed, entry.2.length < 88 ∨
    ∃ accepted ∈ history.accepted, accepted.responder = entry.1 ∧
      entry.2 = ackSignedData accepted.draw.sessionId.val
        (P.x25519PublicKey accepted.draw.ephemeral.val)
        accepted.hello.ephemeralPublicKey accepted.hello.randomNonce

theorem recorded_empty : Recorded ({} : HandshakeHistory P) :=
  ⟨by simp, by simp, by simp⟩

theorem length_endpointSignedData {ip : String} (port : UInt16)
    (version : UInt64) (hip : ip.toUTF8.toList.length ≤ ipv4Length) :
    (endpointSignedData ip port version).length < 88 := by
  have htext : (ascii "ashichat-endpoint-v1").length = 20 := by decide
  simp only [endpointSignedData, length_append, BigEndian.length_encode, htext]
  unfold ipv4Length at hip
  omega

variable {history : HandshakeHistory P}

/-- Strings signed outside `process_hello` are too short for a HELLO_ACK. -/
theorem Recorded.sign (hrec : Recorded history) (node : LocalIdentity P)
    {data : Bytes} (hdata : data.length < 88) :
    Recorded { history with signed := history.signed ++ [(node, data)] } := by
  refine ⟨hrec.started, hrec.accepted, ?_⟩
  intro entry hmem
  rcases mem_append.mp hmem with hold | hnew
  · exact hrec.signed entry hold
  · rw [mem_singleton] at hnew
    exact Or.inl (hnew ▸ hdata)

theorem Recorded.step (hrec : Recorded history) (event : HandshakeEvent P) :
    Recorded (history.step event) := by
  cases event with
  | start node draw =>
    have hlength : (helloSignedData (helloPayload node draw).ephemeralPublicKey
        (helloPayload node draw).randomNonce).length < 88 := by
      have hsized := helloPayload_sized node draw
      simp [helloSignedData, hsized.ephemeral, hsized.nonce]
    obtain ⟨hstarted, haccepted, hsigned⟩ := hrec.sign node hlength
    refine ⟨?_, haccepted, hsigned⟩
    intro entry hmem
    rcases mem_append.mp hmem with hold | hnew
    · exact hstarted entry hold
    · rw [mem_singleton] at hnew
      exact ⟨draw, hnew ▸ rfl⟩
  | receiveHello =>
    simp only [HandshakeHistory.step]
    split
    · next _ _ _ hdec hprocess =>
      obtain ⟨_, secret, hdec', _, hsecret, _, hkeys⟩ :=
        processHello_eq_some_iff.mp hprocess
      rw [hdec, ok.injEq] at hdec'
      subst hdec'
      refine ⟨hrec.started, ?_, ?_⟩
      · intro accepted hmem
        rcases mem_append.mp hmem with hold | hnew
        · exact hrec.accepted accepted hold
        · rw [mem_singleton] at hnew
          subst hnew
          exact ⟨HelloPayload.sized_of_deserialize hdec, secret, hsecret, hkeys⟩
      · intro entry hmem
        rcases mem_append.mp hmem with hold | hnew
        · exact (hrec.signed entry hold).imp_right fun ⟨r, hr, hfacts⟩ =>
            ⟨r, mem_append_left _ hr, hfacts⟩
        · rw [mem_singleton] at hnew
          subst hnew
          exact Or.inr ⟨_, mem_append_right _ mem_cons_self, rfl, rfl⟩
    · exact hrec
  | receiveAck => exact hrec
  | advertise node _ port version =>
    simp only [HandshakeHistory.step]
    split
    · next hip =>
      exact hrec.sign node (length_endpointSignedData port version hip)
    · exact hrec

/-- A HELLO_ACK that verifies under an honest key repeats four fields of an
answer that node gave. -/
theorem Recorded.exists_answer (hrec : Recorded history)
    {owner : LocalIdentity P} {ack : HelloAckPayload} (hack : ack.Sized)
    (draw : HelloDraw)
    (hsigned : (owner, ackSignedData ack.sessionId ack.ephemeralPublicKey
      (draw.state P).ephemeralPublicKeyBytes (draw.state P).localNonce) ∈
        history.signed) :
    ∃ accepted ∈ history.accepted, accepted.responder = owner ∧
      ack.sessionId = accepted.draw.sessionId.val ∧
      ack.ephemeralPublicKey = P.x25519PublicKey accepted.draw.ephemeral.val ∧
      (draw.state P).ephemeralPublicKeyBytes =
        accepted.hello.ephemeralPublicKey ∧
      (draw.state P).localNonce = accepted.hello.randomNonce := by
  have hephemeral : (draw.state P).ephemeralPublicKeyBytes.length = 32 :=
    P.x25519PublicKey_length _
  have hnonce : (draw.state P).localNonce.length = 16 := draw.nonce.property
  rcases hrec.signed _ hsigned with hshort | ⟨accepted, hmem, howner, hdata⟩
  · simp only [ackSignedData, length_append, hack.sessionId,
      hack.ephemeral, hephemeral, hnonce] at hshort
    omega
  · have hhello := (hrec.accepted accepted hmem).1
    obtain ⟨hid, heph, hremote, hnonces⟩ := ackSignedData_injective
      (hack.sessionId.trans accepted.draw.sessionId.property.symm)
      (hack.ephemeral.trans (P.x25519PublicKey_length _).symm)
      (hephemeral.trans hhello.ephemeral.symm) hdata
    exact ⟨accepted, hmem, howner, hid, heph, hremote, hnonces⟩

theorem everyAckMeets_of_ideal (hcomm : P.ExchangeCommutes)
    {honest : List (LocalIdentity P)} (hrec : Recorded history)
    (event : HandshakeEvent P) (hideal : IdealSignatures honest history event) :
    EveryAckMeets SameKeyIfNonceIntact honest history event := by
  cases event with
  | receiveAck =>
    intro node state ack keys hstarted hdec hprocess owner howner hpublic
    obtain ⟨_, secret, hdec', hverifies, hsecret, rfl⟩ :=
      processHelloAck_eq_some_iff.mp hprocess
    rw [hdec, ok.injEq] at hdec'
    subst hdec'
    simp only [ackVerifies, Bool.and_eq_true] at hverifies
    obtain ⟨draw, hstate⟩ := hrec.started _ (mem_of_getElem? hstarted)
    simp only at hstate
    subst hstate
    have hsigned := hideal node _ ack hstarted hdec owner howner hpublic
      hverifies.2
    obtain ⟨accepted, hmem, hresponder, hid, heph, hremote, hnonce⟩ :=
      hrec.exists_answer (sized_of_deserialize hdec) draw hsigned
    obtain ⟨_, secret', hsecret', hkeys⟩ := hrec.accepted accepted hmem
    refine ⟨accepted, hmem, ⟨hresponder, hremote.symm, hnonce.symm, ?_⟩, ?_⟩
    · rw [hkeys]
      exact hid.symm
    · intro hintact
      -- Both ends computed the exchange of the same two ephemeral keys.
      have hsame : secret' = secret := by
        have hboth := hcomm draw.ephemeral.val accepted.draw.ephemeral.val
        rw [heph] at hsecret
        rw [← hremote] at hsecret'
        exact Option.some.inj (hsecret'.symm.trans (hboth.symm.trans hsecret))
      rw [hkeys]
      simp only [responderKeys, initiatorKeys, ← hnonce, hintact, hsame]
  | _ => trivial

end HandshakeHistory

/-- Under ideal signatures, whoever accepts a HELLO_ACK of an honest node
shares the session id with it, and the key as well if the nonce of the
HELLO_ACK arrived unaltered. -/
theorem handshake_keys_agree {P : Primitives} (hcomm : P.ExchangeCommutes)
    (honest : List (LocalIdentity P)) {events : List (HandshakeEvent P)}
    (hideal : EveryStep HandshakeHistory.step
      (HandshakeHistory.IdealSignatures honest) {} events) :
    EveryStep HandshakeHistory.step (HandshakeHistory.EveryAckMeets
      HandshakeHistory.SameKeyIfNonceIntact honest) {} events := by
  have hkeep : ∀ (history : HandshakeHistory P) event,
      history.Recorded → (history.step event).Recorded :=
    fun _ event hrec => hrec.step event
  refine everyStep_imp hkeep ?_ HandshakeHistory.recorded_empty hideal
  intro history event hrec
  exact HandshakeHistory.everyAckMeets_of_ideal hcomm hrec event

namespace KeyAgreementWitness

open Reference

def alice : LocalIdentity primitives := .ofPrivateKey _ (replicate 32 1)

def bob : LocalIdentity primitives := .ofPrivateKey _ (replicate 32 2)

def helloDraw : HelloDraw where
  ephemeral := constant 32 3
  nonce := constant 16 4

def ackDraw : AckDraw where
  ephemeral := constant 32 5
  nonce := constant 16 6
  sessionId := constant 8 7

def hello : Packet := (createHello alice helloDraw).1

/-- The answer as it was sent. -/
def answer : HelloAckPayload :=
  ackPayload bob (helloPayload alice helloDraw) ackDraw

/-- The answer with another nonce; no signature covers it. -/
def tampered : HelloAckPayload := { answer with randomNonce := replicate 16 8 }

/-- A HELLO and its acceptance. -/
def opening : List (HandshakeEvent primitives) :=
  [.start alice helloDraw, .receiveHello bob hello [alice.peerId] ackDraw]

/-- The network delivers `ack` as the answer to the HELLO. -/
def exchange (ack : HelloAckPayload) : List (HandshakeEvent primitives) :=
  opening ++ [.receiveAck 0 (makePacket .helloAck ack.serialize) [bob.peerId]]

def beforeAck : HandshakeHistory primitives :=
  run HandshakeHistory.step {} opening

theorem beforeAck_started : beforeAck.started[0]? =
    some (alice, helloDraw.state primitives) := by decide +kernel

/-- Both answers carry what the responder signed. -/
theorem exchange_ideal (ack : HelloAckPayload) (hsized : ack.Sized)
    (hid : ack.sessionId = answer.sessionId)
    (heph : ack.ephemeralPublicKey = answer.ephemeralPublicKey)
    (hidentity : ack.identityPublicKey = answer.identityPublicKey) :
    EveryStep HandshakeHistory.step
      (HandshakeHistory.IdealSignatures [alice, bob]) {} (exchange ack) := by
  refine (everyStep_append ..).mpr ⟨⟨trivial, trivial, trivial⟩, ?_, trivial⟩
  intro node state ack' hstarted hdec owner howner hpublic data _
  simp only [makePacket, deserialize_serialize hsized, ok.injEq] at hdec
  subst hdec
  change beforeAck.started[0]? = some (node, state) at hstarted
  rw [beforeAck_started, Option.some.injEq, Prod.mk.injEq] at hstarted
  obtain ⟨rfl, rfl⟩ := hstarted
  have howner' : owner = bob := by
    simp only [mem_cons, not_mem_nil, or_false] at howner
    refine howner.resolve_left ?_
    rintro rfl
    rw [hidentity] at hpublic
    exact absurd hpublic (by decide +kernel)
  subst howner'
  have hmem : (bob, ackSignedData answer.sessionId answer.ephemeralPublicKey
      (helloDraw.state primitives).ephemeralPublicKeyBytes
      (helloDraw.state primitives).localNonce) ∈
        beforeAck.signed := by decide +kernel
  simp only [data, hid, heph]
  exact hmem

theorem answer_sized : answer.Sized := ackPayload_sized ..

theorem tampered_sized : tampered.Sized := { answer_sized with nonce := rfl }

/-- The altered answer verifies and leaves the two ends with different
keys. -/
theorem tampered_nonce_splits_keys : primitives.ExchangeCommutes ∧
      EveryStep HandshakeHistory.step
        (HandshakeHistory.IdealSignatures [alice, bob]) {}
        (exchange tampered) ∧
      ¬ EveryStep HandshakeHistory.step
        (HandshakeHistory.EveryAckMeets HandshakeHistory.SameKey
          [alice, bob]) {} (exchange tampered) := by
  refine ⟨exchangeCommutes,
    exchange_ideal tampered tampered_sized rfl rfl rfl, ?_⟩
  intro hevery
  obtain ⟨_, hmeets, _⟩ := (everyStep_append ..).mp hevery
  have hkeys : processHelloAck primitives
      (makePacket .helloAck tampered.serialize)
      (helloDraw.state primitives) [bob.peerId] =
        .ok (some (initiatorKeys primitives tampered
          (helloDraw.state primitives)
          (mix 32 (replicate 32 3) (replicate 32 5)))) := by
    decide +kernel
  obtain ⟨accepted, hmem, _, hsame⟩ := hmeets alice _ tampered _
    beforeAck_started (deserialize_serialize tampered_sized) hkeys bob (by
    decide +kernel) (by decide +kernel)
  have honly : beforeAck.accepted = [⟨bob, helloPayload alice helloDraw,
      ackDraw, responderKeys primitives (helloPayload alice helloDraw)
        ackDraw (mix 32 (replicate 32 5)
          (replicate 32 3))⟩] := by decide +kernel
  have hmem' : accepted ∈ beforeAck.accepted := hmem
  rw [honly, mem_singleton] at hmem'
  subst hmem'
  unfold HandshakeHistory.SameKey at hsame
  exact absurd hsame (by decide +kernel)

/-- The exchange with the answer as it was sent. -/
theorem untampered_keys_agree : primitives.ExchangeCommutes ∧
      EveryStep HandshakeHistory.step (HandshakeHistory.EveryAckMeets
        HandshakeHistory.SameKeyIfNonceIntact [alice, bob]) {}
        (exchange answer) :=
  ⟨exchangeCommutes, handshake_keys_agree exchangeCommutes [alice, bob]
      (exchange_ideal answer answer_sized rfl rfl rfl)⟩

end KeyAgreementWitness

end AshiChat
