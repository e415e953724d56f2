/-
The HELLO / HELLO_ACK handshake (`handshake.py`) and the long-term identity it
signs with (`identity.py`).  Ephemeral keys, nonces and session ids are drawn
by the environment.
-/
import AshiChat.Session

namespace AshiChat

open Bool List

def derivePeerId (P : Primitives) (publicKey : Bytes) : PeerId :=
  P.sha256 publicKey

def verifySignature (P : Primitives) (publicKey data signature : Bytes) :
    Bool :=
  P.ed25519Verify publicKey signature data

/-- `LocalIdentity`: the public key and the peer id belong to the private
key. -/
structure LocalIdentity (P : Primitives) where
  privateKey : Bytes
  publicKeyBytes : Bytes
  peerId : PeerId
  publicKeyBytes_eq : publicKeyBytes = P.ed25519PublicKey privateKey
  peerId_eq : peerId = derivePeerId P publicKeyBytes
deriving DecidableEq

namespace LocalIdentity

variable {P : Primitives}

def ofPrivateKey (P : Primitives) (privateKey : Bytes) : LocalIdentity P where
  privateKey := privateKey
  publicKeyBytes := P.ed25519PublicKey privateKey
  peerId := derivePeerId P (P.ed25519PublicKey privateKey)
  publicKeyBytes_eq := rfl
  peerId_eq := rfl

def sign (identity : LocalIdentity P) (data : Bytes) : Bytes :=
  P.ed25519Sign identity.privateKey data

theorem length_publicKeyBytes (identity : LocalIdentity P) :
    identity.publicKeyBytes.length = 32 := by
  rw [identity.publicKeyBytes_eq, P.ed25519PublicKey_length]

theorem length_sign (identity : LocalIdentity P) (data : Bytes) :
    (identity.sign data).length = 64 :=
  P.ed25519Sign_length identity.privateKey data

end LocalIdentity

/-- Ephemeral state held by the initiator between HELLO and HELLO_ACK. -/
structure HandshakeState where
  ephemeralPrivateKeyBytes : Bytes
  ephemeralPublicKeyBytes : Bytes
  localNonce : Bytes
  targetPeerId : Option PeerId
deriving DecidableEq, Repr

/-- What `create_hello` draws. -/
structure HelloDraw where
  ephemeral : Random 32
  nonce : Random 16
deriving DecidableEq

/-- What `process_hello` draws. -/
structure AckDraw where
  ephemeral : Random 32
  nonce : Random 16
  sessionId : Random 8
deriving DecidableEq

/-- The bytes a HELLO signs. -/
def helloSignedData (ephemeralPublicKey nonce : Bytes) : Bytes :=
  ephemeralPublicKey ++ nonce

/-- The bytes a HELLO_ACK signs; the responder's own nonce is not among
them. -/
def ackSignedData (sessionId receiverEphemeral initiatorEphemeral
    initiatorNonce : Bytes) : Bytes :=
  sessionId ++ receiverEphemeral ++ initiatorEphemeral ++ initiatorNonce

/-- The state `create_hello` keeps. -/
def HelloDraw.state (P : Primitives) (draw : HelloDraw) : HandshakeState where
  ephemeralPrivateKeyBytes := draw.ephemeral.val
  ephemeralPublicKeyBytes := P.x25519PublicKey draw.ephemeral.val
  localNonce := draw.nonce.val
  targetPeerId := none

/-- The payload `create_hello` sends. -/
def helloPayload {P : Primitives} (identity : LocalIdentity P)
    (draw : HelloDraw) : HelloPayload :=
  let ephemeral := P.x25519PublicKey draw.ephemeral.val
  { identityPublicKey := identity.publicKeyBytes
    ephemeralPublicKey := ephemeral
    randomNonce := draw.nonce.val
    signature := identity.sign (helloSignedData ephemeral draw.nonce.val) }

def createHello {P : Primitives} (identity : LocalIdentity P)
    (draw : HelloDraw) : Packet × HandshakeState :=
  (makePacket .hello (helloPayload identity draw).serialize, draw.state P)

/-- `exchange` raises when the shared secret is all zero. -/
def computeSharedSecret (P : Primitives) (localPrivate remotePublic : Bytes) :
    Except PyError Bytes :=
  match P.x25519Exchange localPrivate remotePublic with
  | some secret => .ok secret
  | none => .error (.valueError "Error computing shared key.")

/-- The HELLO_ACK payload the responder sends. -/
def ackPayload {P : Primitives} (identity : LocalIdentity P)
    (hello : HelloPayload) (draw : AckDraw) : HelloAckPayload :=
  let ephemeral := P.x25519PublicKey draw.ephemeral.val
  { identityPublicKey := identity.publicKeyBytes
    ephemeralPublicKey := ephemeral
    sessionId := draw.sessionId.val
    randomNonce := draw.nonce.val
    signature := identity.sign (ackSignedData draw.sessionId.val ephemeral
      hello.ephemeralPublicKey hello.randomNonce) }

/-- The keys the responder derives from the shared secret. -/
def responderKeys (P : Primitives) (hello : HelloPayload) (draw : AckDraw)
    (secret : Bytes) : SessionKeys where
  encryptionKey := deriveSessionKey P secret hello.randomNonce draw.nonce.val
  sessionId := draw.sessionId.val
  remotePeerId := derivePeerId P hello.identityPublicKey
  remotePublicKeyBytes := hello.identityPublicKey

/-- `process_hello`: `none` for an unknown peer or a bad signature. -/
def processHello {P : Primitives} (packet : Packet) (known : List PeerId)
    (identity : LocalIdentity P) (draw : AckDraw) :
    Except PyError (Option (Packet × SessionKeys)) := do
  let hello ← HelloPayload.deserialize packet.payload
  if derivePeerId P hello.identityPublicKey ∉ known then return none
  if !verifySignature P hello.identityPublicKey
      (helloSignedData hello.ephemeralPublicKey hello.randomNonce)
      hello.signature then
    return none
  let secret ← computeSharedSecret P draw.ephemeral.val hello.ephemeralPublicKey
  return some (makePacket .helloAck (ackPayload identity hello draw).serialize,
      responderKeys P hello draw secret)

/-- The keys the initiator derives from the shared secret. -/
def initiatorKeys (P : Primitives) (ack : HelloAckPayload)
    (state : HandshakeState) (secret : Bytes) : SessionKeys where
  encryptionKey := deriveSessionKey P secret state.localNonce ack.randomNonce
  sessionId := ack.sessionId
  remotePeerId := derivePeerId P ack.identityPublicKey
  remotePublicKeyBytes := ack.identityPublicKey

def processHelloAck (P : Primitives) (packet : Packet)
    (state : HandshakeState) (known : List PeerId) :
    Except PyError (Option SessionKeys) := do
  let ack ← HelloAckPayload.deserialize packet.payload
  if derivePeerId P ack.identityPublicKey ∉ known then return none
  if !verifySignature P ack.identityPublicKey
      (ackSignedData ack.sessionId ack.ephemeralPublicKey
        state.ephemeralPublicKeyBytes state.localNonce)
      ack.signature then
    return none
  let secret ← computeSharedSecret P state.ephemeralPrivateKeyBytes
    ack.ephemeralPublicKey
  return some (initiatorKeys P ack state secret)

variable {P : Primitives} {packet ack : Packet} {known : List PeerId}
  {hello : HelloPayload} {state : HandshakeState} {identity : LocalIdentity P}
  {draw : AckDraw} {keys : SessionKeys}

theorem computeSharedSecret_eq_ok {localPrivate remotePublic secret : Bytes} :
    computeSharedSecret P localPrivate remotePublic = .ok secret ↔
      P.x25519Exchange localPrivate remotePublic = some secret := by
  unfold computeSharedSecret
  cases P.x25519Exchange localPrivate remotePublic <;> simp

/-- The two checks of `process_hello`. -/
def helloVerifies (P : Primitives) (known : List PeerId)
    (hello : HelloPayload) : Bool :=
  decide (derivePeerId P hello.identityPublicKey ∈ known) &&
    verifySignature P hello.identityPublicKey
      (helloSignedData hello.ephemeralPublicKey hello.randomNonce)
      hello.signature

/-- The two checks of `process_hello_ack`. -/
def ackVerifies (P : Primitives) (known : List PeerId)
    (state : HandshakeState) (ack : HelloAckPayload) : Bool :=
  decide (derivePeerId P ack.identityPublicKey ∈ known) &&
    verifySignature P ack.identityPublicKey
      (ackSignedData ack.sessionId ack.ephemeralPublicKey
        state.ephemeralPublicKeyBytes state.localNonce)
      ack.signature

theorem processHello_of_verifies (identity : LocalIdentity P) (draw : AckDraw)
    (hdec : HelloPayload.deserialize packet.payload = .ok hello)
    (hverifies : helloVerifies P known hello = true) :
    processHello packet known identity draw =
      (computeSharedSecret P draw.ephemeral.val hello.ephemeralPublicKey).map
        fun secret => some
          (makePacket .helloAck (ackPayload identity hello draw).serialize,
            responderKeys P hello draw secret) := by
  simp only [helloVerifies, and_eq_true, decide_eq_true_eq] at hverifies
  simp only [processHello, hdec, hverifies.1, hverifies.2, bind, Except.bind,
    not_true_eq_false, ↓reduceIte, Bool.not_true, Bool.false_eq_true]
  cases computeSharedSecret P draw.ephemeral.val hello.ephemeralPublicKey <;>
    rfl

theorem processHello_of_not_verifies (identity : LocalIdentity P)
    (draw : AckDraw)
    (hdec : HelloPayload.deserialize packet.payload = .ok hello)
    (hverifies : helloVerifies P known hello = false) :
    processHello packet known identity draw = .ok none := by
  simp only [helloVerifies, and_eq_false_iff, decide_eq_false_iff_not]
    at hverifies
  by_cases hknown : derivePeerId P hello.identityPublicKey ∈ known
  · have hsig := hverifies.resolve_left (fun hnot => hnot hknown)
    simp [processHello, hdec, hknown, hsig, bind, Except.bind, pure,
      Except.pure]
  · simp [processHello, hdec, hknown, bind, Except.bind, pure, Except.pure]

/-- `process_hello` returns `None` exactly when one of its checks fails. -/
theorem processHello_eq_none_iff
    (hdec : HelloPayload.deserialize packet.payload = .ok hello) :
    processHello packet known identity draw = .ok none ↔
      helloVerifies P known hello = false := by
  constructor
  · intro hnone
    by_contra hverifies
    rw [processHello_of_verifies identity draw hdec
      (eq_true_of_not_eq_false hverifies)] at hnone
    cases hsecret : computeSharedSecret P draw.ephemeral.val
        hello.ephemeralPublicKey <;> simp [hsecret, Except.map] at hnone
  · exact processHello_of_not_verifies identity draw hdec

theorem processHello_eq_some_iff :
    processHello packet known identity draw = .ok (some (ack, keys)) ↔
      ∃ hello secret, HelloPayload.deserialize packet.payload = .ok hello ∧
        helloVerifies P known hello = true ∧
        P.x25519Exchange draw.ephemeral.val hello.ephemeralPublicKey =
          some secret ∧
        ack = makePacket .helloAck (ackPayload identity hello draw).serialize ∧
        keys = responderKeys P hello draw secret := by
  cases hdec : HelloPayload.deserialize packet.payload with
  | error => simp [processHello, hdec, bind, Except.bind]
  | ok hello =>
    cases hverifies : helloVerifies P known hello with
    | false =>
      simp [processHello_of_not_verifies identity draw hdec hverifies,
        hverifies]
    | true =>
      rw [processHello_of_verifies identity draw hdec hverifies]
      simp only [← computeSharedSecret_eq_ok]
      cases hsecret : computeSharedSecret P draw.ephemeral.val
          hello.ephemeralPublicKey with
      | error err => simp [Except.map, hsecret]
      | ok secret =>
        constructor
        · intro hok
          simp only [Except.map, Except.ok.injEq, Option.some.injEq,
            Prod.mk.injEq] at hok
          exact ⟨hello, secret, rfl, hverifies, hsecret, hok.1.symm, hok.2.symm⟩
        · rintro ⟨hello', secret', heq, _, hsome, rfl, rfl⟩
          cases heq
          rw [hsecret] at hsome
          cases hsome
          rfl

theorem processHelloAck_of_verifies {ack : HelloAckPayload}
    (hdec : HelloAckPayload.deserialize packet.payload = .ok ack)
    (hverifies : ackVerifies P known state ack = true) :
    processHelloAck P packet state known =
      (computeSharedSecret P state.ephemeralPrivateKeyBytes
        ack.ephemeralPublicKey).map
        fun secret => some (initiatorKeys P ack state secret) := by
  simp only [ackVerifies, and_eq_true, decide_eq_true_eq] at hverifies
  simp only [processHelloAck, hdec, hverifies.1, hverifies.2, bind, Except.bind,
    not_true_eq_false, ↓reduceIte, Bool.not_true, Bool.false_eq_true]
  cases computeSharedSecret P state.ephemeralPrivateKeyBytes
    ack.ephemeralPublicKey <;> rfl

theorem processHelloAck_of_not_verifies {ack : HelloAckPayload}
    (hdec : HelloAckPayload.deserialize packet.payload = .ok ack)
    (hverifies : ackVerifies P known state ack = false) :
    processHelloAck P packet state known = .ok none := by
  simp only [ackVerifies, and_eq_false_iff, decide_eq_false_iff_not]
    at hverifies
  by_cases hknown : derivePeerId P ack.identityPublicKey ∈ known
  · have hsig := hverifies.resolve_left (fun hnot => hnot hknown)
    simp [processHelloAck, hdec, hknown, hsig, bind, Except.bind, pure,
      Except.pure]
  · simp [processHelloAck, hdec, hknown, bind, Except.bind, pure, Except.pure]

theorem processHelloAck_eq_some_iff :
    processHelloAck P packet state known = .ok (some keys) ↔
      ∃ ack secret, HelloAckPayload.deserialize packet.payload = .ok ack ∧
        ackVerifies P known state ack = true ∧
        P.x25519Exchange state.ephemeralPrivateKeyBytes
          ack.ephemeralPublicKey = some secret ∧
        keys = initiatorKeys P ack state secret := by
  cases hdec : HelloAckPayload.deserialize packet.payload with
  | error => simp [processHelloAck, hdec, bind, Except.bind]
  | ok ack =>
    cases hverifies : ackVerifies P known state ack with
    | false => simp [processHelloAck_of_not_verifies hdec hverifies, hverifies]
    | true =>
      rw [processHelloAck_of_verifies hdec hverifies]
      simp only [← computeSharedSecret_eq_ok]
      cases hsecret : computeSharedSecret P state.ephemeralPrivateKeyBytes
          ack.ephemeralPublicKey with
      | error err => simp [Except.map, hsecret]
      | ok secret =>
        constructor
        · intro hok
          simp only [Except.map, Except.ok.injEq, Option.some.injEq] at hok
          exact ⟨ack, secret, rfl, hverifies, hsecret, hok.symm⟩
        · rintro ⟨ack', secret', heq, _, hsome, rfl⟩
          cases heq
          rw [hsecret] at hsome
          cases hsome
          rfl

theorem helloPayload_sized (identity : LocalIdentity P) (draw : HelloDraw) :
    (helloPayload identity draw).Sized where
  identity := identity.length_publicKeyBytes
  ephemeral := P.x25519PublicKey_length _
  nonce := draw.nonce.property
  signature := identity.length_sign _

theorem deserialize_createHello (identity : LocalIdentity P)
    (draw : HelloDraw) :
    HelloPayload.deserialize (createHello identity draw).1.payload =
      .ok (helloPayload identity draw) :=
  HelloPayload.deserialize_serialize (helloPayload_sized ..)

theorem derivePeerId_helloPayload (identity : LocalIdentity P)
    (draw : HelloDraw) :
    derivePeerId P (helloPayload identity draw).identityPublicKey =
      identity.peerId := identity.peerId_eq.symm

theorem ackPayload_sized (identity : LocalIdentity P) (hello : HelloPayload)
    (draw : AckDraw) :
    (ackPayload identity hello draw).Sized where
  identity := identity.length_publicKeyBytes
  ephemeral := P.x25519PublicKey_length _
  sessionId := draw.sessionId.property
  nonce := draw.nonce.property
  signature := identity.length_sign _

/-- The signed bytes of a HELLO_ACK determine the four fields. -/
theorem ackSignedData_injective {id id' eph eph' remote remote' nonce nonce' :
      Bytes}
    (hid : id.length = id'.length) (heph : eph.length = eph'.length)
    (hremote : remote.length = remote'.length)
    (heq : ackSignedData id eph remote nonce =
      ackSignedData id' eph' remote' nonce') :
    id = id' ∧ eph = eph' ∧ remote = remote' ∧ nonce = nonce' := by
  simp only [ackSignedData, append_assoc] at heq
  obtain ⟨hids, hrest⟩ := append_inj heq hid
  obtain ⟨hephs, hrest⟩ := append_inj hrest heph
  obtain ⟨hremotes, hnonces⟩ := append_inj hrest hremote
  exact ⟨hids, hephs, hremotes, hnonces⟩

/-- The key material one handshake gives its two endpoints. -/
structure SharedKeys (initiator responder : SessionKeys) : Prop where
  sessionId : initiator.sessionId = responder.sessionId
  encryptionKey : initiator.encryptionKey = responder.encryptionKey
  length_sessionId : initiator.sessionId.length = 8
  length_encryptionKey : initiator.encryptionKey.length = 32

end AshiChat
