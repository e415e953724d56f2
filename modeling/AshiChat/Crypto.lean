/-
Cryptographic primitives (`crypto.py`).  The primitives themselves come from
the `cryptography` package and `hashlib`; they are parameters of the model,
with the output lengths their documentation fixes.  The nonce builder, the key
derivation and the ciphertext/tag split are the repository's own code.
-/
import AshiChat.Packet

namespace AshiChat

/-- The library calls the code makes.  `none` stands for the exception a call
raises. -/
structure Primitives where
  sha256 : Bytes → Bytes
  /-- `Ed25519PrivateKey.public_key()`, on raw bytes. -/
  ed25519PublicKey : Bytes → Bytes
  /-- `Ed25519PrivateKey.sign(data)` -/
  ed25519Sign : Bytes → Bytes → Bytes
  /-- `Ed25519PublicKey.verify(signature, data)` does not raise. -/
  ed25519Verify : Bytes → Bytes → Bytes → Bool
  /-- `X25519PrivateKey.public_key()`, on raw bytes. -/
  x25519PublicKey : Bytes → Bytes
  /-- `X25519PrivateKey.exchange(public)`; `none` on an all-zero secret. -/
  x25519Exchange : Bytes → Bytes → Option Bytes
  /-- `HKDF(SHA256, length, salt, info).derive(secret)` -/
  hkdfSha256 : Nat → Bytes → Bytes → Bytes → Bytes
  /-- `AESGCM(key).encrypt(nonce, data, aad)` -/
  aesGcmEncrypt : Bytes → Bytes → Bytes → Bytes → Bytes
  /-- `AESGCM(key).decrypt(nonce, data, aad)`; `none` on `InvalidTag`. -/
  aesGcmDecrypt : Bytes → Bytes → Bytes → Bytes → Option Bytes
  sha256_length : ∀ data, (sha256 data).length = 32
  ed25519PublicKey_length : ∀ key, (ed25519PublicKey key).length = 32
  ed25519Sign_length : ∀ key data, (ed25519Sign key data).length = 64
  x25519PublicKey_length : ∀ key, (x25519PublicKey key).length = 32
  hkdfSha256_length : ∀ length salt info secret,
    (hkdfSha256 length salt info secret).length = length
  aesGcmEncrypt_length : ∀ key nonce data aad,
    (aesGcmEncrypt key nonce data aad).length = data.length + 16

/-- Both directions of X25519 give the same shared secret. -/
def Primitives.ExchangeCommutes (P : Primitives) : Prop :=
  ∀ left right, P.x25519Exchange left (P.x25519PublicKey right) =
    P.x25519Exchange right (P.x25519PublicKey left)

/-- Ideal AEAD: decryption succeeds exactly on what encryption produced under
the same key, nonce and associated data, and returns that plaintext. -/
def Primitives.IdealAead (P : Primitives) : Prop :=
  ∀ key nonce data aad plaintext,
    P.aesGcmDecrypt key nonce data aad = some plaintext ↔
      P.aesGcmEncrypt key nonce plaintext aad = data

/-- Decryption undoes encryption under the same key, nonce and associated
data. -/
def Primitives.DecryptUndoes (P : Primitives) : Prop :=
  ∀ key nonce plaintext aad,
    P.aesGcmDecrypt key nonce (P.aesGcmEncrypt key nonce plaintext aad) aad =
      some plaintext

variable {P : Primitives} {sessionId nonce : Bytes} {seq : Nat}

theorem Primitives.IdealAead.undoes (hideal : P.IdealAead) : P.DecryptUndoes :=
  fun key nonce plaintext aad =>
    (hideal key nonce _ aad plaintext).mpr rfl

/-- What a private key signs verifies under its public key. -/
def Primitives.SignaturesVerify (P : Primitives) : Prop :=
  ∀ key data, P.ed25519Verify (P.ed25519PublicKey key)
    (P.ed25519Sign key data) data = true

/-- `os.urandom(n)`: some `n` bytes, chosen by the environment. -/
abbrev Random (n : Nat) := { bytes : Bytes // bytes.length = n }

/-- X25519 on two generated keys: both ends compute the same secret. -/
def Primitives.ExchangeAgrees (P : Primitives) : Prop :=
  ∀ left right : Random 32, ∃ secret,
    P.x25519Exchange left.val (P.x25519PublicKey right.val) = some secret ∧
      P.x25519Exchange right.val (P.x25519PublicKey left.val) = some secret

def deriveSessionKey (P : Primitives)
    (sharedSecret initiatorNonce receiverNonce : Bytes) : Bytes :=
  P.hkdfSha256 32 (initiatorNonce ++ receiverNonce)
    (ascii "ashichat-session-v1") sharedSecret

/-- The largest input `AESGCM.encrypt` takes. -/
def maxAeadData : Nat := 2 ^ 31 - 1

/-- `AESGCM(key)` accepts 128, 192 and 256 bit keys only. -/
def aesKeyOk (key : Bytes) : Bool :=
  key.length == 16 || key.length == 24 || key.length == 32

/-- `encrypt`: the ciphertext and the 16-byte tag split off its end. -/
def encrypt (P : Primitives) (key plaintext nonce aad : Bytes) :
    Except PyError (Bytes × Bytes) :=
  if !aesKeyOk key then
    .error (.valueError "AESGCM key must be 128, 192, or 256 bits.")
  else if maxAeadData < plaintext.length then
    .error .overflowError
  else
    let ctWithTag := P.aesGcmEncrypt key nonce plaintext aad
    let split := ctWithTag.length - 16
    .ok (ctWithTag.take split, ctWithTag.drop split)

/-- `decrypt`: `none` is any exception of the library. -/
def decrypt (P : Primitives) (key ciphertext nonce aad authTag : Bytes) :
    Option Bytes :=
  if !aesKeyOk key then none
  else P.aesGcmDecrypt key nonce (ciphertext ++ authTag) aad

/-- `build_nonce`: `session_id (8) || sequence_number (4 BE)` -/
def buildNonce (sessionId : Bytes) (sequenceNumber : Nat) :
    Except PyError Bytes :=
  if sessionId.length ≠ 8 then
    .error (.assertionError
      s!"session_id must be 8 bytes, got {sessionId.length}")
  else do
    let seq ← packU32 sequenceNumber
    return sessionId ++ seq

theorem buildNonce_ok (hid : sessionId.length = 8) (hseq : seq < 2 ^ 32) :
    buildNonce sessionId seq = .ok (sessionId ++ BigEndian.encode 4 seq) := by
  simp only [buildNonce, hid, ne_eq, not_true_eq_false, ↓reduceIte, packU32,
    hseq]
  rfl

end AshiChat
