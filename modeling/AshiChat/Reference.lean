/-
A toy instance of the cryptographic parameters.  It shows that the laws the
development assumes of the primitives are satisfiable together, and it makes
the model executable on concrete packets.
-/
import AshiChat.Crypto

namespace AshiChat

open List

namespace Reference

/-- The first `n` bytes, padded with zeros. -/
def fit (n : Nat) (bytes : Bytes) : Bytes := (bytes ++ replicate n 0).take n

@[simp] theorem length_fit (n : Nat) (bytes : Bytes) :
    (fit n bytes).length = n := by
  simp [fit]

theorem fit_of_length {n : Nat} {bytes : Bytes} (hlen : bytes.length = n) :
    fit n bytes = bytes := by
  rw [fit, take_append_of_le_length hlen.ge, take_of_length_le hlen.le]

/-- A draw of `n` equal bytes. -/
def constant (n : Nat) (byte : UInt8) : Random n :=
  ⟨replicate n byte, length_replicate⟩

/-- Byte-wise sum of the two strings, fitted to `n` bytes. -/
def mix (n : Nat) (left right : Bytes) : Bytes :=
  zipWith (· + ·) (fit n left) (fit n right)

@[simp] theorem length_mix (n : Nat) (left right : Bytes) :
    (mix n left right).length = n := by
  simp [mix]

theorem mix_comm (n : Nat) (left right : Bytes) :
    mix n left right = mix n right left :=
  zipWith_comm_of_comm fun a b => UInt8.add_comm a b

def signature (publicKey data : Bytes) : Bytes :=
  fit 32 publicKey ++ mix 32 (data.take 48) (data.drop 48)

/-- Plaintext followed by a tag over key, nonce and associated data. -/
def gcm (key nonce data aad : Bytes) : Bytes :=
  data ++ mix 16 key (nonce ++ aad)

def primitives : Primitives where
  sha256 := fit 32
  ed25519PublicKey := fit 32
  ed25519Sign key data := signature (fit 32 key) data
  ed25519Verify publicKey sig data := sig == signature publicKey data
  x25519PublicKey := fit 32
  x25519Exchange key publicKey := some (mix 32 key publicKey)
  hkdfSha256 length salt _ secret := mix length salt secret
  aesGcmEncrypt := gcm
  aesGcmDecrypt key nonce data aad :=
    let plaintext := data.take (data.length - 16)
    if gcm key nonce plaintext aad = data then some plaintext else none
  sha256_length := length_fit 32
  ed25519PublicKey_length := length_fit 32
  ed25519Sign_length key data := by simp [signature]
  x25519PublicKey_length := length_fit 32
  hkdfSha256_length length salt _ secret := length_mix length salt secret
  aesGcmEncrypt_length key nonce data aad := by simp [gcm]

theorem idealAead : primitives.IdealAead := by
  intro key nonce data aad plaintext
  simp only [primitives]
  constructor
  · intro hdec
    split at hdec
    · next hgcm => rw [← Option.some.inj hdec, hgcm]
    · cases hdec
  · rintro rfl
    have htake : (gcm key nonce plaintext aad).take
        ((gcm key nonce plaintext aad).length - 16) = plaintext := by
      simp [gcm]
    rw [htake, if_pos rfl]

theorem exchangeCommutes : primitives.ExchangeCommutes := by
  intro left right
  simp only [primitives, mix]
  rw [fit_of_length (length_fit 32 left), fit_of_length (length_fit 32 right)]
  exact congrArg some (mix_comm 32 left right)

theorem exchangeAgrees : primitives.ExchangeAgrees := by
  intro left right
  exact ⟨_, rfl, exchangeCommutes right.val left.val⟩

theorem signaturesVerify : primitives.SignaturesVerify := by
  intro key data
  exact beq_self_eq_true (signature (fit 32 key) data)

end Reference

end AshiChat
