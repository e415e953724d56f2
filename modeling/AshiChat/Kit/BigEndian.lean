/-
Fixed-width big-endian integers.  A value is written with its most significant
byte first in exactly `width` bytes; reading back is a left fold in base 256.
-/
import Mathlib.Data.List.Basic
import Mathlib.Data.List.Induction
import Mathlib.Tactic.Ring

namespace BigEndian

open List

/-- The `width` low-order bytes of `value`, most significant byte first. -/
def encode : Nat → Nat → List UInt8
  | 0, _ => []
  | width + 1, value => encode width (value / 256) ++ [UInt8.ofNat value]

/-- Base-256 value of a byte string. -/
def decode (bytes : List UInt8) : Nat :=
  bytes.foldl (fun acc byte => acc * 256 + byte.toNat) 0

@[simp] theorem length_encode (width value : Nat) :
    (encode width value).length = width := by
  induction width generalizing value with
  | zero => rfl
  | succ _ ih => simp [encode, ih]

variable (bytes : List UInt8)

theorem decode_append_singleton (byte : UInt8) :
    decode (bytes ++ [byte]) = decode bytes * 256 + byte.toNat := by
  simp [decode]

theorem decode_lt : decode bytes < 256 ^ bytes.length := by
  induction bytes using List.reverseRecOn with
  | nil => simp [decode]
  | append_singleton _ byte =>
    have hbyte : byte.toNat < 256 := byte.toNat_lt
    rw [decode_append_singleton, length_append, length_singleton, pow_succ]
    omega

/-- Reading back a value that fits its width returns the value. -/
theorem decode_encode {width value : Nat} (hfits : value < 256 ^ width) :
    decode (encode width value) = value := by
  induction width generalizing value with
  | zero =>
    have hzero : value = 0 := by simpa using hfits
    simp [encode, decode, hzero]
  | succ width ih =>
    have hquot : value / 256 < 256 ^ width := by
      rw [pow_succ] at hfits
      exact Nat.div_lt_of_lt_mul (by rwa [Nat.mul_comm] at hfits)
    have hbyte : (UInt8.ofNat value).toNat = value % 256 := by simp
    rw [encode, decode_append_singleton, ih hquot, hbyte]
    omega

/-- Writing back what was read from a byte string returns the bytes. -/
theorem encode_decode : encode bytes.length (decode bytes) = bytes := by
  induction bytes using List.reverseRecOn with
  | nil => rfl
  | append_singleton front byte ih =>
    have hbyte : byte.toNat < 256 := byte.toNat_lt
    have hquot : (decode front * 256 + byte.toNat) / 256 = decode front := by
      omega
    have hlow : UInt8.ofNat (decode front * 256 + byte.toNat) = byte := by
      apply UInt8.toNat_inj.mp
      simp only [UInt8.toNat_ofNat']
      omega
    rw [decode_append_singleton, length_append, length_singleton,
      encode, hquot, hlow, ih]

theorem encode_decode_of_length {bytes : List UInt8} {width : Nat}
    (hlen : bytes.length = width) : encode width (decode bytes) = bytes := by
  rw [← hlen, encode_decode]

/-- Two values that fit one width and have the same encoding are equal. -/
theorem encode_injective {width left right : Nat}
    (hleft : left < 256 ^ width) (hright : right < 256 ^ width)
    (heq : encode width left = encode width right) : left = right := by
  have hdecoded := congrArg decode heq
  rwa [decode_encode hleft, decode_encode hright] at hdecoded

end BigEndian
