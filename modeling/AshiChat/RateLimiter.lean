/-
Token buckets (`rate_limiter.py`).  Time is read from a monotonic clock, here
an argument; token counts are rational where the code has floats.
-/
import AshiChat.Packet
import AshiChat.Kit.OrderedDict
import Mathlib.Data.Rat.Init
import Mathlib.Algebra.Order.Ring.Unbundled.Rat
import Mathlib.Tactic.Linarith

namespace AshiChat

open OrderedDict

structure TokenBucket where
  rate : ℚ
  capacity : Nat
  tokens : ℚ
  lastRefill : ℚ
deriving DecidableEq

namespace TokenBucket

/-- `TokenBucket(rate, capacity)`: the bucket starts full. -/
def new (rate : ℚ) (capacity : Nat) (now : ℚ) : TokenBucket :=
  ⟨rate, capacity, capacity, now⟩

def refill (bucket : TokenBucket) (now : ℚ) : TokenBucket := { bucket with
    tokens := min bucket.capacity
      (bucket.tokens + (now - bucket.lastRefill) * bucket.rate)
    lastRefill := now }

/-- `consume` of one token: whether it was there, and the bucket after. -/
def consume (bucket : TokenBucket) (now : ℚ) : Bool × TokenBucket :=
  let filled := bucket.refill now
  if 1 ≤ filled.tokens then
    (true, { filled with tokens := filled.tokens - 1 })
  else (false, filled)

/-- What a look at the bucket would find in it. -/
def level (bucket : TokenBucket) (now : ℚ) : ℚ := (bucket.refill now).tokens

theorem level_le (bucket : TokenBucket) (now : ℚ) :
    bucket.level now ≤ bucket.capacity :=
  min_le_left _ _

/-- Waiting brings in no more than the rate. -/
theorem level_add_le (bucket : TokenBucket) {elapsed : ℚ}
    (helapsed : 0 ≤ elapsed) (hrate : 0 ≤ bucket.rate) (now : ℚ) :
    bucket.level (now + elapsed) ≤ bucket.level now + elapsed * bucket.rate := by
  have hincome : 0 ≤ elapsed * bucket.rate := mul_nonneg helapsed hrate
  simp only [level, refill, ← min_add_add_right]
  apply min_le_min
  · linarith
  · apply le_of_eq
    ring

variable {bucket : TokenBucket} {now rate : ℚ} {capacity : Nat}

theorem level_nonneg (htokens : 0 ≤ bucket.tokens) (hrate : 0 ≤ bucket.rate)
    (hpast : bucket.lastRefill ≤ now) : 0 ≤ bucket.level now := by
  have hincome : 0 ≤ (now - bucket.lastRefill) * bucket.rate :=
    mul_nonneg (sub_nonneg.mpr hpast) hrate
  simp only [level, refill]
  exact le_min (Nat.cast_nonneg _) (add_nonneg htokens hincome)

/-- A token that is handed out is missing afterwards. -/
theorem level_consume (bucket : TokenBucket) (now : ℚ) :
    (bucket.consume now).2.level now =
      bucket.level now - if (bucket.consume now).1 then 1 else 0 := by
  have hle := bucket.level_le now
  unfold level at hle ⊢
  unfold consume
  simp only
  split
  · simp only [refill, sub_self, zero_mul, add_zero, if_true] at hle ⊢
    exact min_eq_right (by linarith)
  · simp only [refill, sub_self, zero_mul, add_zero, Bool.false_eq_true,
      if_false, sub_zero] at hle ⊢
    exact min_eq_right hle

/-- A bucket that the limits describe, looked at in the past. -/
structure Sound (bucket : TokenBucket) (rate : ℚ) (capacity : Nat) (now : ℚ) :
    Prop where
  rate_eq : bucket.rate = rate
  capacity_eq : bucket.capacity = capacity
  tokens_nonneg : 0 ≤ bucket.tokens
  tokens_le : bucket.tokens ≤ capacity
  past : bucket.lastRefill ≤ now

theorem sound_new (now : ℚ) : (new rate capacity now).Sound rate capacity now :=
  ⟨rfl, rfl, Nat.cast_nonneg _, le_rfl, le_rfl⟩

theorem Sound.consume (hrate : 0 ≤ rate)
    (hsound : bucket.Sound rate capacity now) :
    (bucket.consume now).2.Sound rate capacity now := by
  have hlevel : 0 ≤ (bucket.refill now).tokens :=
    level_nonneg hsound.tokens_nonneg (hsound.rate_eq ▸ hrate) hsound.past
  have hfull : (bucket.refill now).tokens ≤ capacity :=
    hsound.capacity_eq ▸ bucket.level_le now
  unfold TokenBucket.consume
  simp only
  split
  · next hone =>
    exact ⟨hsound.rate_eq, hsound.capacity_eq, sub_nonneg.mpr hone,
      (sub_le_self _ zero_le_one).trans hfull, le_rfl⟩
  · exact ⟨hsound.rate_eq, hsound.capacity_eq, hlevel, hfull, le_rfl⟩

theorem Sound.later {later : ℚ} (hsound : bucket.Sound rate capacity now)
    (hle : now ≤ later) : bucket.Sound rate capacity later :=
  { hsound with past := hsound.past.trans hle }

end TokenBucket

/-- `_PEER_LIMITS`: tokens per second and burst of the limited types. -/
def peerLimits : PacketType → Option (ℚ × Nat)
  | .resolveRequest => some (10 / 60, 10)
  | .endpointUpdate => some (20 / 60, 20)
  | .data => some (100, 100)
  | _ => none

/-- `PeerRateLimiter`: a bucket for each peer and limited type, made when it is
first asked for. -/
abbrev PeerRateLimiter := OrderedDict (PeerId × PacketType) TokenBucket

def PeerRateLimiter.check (limiter : PeerRateLimiter) (peerId : PeerId)
    (packetType : PacketType) (now : ℚ) : Bool × PeerRateLimiter :=
  match peerLimits packetType with
  | none => (true, limiter)
  | some (rate, capacity) =>
    let bucket := (limiter.get? (peerId, packetType)).getD
      (.new rate capacity now)
    let (allowed, bucket) := bucket.consume now
    (allowed, limiter.set (peerId, packetType) bucket)

namespace PeerRateLimiter

theorem rate_nonneg {packetType : PacketType} {rate : ℚ} {capacity : Nat}
    (hlimits : peerLimits packetType = some (rate, capacity)) : 0 ≤ rate := by
  cases packetType with
  | resolveRequest | endpointUpdate | data =>
    cases hlimits
    norm_num
  | _ => cases hlimits

/-- What a check of a limited type would find; a bucket not made yet will be
full. -/
def level (limiter : PeerRateLimiter) (peerId : PeerId)
    (packetType : PacketType) (capacity : Nat) (now : ℚ) : ℚ :=
  match limiter.get? (peerId, packetType) with
  | none => capacity
  | some bucket => bucket.level now

/-- All buckets are as their limits say and were looked at in the past. -/
def Sound (limiter : PeerRateLimiter) (now : ℚ) : Prop :=
  ∀ peerId packetType rate capacity bucket,
    peerLimits packetType = some (rate, capacity) →
      limiter.get? (peerId, packetType) = some bucket →
        bucket.Sound rate capacity now

variable {limiter : PeerRateLimiter} {now : ℚ} {packetType : PacketType}
  {rate : ℚ} {capacity : Nat}

theorem sound_empty (now : ℚ) : Sound .empty now := by
  intro peerId packetType rate capacity bucket _ hbucket
  cases hbucket

section

variable (hsound : limiter.Sound now)

include hsound

theorem Sound.later {later : ℚ} (hle : now ≤ later) : limiter.Sound later :=
  fun peerId packetType rate capacity bucket hlimits hbucket =>
    (hsound peerId packetType rate capacity bucket hlimits hbucket).later hle

variable (peerId : PeerId)

/-- The bucket a check takes its token from. -/
theorem Sound.bucket (hlimits : peerLimits packetType = some (rate, capacity)) :
    ((limiter.get? (peerId, packetType)).getD
      (.new rate capacity now)).Sound rate capacity now := by
  cases hbucket : limiter.get? (peerId, packetType) with
  | none => exact TokenBucket.sound_new now
  | some bucket =>
    exact hsound peerId packetType rate capacity bucket hlimits hbucket

theorem Sound.check (packetType : PacketType) :
    (limiter.check peerId packetType now).2.Sound now := by
  unfold PeerRateLimiter.check
  cases hlimits : peerLimits packetType with
  | none => exact hsound
  | some limits =>
    obtain ⟨_, _⟩ := limits
    intro other otherType rate' capacity' bucket hlimits' hbucket
    rcases get?_set_cases hbucket with ⟨hkey, rfl⟩ | ⟨-, hold⟩
    · cases hkey
      rw [hlimits] at hlimits'
      cases hlimits'
      exact (hsound.bucket peerId hlimits).consume (rate_nonneg hlimits)
    · exact hsound other otherType rate' capacity' bucket hlimits' hold

theorem Sound.level_le
    (hlimits : peerLimits packetType = some (rate, capacity)) :
    limiter.level peerId packetType capacity now ≤ capacity := by
  unfold level
  split
  · exact le_rfl
  · next bucket hbucket =>
    have hbucket := hsound peerId packetType rate capacity bucket hlimits
      hbucket
    rw [← hbucket.capacity_eq]
    exact bucket.level_le now

theorem Sound.level_nonneg
    (hlimits : peerLimits packetType = some (rate, capacity)) :
    0 ≤ limiter.level peerId packetType capacity now := by
  unfold level
  split
  · exact Nat.cast_nonneg _
  · next bucket hbucket =>
    have hbucket := hsound peerId packetType rate capacity bucket hlimits
      hbucket
    exact TokenBucket.level_nonneg hbucket.tokens_nonneg
      (hbucket.rate_eq ▸ rate_nonneg hlimits) hbucket.past

theorem Sound.level_add_le
    (hlimits : peerLimits packetType = some (rate, capacity)) {elapsed : ℚ}
    (helapsed : 0 ≤ elapsed) :
    limiter.level peerId packetType capacity (now + elapsed) ≤
      limiter.level peerId packetType capacity now + elapsed * rate := by
  have hrate := rate_nonneg hlimits
  unfold level
  split
  · exact le_add_of_nonneg_right (mul_nonneg helapsed hrate)
  · next bucket hbucket =>
    have hbucket := hsound peerId packetType rate capacity bucket hlimits
      hbucket
    rw [← hbucket.rate_eq] at hrate ⊢
    exact bucket.level_add_le helapsed hrate now

end

/-- A check that lets a packet through takes a token of its peer and type. -/
theorem level_check_self (limiter : PeerRateLimiter) (peerId : PeerId)
    (hlimits : peerLimits packetType = some (rate, capacity)) (now : ℚ) :
    (limiter.check peerId packetType now).2.level peerId packetType capacity
        now =
      limiter.level peerId packetType capacity now -
        if (limiter.check peerId packetType now).1 then 1 else 0 := by
  have hfull : (TokenBucket.new rate capacity now).level now = capacity := by
    simp [TokenBucket.level, TokenBucket.refill, TokenBucket.new]
  unfold PeerRateLimiter.check level
  simp only [hlimits, get?_set_self, TokenBucket.level_consume]
  cases limiter.get? (peerId, packetType) with
  | none => simp [hfull]
  | some => simp

/-- It leaves all other buckets alone. -/
theorem level_check_of_ne (limiter : PeerRateLimiter) {peerId other : PeerId}
    {otherType : PacketType} (hne : (other, otherType) ≠ (peerId, packetType))
    (capacity : Nat) (now : ℚ) :
    (limiter.check other otherType now).2.level peerId packetType capacity
        now = limiter.level peerId packetType capacity now := by
  unfold PeerRateLimiter.check level
  cases peerLimits otherType with
  | none => rfl
  | some => simp only [get?_set, if_neg hne]

end PeerRateLimiter

/-- The bucket of `GlobalRateLimiter`. -/
def globalResolveLimit (now : ℚ) : TokenBucket := .new (50 / 60) 50 now

end AshiChat
