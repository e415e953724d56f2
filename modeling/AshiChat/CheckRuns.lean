/-
Whole sequences of checks of a `PeerRateLimiter`.  In any window of time a peer
gets no more packets of a type through than a full bucket and the refill of the
window pay for, and the checks made for others have no part in its answers.
-/
import AshiChat.RateLimiter
import AshiChat.Kit.Amortised

namespace AshiChat

open EventRun OrderedDict PeerRateLimiter

/-- The monotonic clock goes on, or `check` is called. -/
inductive LimiterEvent where
  | elapse (seconds : {seconds : ℚ // 0 ≤ seconds})
  | check (peerId : PeerId) (packetType : PacketType)
deriving DecidableEq

structure ClockedLimiter where
  limiter : PeerRateLimiter
  clock : ℚ

namespace ClockedLimiter

def step (state : ClockedLimiter) : LimiterEvent → ClockedLimiter
  | .elapse seconds => { state with clock := state.clock + seconds }
  | .check peerId packetType =>
    { state with
      limiter := (state.limiter.check peerId packetType state.clock).2 }

/-- The answer of a check, with the peer and type it is for. -/
def answers (state : ClockedLimiter) :
    LimiterEvent → List ((PeerId × PacketType) × Bool)
  | .elapse _ => []
  | .check peerId packetType =>
    [((peerId, packetType),
      (state.limiter.check peerId packetType state.clock).1)]

/-- Time passes for everyone; a check is for one peer and type. -/
def concerns (key : PeerId × PacketType) : LimiterEvent → Bool
  | .elapse _ => true
  | .check peerId packetType => (peerId, packetType) = key

/-- How many checks for the peer and type return `True` in a run. -/
def granted (key : PeerId × PacketType) (state : ClockedLimiter)
    (events : List LimiterEvent) : ℚ :=
  total step (fun state event =>
    if (key, true) ∈ state.answers event then 1 else 0) state events

def elapsed (_ : ClockedLimiter) : LimiterEvent → ℚ
  | .elapse seconds => seconds
  | .check .. => 0

variable {state other : ClockedLimiter} {peerId : PeerId}
  {packetType : PacketType} {rate : ℚ} {capacity : Nat}

theorem clock_step (state : ClockedLimiter) (event : LimiterEvent) :
    (state.step event).clock = state.clock + state.elapsed event := by
  cases event with
  | elapse => rfl
  | check => exact (add_zero _).symm

/-- The buckets are sound at the time of the clock. -/
def Sound (state : ClockedLimiter) : Prop := state.limiter.Sound state.clock

theorem Sound.step (hsound : state.Sound) (event : LimiterEvent) :
    (state.step event).Sound := by
  cases event with
  | elapse seconds =>
    exact PeerRateLimiter.Sound.later hsound (le_add_of_nonneg_right seconds.2)
  | check peerId packetType =>
    exact PeerRateLimiter.Sound.check hsound peerId packetType

/-- A check pays for its answer with a token, and time brings them in. -/
theorem cost_step (hsound : state.Sound) (peerId : PeerId)
    (hlimits : peerLimits packetType = some (rate, capacity))
    (event : LimiterEvent) :
    (if ((peerId, packetType), true) ∈ state.answers event then (1 : ℚ) else 0) +
        (state.step event).limiter.level peerId packetType capacity
          (state.step event).clock ≤
      state.limiter.level peerId packetType capacity state.clock +
        rate * state.elapsed event := by
  cases event with
  | elapse seconds =>
    have hincome := PeerRateLimiter.Sound.level_add_le hsound peerId hlimits
      seconds.2
    rw [mul_comm] at hincome
    simpa [answers, ClockedLimiter.step, elapsed] using hincome
  | check caller checked =>
    simp only [answers, ClockedLimiter.step, elapsed, mul_zero, add_zero,
      List.mem_singleton, Prod.mk.injEq]
    by_cases hfor : (caller, checked) = (peerId, packetType)
    · cases hfor
      rw [level_check_self _ _ hlimits]
      cases (state.limiter.check peerId packetType state.clock).1 <;> simp
    · rw [level_check_of_ne _ hfor, if_neg]
      · rw [zero_add]
      · rintro ⟨⟨rfl, rfl⟩, -⟩
        exact hfor rfl

variable {key : PeerId × PacketType}

/-- A check sees only the bucket of its own peer and type. -/
theorem check_congr {limiter limiter' : PeerRateLimiter}
    (hbucket : limiter.get? key = limiter'.get? key) (now : ℚ) :
    (limiter.check key.1 key.2 now).1 = (limiter'.check key.1 key.2 now).1 ∧
      get? (limiter.check key.1 key.2 now).2 key =
        get? (limiter'.check key.1 key.2 now).2 key := by
  unfold check
  cases peerLimits key.2 with
  | none => exact ⟨rfl, hbucket⟩
  | some => simp [hbucket, get?_set_self]

theorem get?_check_of_ne (limiter : PeerRateLimiter)
    (hne : (peerId, packetType) ≠ key) (now : ℚ) :
    get? (limiter.check peerId packetType now).2 key = limiter.get? key := by
  unfold check
  cases peerLimits packetType with
  | none => rfl
  | some => simp only [get?_set, if_neg hne]

/-- Leaving out the checks for others changes no answer. -/
theorem filter_answers (hclock : state.clock = other.clock)
    (hbucket : state.limiter.get? key = other.limiter.get? key)
    (events : List LimiterEvent) :
    (outputs step answers state events).filter (fun answer => answer.1 = key) =
      outputs step answers other (events.filter (concerns key)) := by
  -- the two limiters agree on the clock and on the one bucket throughout
  induction events generalizing state other with
  | nil => rfl
  | cons event _ ih =>
    cases event with
    | elapse seconds =>
      exact ih (congrArg (· + seconds.val) hclock) hbucket
    | check caller checked =>
      by_cases hfor : (caller, checked) = key
      · subst hfor
        obtain ⟨hanswer, hafter⟩ := check_congr hbucket state.clock
        rw [hclock] at hanswer hafter
        have hrest := @ih (state.step (.check caller checked))
          (other.step (.check caller checked)) hclock
          (by simpa [step, hclock] using hafter)
        simp [outputs, answers, concerns, hclock, hanswer, hrest]
      · have hrest := @ih (state.step (.check caller checked)) other hclock
          ((get?_check_of_ne state.limiter hfor state.clock).trans hbucket)
        simp [outputs, answers, concerns, hfor, hrest]

/-- What a peer gets through in any window of any run, what its bucket holds,
and that no checks for others matter. -/
theorem token_bucket_law (peerId : PeerId)
    (hlimits : peerLimits packetType = some (rate, capacity)) (clock : ℚ)
    (before window : List LimiterEvent) :
    let key := (peerId, packetType)
    let fresh : ClockedLimiter := ⟨.empty, clock⟩
    let opened := run step fresh before
    granted key opened window ≤ capacity +
        rate * ((run step opened window).clock - opened.clock) ∧
      (∀ bucket, opened.limiter.get? key = some bucket →
        (0 ≤ bucket.tokens ∧ bucket.tokens ≤ capacity) ∧
          0 ≤ bucket.level opened.clock ∧
          bucket.level opened.clock ≤ capacity) ∧
      (outputs step answers fresh before).filter
          (fun answer => answer.1 = key) =
        outputs step answers fresh (before.filter (concerns key)) := by
  intro key fresh opened
  have hkeep : ∀ (state : ClockedLimiter) (event : LimiterEvent),
      state.Sound → (state.step event).Sound := fun _ event hsound =>
    hsound.step event
  have hfresh : fresh.Sound := sound_empty clock
  have hsound : opened.Sound := inv_run hkeep hfresh before
  refine ⟨?_, ?_, filter_answers rfl rfl before⟩
  · exact total_le_capacity_add (fun state event hsound _ => hkeep state event
        hsound) (fun _ event hsound _ => cost_step hsound peerId hlimits event)
      clock_step (fun state hsound => ⟨PeerRateLimiter.Sound.level_nonneg hsound
        peerId hlimits, PeerRateLimiter.Sound.level_le hsound peerId hlimits⟩)
      hsound (everyStep_of_forall (fun _ _ _ => trivial) _)
  · intro bucket hbucket
    have hbucket := hsound peerId packetType rate capacity bucket hlimits
      hbucket
    refine ⟨⟨hbucket.tokens_nonneg, hbucket.tokens_le⟩, ?_, ?_⟩
    · exact TokenBucket.level_nonneg hbucket.tokens_nonneg
        (hbucket.rate_eq ▸ rate_nonneg hlimits) hbucket.past
    · rw [← hbucket.capacity_eq]
      exact bucket.level_le _

end ClockedLimiter

namespace CheckRunsWitness

open ClockedLimiter

def peer : PeerId := [1]

/-- Eleven requests of a peer at one moment, one of another peer, and one more
of the first half a minute later. -/
def requests : List LimiterEvent :=
  List.replicate 11 (.check peer .resolveRequest) ++
    [.check [2] .resolveRequest, .elapse ⟨30, by norm_num⟩,
      .check peer .resolveRequest]

theorem token_bucket_law_requests :
    granted (peer, .resolveRequest) ⟨.empty, 0⟩ requests = 11 ∧
      granted (peer, .resolveRequest) ⟨.empty, 0⟩ requests ≤
        (10 : Nat) + 10 / 60 * ((run step ⟨.empty, 0⟩ requests).clock - 0) :=
  ⟨by decide +kernel, (token_bucket_law peer rfl 0 [] requests).1⟩

end CheckRunsWitness

end AshiChat
