/-
Amortised bounds along runs: what the steps of a run cost is paid from a
potential of the state and from what each step brings in.
-/
import AshiChat.Kit.EventRun
import Mathlib.Algebra.Order.Group.Defs
import Mathlib.Algebra.Ring.Defs
import Mathlib.Tactic.Abel
import Mathlib.Tactic.GCongr

namespace EventRun

universe u v w

variable {σ : Type u} {ε : Type v} {K : Type w} (step : σ → ε → σ)

/-- The amounts of the steps of a run, added up. -/
def total [AddMonoid K] (amount : σ → ε → K) : σ → List ε → K
  | _, [] => 0
  | state, event :: rest =>
    amount state event + total amount (step state event) rest

@[simp] theorem total_nil [AddMonoid K] (amount : σ → ε → K) (state : σ) :
    total step amount state [] = 0 := rfl

@[simp] theorem total_cons [AddMonoid K] (amount : σ → ε → K) (state : σ)
    (event : ε) (rest : List ε) :
    total step amount state (event :: rest) =
      amount state event + total step amount (step state event) rest := rfl

variable {step}

/-- Amounts by which a clock moves add up to the time that passes. -/
theorem total_eq_sub [AddCommGroup K] {amount : σ → ε → K} (clock : σ → K)
    (hclock : ∀ state event,
      clock (step state event) = clock state + amount state event)
    (state : σ) (events : List ε) :
    total step amount state events =
      clock (run step state events) - clock state := by
  induction events generalizing state with
  | nil => rw [total_nil, run_nil, sub_self]
  | cons _ _ ih =>
    rw [total_cons, ih, run_cons, hclock]
    abel

variable {inv : σ → Prop} {state : σ}

/-- If every good step pays its cost out of the potential and its income, so
does a whole good run. -/
theorem total_add_potential_le [AddCommGroup K] [PartialOrder K]
    [IsOrderedAddMonoid K] {good : σ → ε → Prop}
    {cost income : σ → ε → K} {potential : σ → K}
    (hstep : ∀ state event, inv state → good state event →
      inv (step state event))
    (hpay : ∀ state event, inv state → good state event →
      cost state event + potential (step state event) ≤
        potential state + income state event) (hinit : inv state)
    {events : List ε}
    (hgood : EveryStep step good state events) :
    total step cost state events + potential (run step state events) ≤
      potential state + total step income state events := by
  induction events generalizing state with
  | nil => simp
  | cons event rest ih =>
    have hfirst := hpay state event hinit hgood.1
    have hrest := ih (hstep state event hinit hgood.1) hgood.2
    rw [total_cons, total_cons, run_cons]
    calc cost state event + total step cost (step state event) rest +
          potential (run step (step state event) rest)
        = cost state event + (total step cost (step state event) rest +
          potential (run step (step state event) rest)) := add_assoc ..
      _ ≤ cost state event + (potential (step state event) +
          total step income (step state event) rest) := by gcongr
      _ = (cost state event + potential (step state event)) +
          total step income (step state event) rest := (add_assoc ..).symm
      _ ≤ (potential state + income state event) +
          total step income (step state event) rest := by gcongr
      _ = potential state + (income state event +
          total step income (step state event) rest) := add_assoc ..

/-- A bucket that holds at most `capacity` and is filled at `rate` pays for no
more than what it holds at first and what comes in while the run lasts. -/
theorem total_le_capacity_add [Ring K] [PartialOrder K] [IsOrderedAddMonoid K]
    {good : σ → ε → Prop} {cost elapsed : σ → ε → K}
    {level clock : σ → K} {rate capacity : K}
    (hstep : ∀ state event, inv state → good state event →
      inv (step state event))
    (hpay : ∀ state event, inv state → good state event →
      cost state event + level (step state event) ≤
        level state + rate * elapsed state event)
    (hclock : ∀ state event,
      clock (step state event) = clock state + elapsed state event)
    (hlevel : ∀ state, inv state → 0 ≤ level state ∧ level state ≤ capacity)
    (hinit : inv state) {events : List ε}
    (hgood : EveryStep step good state events) :
    total step cost state events ≤
      capacity + rate * (clock (run step state events) - clock state) := by
  have hpaid := total_add_potential_le hstep hpay hinit hgood
  have hincome : total step (fun state event => rate * elapsed state event)
      state events = rate * clock (run step state events) -
        rate * clock state := by
    refine total_eq_sub (fun state => rate * clock state) ?_ state events
    intro state event
    rw [hclock, mul_add]
  have hend := (hlevel _ (inv_run_of_everyStep hstep hinit hgood)).1
  calc total step cost state events
      ≤ total step cost state events + level (run step state events) :=
        le_add_of_nonneg_right hend
    _ ≤ level state + total step (fun state event => rate * elapsed state event)
          state events := hpaid
    _ = level state + rate * (clock (run step state events) - clock state) := by
        rw [hincome, mul_sub]
    _ ≤ capacity + rate * (clock (run step state events) - clock state) := by
        gcongr
        exact (hlevel state hinit).2

/-- Steps that bring nothing in cost no more than the potential at the start. -/
theorem total_le_potential {cost : σ → ε → Nat} {potential : σ → Nat}
    (hstep : ∀ state event, inv state → inv (step state event))
    (hpay : ∀ state event, inv state →
      cost state event + potential (step state event) ≤ potential state)
    (hinit : inv state) (events : List ε) :
    total step cost state events ≤ potential state := by
  induction events generalizing state with
  | nil => exact Nat.zero_le _
  | cons event _ ih =>
    have hfirst := hpay state event hinit
    have hrest := ih (hstep state event hinit)
    rw [total_cons]
    omega

end EventRun
