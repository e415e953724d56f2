/-
Runs of a deterministic machine over a list of events.  The scheduler, the
network and the clock are inputs, so one total step function describes every
interleaving: an event that is not enabled leaves the state alone.
-/
import Mathlib.Data.List.Infix

namespace EventRun

open List

universe u v w

variable {σ : Type u} {ε : Type v} (step : σ → ε → σ)

/-- State reached after the events, in order. -/
def run (state : σ) (events : List ε) : σ := events.foldl step state

/-- Every event of the run meets `good` in the state in which it happens. -/
def EveryStep (good : σ → ε → Prop) : σ → List ε → Prop
  | _, [] => True
  | state, event :: rest =>
    good state event ∧ EveryStep good (step state event) rest

instance (good : σ → ε → Prop) [∀ state event, Decidable (good state event)] :
    ∀ (state : σ) (events : List ε), Decidable (EveryStep step good state events)
  | _, [] => isTrue trivial
  | state, event :: rest =>
    have := instDecidableEveryStep good (step state event) rest
    inferInstanceAs (Decidable (good state event ∧ _))

/-- `property` holds in every state the run passes through. -/
def Along (property : σ → Prop) (state : σ) (events : List ε) : Prop :=
  ∀ pre : List ε, pre <+: events → property (run step state pre)

/-- What the steps of a run put out, in order. -/
def outputs {ω : Type w} (out : σ → ε → List ω) : σ → List ε → List ω
  | _, [] => []
  | state, event :: rest =>
    out state event ++ outputs out (step state event) rest

@[simp] theorem run_nil (state : σ) : run step state [] = state := rfl

@[simp] theorem run_cons (state : σ) (event : ε) (rest : List ε) :
    run step state (event :: rest) = run step (step state event) rest := rfl

theorem run_append (state : σ) (first second : List ε) :
    run step state (first ++ second) = run step (run step state first) second :=
  foldl_append ..

@[simp] theorem everyStep_nil (good : σ → ε → Prop) (state : σ) :
    EveryStep step good state [] := trivial

@[simp] theorem everyStep_cons (good : σ → ε → Prop) (state : σ) (event : ε)
    (rest : List ε) :
    EveryStep step good state (event :: rest) ↔
      good state event ∧ EveryStep step good (step state event) rest :=
  Iff.rfl

theorem everyStep_append (good : σ → ε → Prop) (state : σ)
    (first second : List ε) :
    EveryStep step good state (first ++ second) ↔
      EveryStep step good state first ∧
        EveryStep step good (run step state first) second := by
  induction first generalizing state with
  | nil => simp
  | cons _ _ ih =>
    simp only [cons_append, everyStep_cons, run_cons, ih]
    tauto

theorem everyStep_and (left right : σ → ε → Prop) (state : σ)
    (events : List ε) :
    EveryStep step (fun state event => left state event ∧ right state event)
        state events ↔
      EveryStep step left state events ∧ EveryStep step right state events := by
  induction events generalizing state with
  | nil => simp
  | cons _ _ ih =>
    simp only [everyStep_cons, ih]
    tauto

variable {ω : Type w}

variable (out : σ → ε → List ω)

@[simp] theorem outputs_nil (state : σ) : outputs step out state [] = [] := rfl

@[simp] theorem outputs_cons (state : σ) (event : ε) (rest : List ε) :
    outputs step out state (event :: rest) =
      out state event ++ outputs step out (step state event) rest := rfl

theorem outputs_append (state : σ) (first second : List ε) :
    outputs step out state (first ++ second) = outputs step out state first ++
        outputs step out (run step state first) second := by
  induction first generalizing state with
  | nil => rfl
  | cons _ _ ih =>
    rw [cons_append, outputs_cons, outputs_cons, ih, run_cons, append_assoc]

variable {step}

/-- What holds of everything a run puts out holds of what each step does. -/
theorem forall_mem_outputs_iff {out : σ → ε → List ω}
    {property : ω → Prop} (state : σ) (events : List ε) :
    (∀ item ∈ outputs step out state events, property item) ↔
      EveryStep step (fun state event => ∀ item ∈ out state event,
        property item) state events := by
  induction events generalizing state with
  | nil => simp
  | cons _ _ ih =>
    rw [outputs_cons, forall_mem_append, ih, everyStep_cons]

variable {good : σ → ε → Prop} {events : List ε}

/-- Events that are good in every state. -/
theorem everyStep_of_forall
    (hgood : ∀ event ∈ events, ∀ state, good state event) (state : σ) :
    EveryStep step good state events := by
  induction events generalizing state with
  | nil => trivial
  | cons _ _ ih =>
    rw [forall_mem_cons] at hgood
    exact ⟨hgood.1 state, ih hgood.2 _⟩

variable {state : σ} {inv : σ → Prop}

/-- An invariant kept by every good step holds at the end of a good run. -/
theorem inv_run_of_everyStep
    (hstep : ∀ state event, inv state → good state event →
      inv (step state event)) (hinit : inv state)
    (hgood : EveryStep step good state events) :
    inv (run step state events) := by
  induction events generalizing state with
  | nil => exact hinit
  | cons event _ ih => exact ih (hstep state event hinit hgood.1) hgood.2

theorem inv_run (hstep : ∀ state event, inv state → inv (step state event))
    (hinit : inv state) (events : List ε) :
    inv (run step state events) := by
  induction events generalizing state with
  | nil => exact hinit
  | cons event _ ih => exact ih (hstep state event hinit)

theorem everyStep_of_initial {pre events : List ε} (hpre : pre <+: events)
    (hgood : EveryStep step good state events) :
    EveryStep step good state pre := by
  obtain ⟨suffix, rfl⟩ := hpre
  exact ((everyStep_append step good state pre suffix).mp hgood).1

/-- The safety rule for guarded runs: an invariant kept by every good step,
together with what it implies, holds in every state a good run reaches. -/
theorem along_of_everyStep {inv property : σ → Prop}
    (hstep : ∀ state event, inv state → good state event →
      inv (step state event))
    (himp : ∀ state, inv state → property state) (hinit : inv state)
    (hgood : EveryStep step good state events) :
    Along step property state events := by
  intro pre hpre
  exact himp _ (inv_run_of_everyStep hstep hinit
    (everyStep_of_initial hpre hgood))

/-- What an invariant of all steps implies holds at every step. -/
theorem everyStep_of_inv {goal : σ → ε → Prop}
    (hstep : ∀ state event, inv state → inv (step state event))
    (himp : ∀ state event, inv state → goal state event) (hinit : inv state)
    (events : List ε) :
    EveryStep step goal state events := by
  induction events generalizing state with
  | nil => trivial
  | cons event _ ih =>
    exact ⟨himp state event hinit, ih (hstep state event hinit)⟩

/-- What a good step implies wherever an invariant of good steps holds, it
implies along whole good runs. -/
theorem everyStep_of_good {good goal : σ → ε → Prop}
    (hstep : ∀ state event, inv state → good state event →
      inv (step state event))
    (himp : ∀ state event, inv state → good state event → goal state event)
    (hinit : inv state)
    (hgood : EveryStep step good state events) :
    EveryStep step goal state events := by
  induction events generalizing state with
  | nil => trivial
  | cons event _ ih =>
    exact ⟨himp state event hinit hgood.1,
      ih (hstep state event hinit hgood.1) hgood.2⟩

theorem everyStep_imp {good goal : σ → ε → Prop}
    (hstep : ∀ state event, inv state → inv (step state event))
    (himp : ∀ state event, inv state → good state event → goal state event)
    (hinit : inv state) (hgood : EveryStep step good state events) :
    EveryStep step goal state events :=
  everyStep_of_good (fun state event hinv _ => hstep state event hinv) himp
    hinit hgood

/-- Two step predicates that agree wherever an invariant holds agree on whole
runs. -/
theorem everyStep_congr {left right : σ → ε → Prop}
    (hstep : ∀ state event, inv state → inv (step state event))
    (hiff : ∀ state event, inv state → (left state event ↔ right state event))
    (hinit : inv state) (events : List ε) :
    EveryStep step left state events ↔ EveryStep step right state events :=
  ⟨everyStep_imp hstep (fun state event hinv => (hiff state event hinv).mp)
      hinit,
    everyStep_imp hstep (fun state event hinv => (hiff state event hinv).mpr)
      hinit⟩

/-- Where a step keeps the property exactly if it is good, the property holds
all along exactly if every step is good. -/
theorem along_iff_everyStep {property : σ → Prop}
    (hstep : ∀ state event, property state →
      (property (step state event) ↔ good state event)) (hinit : property state)
    (events : List ε) :
    Along step property state events ↔ EveryStep step good state events := by
  constructor
  · intro halong
    induction events generalizing state with
    | nil => trivial
    | cons event rest ih =>
      have hnext : property (step state event) :=
        halong [event] (prefix_append [event] rest)
      refine ⟨(hstep state event hinit).mp hnext, ih hnext ?_⟩
      intro pre hpre
      exact halong (event :: pre) (cons_prefix_cons.mpr ⟨rfl, hpre⟩)
  · intro hgood
    exact along_of_everyStep (fun state event hprop => (hstep state event
      hprop).mpr) (fun _ hprop => hprop) hinit hgood

/-- A component of a machine that moves only on its own events runs through
exactly those. -/
theorem run_component {τ : Type*} {κ : Type*} {inner : τ → κ → τ}
    (component : σ → τ) (own : ε → Option κ)
    (hskip : ∀ state event, own event = none →
      component (step state event) = component state)
    (hmove : ∀ state event op, own event = some op →
      component (step state event) = inner (component state) op)
    (state : σ) (events : List ε) :
    component (run step state events) =
      run inner (component state) (events.filterMap own) := by
  induction events generalizing state with
  | nil => rfl
  | cons event _ ih =>
    rw [run_cons, ih]
    cases hown : own event with
    | none => rw [filterMap_cons_none hown, hskip state event hown]
    | some op =>
      rw [filterMap_cons_some hown, run_cons, hmove state event op hown]

/-- Simulation: if every good step of one run is matched by a step of another
that looks the same, the whole run is. -/
theorem exists_run_of_simulation {κ : Type*}
    {related : σ → σ → Prop} (view : ε → κ)
    (hstep : ∀ state shadow event, related state shadow → good state event →
      ∃ other, view other = view event ∧
        related (step state event) (step shadow other))
    {state shadow : σ} (hrelated : related state shadow)
    (hgood : EveryStep step good state events) :
    ∃ others, others.map view = events.map view ∧
      related (run step state events) (run step shadow others) := by
  induction events generalizing state shadow with
  | nil => exact ⟨[], rfl, hrelated⟩
  | cons event _ ih =>
    obtain ⟨other, hother, hnext⟩ := hstep state shadow event hrelated hgood.1
    obtain ⟨others, hothers, hlast⟩ := ih hnext hgood.2
    refine ⟨other :: others, ?_, hlast⟩
    rw [map_cons, map_cons, hother, hothers]

end EventRun
