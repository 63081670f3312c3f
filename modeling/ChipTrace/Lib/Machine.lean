/-
Runs of a deterministic machine.  A trace is a list of actions; properties of
states and of steps are lifted to the whole run.
-/
import Mathlib.Data.List.Basic

universe u v

namespace Machine

variable {S : Type u} {A : Type v} (step : S → A → S)

/-- The state after a trace. -/
def run (start : S) (trace : List A) : S := trace.foldl step start

/-- Every state of the run, the first and the last included, satisfies the
property. -/
def Always (property : S → Prop) : S → List A → Prop
  | state, [] => property state
  | state, action :: rest => property state ∧ Always property (step state action) rest

/-- Every step of the run is taken in a state and with an action that meet the
condition. -/
def Along (condition : S → A → Prop) : S → List A → Prop
  | _, [] => True
  | state, action :: rest =>
      condition state action ∧ Along condition (step state action) rest

variable {step}

@[simp] theorem run_nil (start : S) : run step start [] = start := rfl

@[simp] theorem run_cons (start : S) (action : A) (rest : List A) :
    run step start (action :: rest) = run step (step start action) rest := rfl

theorem run_append (start : S) (first last : List A) :
    run step start (first ++ last) = run step (run step start first) last := by
  simp [run, List.foldl_append]

theorem Along.append {condition : S → A → Prop} {start : S} {first last : List A} :
    Along step condition start (first ++ last) ↔
      Along step condition start first ∧
        Along step condition (run step start first) last := by
  induction first generalizing start with
  | nil => simp [Along]
  | cons action rest ih => simp [Along, ih, and_assoc]

theorem Along.and {first second : S → A → Prop} {start : S} {trace : List A}
    (hfirst : Along step first start trace) (hsecond : Along step second start trace) :
    Along step (fun state action => first state action ∧ second state action) start trace := by
  induction trace generalizing start with
  | nil => trivial
  | cons action rest ih => exact ⟨⟨hfirst.1, hsecond.1⟩, ih hfirst.2 hsecond.2⟩

/-- What one step preserves holds after every trace. -/
theorem run_preserves {invariant : S → Prop}
    (hstep : ∀ state action, invariant state → invariant (step state action))
    {start : S} (hstart : invariant start) (trace : List A) :
    invariant (run step start trace) := by
  induction trace generalizing start with
  | nil => exact hstart
  | cons action rest ih => exact ih (hstep start action hstart)

/-- What one step preserves under a condition holds after every trace whose
steps meet the condition. -/
theorem run_preserves_along {invariant : S → Prop} {condition : S → A → Prop}
    (hstep : ∀ state action, invariant state → condition state action →
      invariant (step state action))
    {start : S} (hstart : invariant start) {trace : List A}
    (halong : Along step condition start trace) :
    invariant (run step start trace) := by
  induction trace generalizing start with
  | nil => exact hstart
  | cons action rest ih => exact ih (hstep start action hstart halong.1) halong.2

theorem Always.start {property : S → Prop} {start : S} {trace : List A}
    (h : Always step property start trace) : property start := by
  cases trace with
  | nil => exact h
  | cons action rest => exact h.1

theorem Always.run {property : S → Prop} {start : S} {trace : List A}
    (h : Always step property start trace) : property (run step start trace) := by
  induction trace generalizing start with
  | nil => exact h
  | cons action rest ih => exact ih h.2

/-- What an invariant implies holds throughout a run whose steps keep the invariant
under a condition they meet. -/
theorem always_of_preserves_along {invariant property : S → Prop} {condition : S → A → Prop}
    (hstep : ∀ state action, invariant state → condition state action →
      invariant (step state action))
    (himplies : ∀ state, invariant state → property state)
    {start : S} (hstart : invariant start) {trace : List A}
    (halong : Along step condition start trace) : Always step property start trace := by
  induction trace generalizing start with
  | nil => exact himplies start hstart
  | cons action rest ih =>
      exact ⟨himplies start hstart, ih (hstep start action hstart halong.1) halong.2⟩

theorem along_true (start : S) (trace : List A) :
    Along step (fun _ _ => True) start trace := by
  induction trace generalizing start with
  | nil => trivial
  | cons action rest ih => exact ⟨trivial, ih _⟩

/-- A condition on the actions alone. -/
theorem along_of_forall {condition : S → A → Prop} {start : S} {trace : List A}
    (h : ∀ state, ∀ action ∈ trace, condition state action) :
    Along step condition start trace := by
  induction trace generalizing start with
  | nil => trivial
  | cons action rest ih =>
      exact ⟨h start action List.mem_cons_self,
        ih fun state other hother => h state other (List.mem_cons_of_mem _ hother)⟩

/-- What an invariant implies holds throughout every run. -/
theorem always_of_preserves {invariant property : S → Prop}
    (hstep : ∀ state action, invariant state → invariant (step state action))
    (himplies : ∀ state, invariant state → property state)
    {start : S} (hstart : invariant start) (trace : List A) :
    Always step property start trace :=
  always_of_preserves_along (fun state action h _ => hstep state action h) himplies hstart
    (along_true start trace)

/-- A property that a step keeps exactly when the step meets the condition holds
throughout a run exactly when every step of the run meets it. -/
theorem always_iff_along {invariant property : S → Prop} {condition : S → A → Prop}
    (hinvariant : ∀ state action, invariant state → invariant (step state action))
    (hexact : ∀ state action, invariant state → property state →
      (property (step state action) ↔ condition state action))
    {start : S} (hstart : invariant start) (hproperty : property start)
    (trace : List A) :
    Always step property start trace ↔ Along step condition start trace := by
  induction trace generalizing start with
  | nil => simp [Always, Along, hproperty]
  | cons action rest ih =>
      have hnext := hexact start action hstart hproperty
      simp only [Always, Along, hproperty, true_and]
      constructor
      · intro halways
        have hmid := halways.start
        exact ⟨hnext.mp hmid,
          (ih (hinvariant start action hstart) hmid).mp halways⟩
      · rintro ⟨hcondition, halong⟩
        have hmid := hnext.mpr hcondition
        exact (ih (hinvariant start action hstart) hmid).mpr halong

/-- The steps of a run whose own property is decided by a condition. -/
theorem along_congr {invariant : S → Prop} {first second : S → A → Prop}
    (hinvariant : ∀ state action, invariant state → invariant (step state action))
    (hiff : ∀ state action, invariant state → (first state action ↔ second state action))
    {start : S} (hstart : invariant start) (trace : List A) :
    Along step first start trace ↔ Along step second start trace := by
  induction trace generalizing start with
  | nil => simp [Along]
  | cons action rest ih =>
      simp only [Along, hiff start action hstart,
        ih (hinvariant start action hstart)]

end Machine
