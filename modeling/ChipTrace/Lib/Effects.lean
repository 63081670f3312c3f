/-
Computations over a state that may stop with an error and keep what they did so
far.  Weakest preconditions say what must hold first so that a return ends in one
property and a stop in another; their rules follow the structure of the computation.
-/
import Mathlib.Data.List.Basic

universe u v

/-- Run over a state; the state is kept when the run stops. -/
def Eff (S E : Type u) (α : Type u) : Type u := S → Except E α × S

namespace Eff

variable {S E : Type u} {α β : Type u}

instance : Monad (Eff S E) where
  pure a := fun s => (.ok a, s)
  bind action next := fun s =>
    match action s with
    | (.ok a, s') => next a s'
    | (.error e, s') => (.error e, s')

def get : Eff S E S := fun s => (.ok s, s)

def modify (f : S → S) : Eff S E PUnit := fun s => (.ok ⟨⟩, f s)

def throw (e : E) : Eff S E α := fun s => (.error e, s)

/-- A result that needs no state. -/
def lift (value : Except E α) : Eff S E α := fun s => (value, s)

theorem bind_apply (action : Eff S E α) (next : α → Eff S E β) (s : S) :
    (action >>= next) s = match action s with
      | (.ok a, s') => next a s'
      | (.error e, s') => (.error e, s') := rfl

/-- What must hold of a state so that a return ends in `after` and a stop in `stopped`. -/
def Wp (action : Eff S E α) (after : α → S → Prop) (stopped : E → S → Prop) (s : S) : Prop :=
  match action s with
  | (.ok a, s') => after a s'
  | (.error e, s') => stopped e s'

variable {stopped : E → S → Prop} {s : S}

@[simp] theorem wp_pure {after : α → S → Prop} {a : α} :
    Wp (pure a : Eff S E α) after stopped s ↔ after a s := Iff.rfl

@[simp] theorem wp_throw {after : α → S → Prop} {e : E} :
    Wp (throw e : Eff S E α) after stopped s ↔ stopped e s := Iff.rfl

@[simp] theorem wp_get {after : S → S → Prop} :
    Wp (get : Eff S E S) after stopped s ↔ after s s := Iff.rfl

@[simp] theorem wp_modify {after : PUnit → S → Prop} {f : S → S} :
    Wp (modify f) after stopped s ↔ after ⟨⟩ (f s) := Iff.rfl

theorem wp_lift {after : α → S → Prop} {value : Except E α} :
    Wp (lift value) after stopped s ↔
      (∀ a, value = .ok a → after a s) ∧ ∀ e, value = .error e → stopped e s := by
  cases value <;> simp [Wp, lift]

@[simp] theorem wp_bind {after : β → S → Prop} {action : Eff S E α} {next : α → Eff S E β} :
    Wp (action >>= next) after stopped s ↔
      Wp action (fun a => Wp (next a) after stopped) stopped s := by
  change (match (match action s with
    | (.ok a, s') => next a s'
    | (.error e, s') => (.error e, s')) with
    | (.ok b, s') => after b s'
    | (.error e, s') => stopped e s') ↔ _
  rw [Wp]
  cases action s with
  | mk result s' => cases result <;> rfl

@[simp] theorem wp_ite {after : α → S → Prop} {condition : Prop} [Decidable condition]
    {first second : Eff S E α} :
    Wp (if condition then first else second) after stopped s ↔
      (condition → Wp first after stopped s) ∧ (¬ condition → Wp second after stopped s) := by
  split_ifs with hcondition <;> simp [hcondition]

theorem Wp.mono {action : Eff S E α} {after after' : α → S → Prop} {stopped' : E → S → Prop}
    (h : Wp action after stopped s) (hafter : ∀ a s, after a s → after' a s)
    (hstopped : ∀ e s, stopped e s → stopped' e s) : Wp action after' stopped' s := by
  rw [Wp] at h ⊢
  cases hrun : action s with
  | mk result s' =>
      rw [hrun] at h
      cases result with
      | ok a => exact hafter a s' h
      | error e => exact hstopped e s' h

/-- Two properties of one computation hold together. -/
theorem Wp.and {action : Eff S E α} {after after' : α → S → Prop} {stopped' : E → S → Prop}
    (h : Wp action after stopped s) (h' : Wp action after' stopped' s) :
    Wp action (fun a s' => after a s' ∧ after' a s') (fun e s' => stopped e s' ∧ stopped' e s')
      s := by
  rw [Wp] at h h' ⊢
  cases hrun : action s with
  | mk result s' =>
      rw [hrun] at h h'
      cases result with
      | ok a => exact ⟨h, h'⟩
      | error e => exact ⟨h, h'⟩

theorem Wp.ok {action : Eff S E α} {after : α → S → Prop} (h : Wp action after stopped s)
    {a : α} {s' : S} (hrun : action s = (.ok a, s')) : after a s' := by
  rwa [Wp, hrun] at h

theorem Wp.error {action : Eff S E α} {after : α → S → Prop} (h : Wp action after stopped s)
    {e : E} {s' : S} (hrun : action s = (.error e, s')) : stopped e s' := by
  rwa [Wp, hrun] at h

/-- Where no stop is allowed the computation returns. -/
theorem Wp.returns {action : Eff S E α} {after : α → S → Prop}
    (h : Wp action after (fun _ _ => False) s) :
    ∃ a s', action s = (.ok a, s') ∧ after a s' := by
  rw [Wp] at h
  cases hrun : action s with
  | mk result s' =>
      rw [hrun] at h
      cases result with
      | ok a => exact ⟨a, s', rfl, h⟩
      | error e => exact h.elim

/-- A computation for each item in turn, with the results in their order. -/
def forEach {A : Type v} (items : List A) (action : A → Eff S E α) : Eff S E (List α) :=
  match items with
  | [] => pure []
  | item :: rest => do
      let first ← action item
      let others ← forEach rest action
      pure (first :: others)

/-- A loop keeps an invariant, and each result is related to its item. -/
theorem wp_forEach {A : Type v} {action : A → Eff S E α} {items : List A}
    {relates : A → α → Prop} {invariant : S → Prop}
    (hstep : ∀ item ∈ items, ∀ s, invariant s →
      Wp (action item) (fun a s' => relates item a ∧ invariant s') stopped s)
    (hstart : invariant s) :
    Wp (forEach items action) (fun results s' => List.Forall₂ relates items results ∧ invariant s')
      stopped s := by
  induction items generalizing s with
  | nil => exact ⟨List.Forall₂.nil, hstart⟩
  | cons item rest ih =>
      rw [forEach, wp_bind]
      apply (hstep item List.mem_cons_self s hstart).mono _ fun _ _ h => h
      rintro first s' ⟨hfirst, hs'⟩
      rw [wp_bind]
      apply (ih (fun other hother => hstep other (List.mem_cons_of_mem _ hother)) hs').mono _
        fun _ _ h => h
      rintro others s'' ⟨hothers, hs''⟩
      exact ⟨List.Forall₂.cons hfirst hothers, hs''⟩

/-- A loop whose results stay related to their items as the state grows. -/
theorem wp_forEach_grows {A : Type v} {action : A → Eff S E α} {items : List A}
    {relates : A → α → S → Prop} {invariant : S → Prop} {grows : S → S → Prop}
    (hrefl : ∀ s, grows s s) (htrans : ∀ s s' s'', grows s s' → grows s' s'' → grows s s'')
    (hmono : ∀ item a s s', relates item a s → grows s s' → relates item a s')
    (hstep : ∀ item ∈ items, ∀ s, invariant s →
      Wp (action item) (fun a s' => relates item a s' ∧ invariant s' ∧ grows s s') stopped s)
    (hstart : invariant s) :
    Wp (forEach items action) (fun results s' =>
      List.Forall₂ (relates · · s') items results ∧ invariant s' ∧ grows s s') stopped s := by
  induction items generalizing s with
  | nil => exact ⟨List.Forall₂.nil, hstart, hrefl s⟩
  | cons item rest ih =>
      rw [forEach, wp_bind]
      apply (hstep item List.mem_cons_self s hstart).mono _ fun _ _ h => h
      rintro first s' ⟨hfirst, hs', hgrows⟩
      rw [wp_bind]
      apply (ih (fun other hother => hstep other (List.mem_cons_of_mem _ hother)) hs').mono _
        fun _ _ h => h
      rintro others s'' ⟨hothers, hs'', hgrows'⟩
      exact ⟨List.Forall₂.cons (hmono _ _ _ _ hfirst hgrows') hothers, hs'',
        htrans _ _ _ hgrows hgrows'⟩

theorem forEach_map {A B : Type v} (f : A → B) (items : List A) (action : B → Eff S E α) :
    forEach (items.map f) action = forEach items fun item => action (f item) := by
  induction items with
  | nil => rfl
  | cons item rest ih => rw [List.map_cons, forEach, forEach, ih]

end Eff
