/-
Rules for fallible computations: taking a successful bind apart, and carrying an
invariant through a fallible loop.
-/
import Mathlib.Data.List.Basic
import Mathlib.Data.List.Forall2

universe u v w

namespace Except

variable {ε : Type u} {α β : Type v}

/-- A bind succeeds exactly when both parts do. -/
theorem bind_eq_ok_iff {x : Except ε α} {f : α → Except ε β} {b : β} :
    (x >>= f) = .ok b ↔ ∃ a, x = .ok a ∧ f a = .ok b := by
  cases x with
  | error e => simp [bind, Except.bind]
  | ok a => simp [bind, Except.bind]

theorem pure_eq_ok_iff {a b : α} : (pure a : Except ε α) = .ok b ↔ a = b := by
  simp [pure, Except.pure]

@[simp] theorem ok_bind (a : α) (f : α → Except ε β) :
    ((.ok a : Except ε α) >>= f) = f a := rfl

@[simp] theorem error_bind (e : ε) (f : α → Except ε β) :
    ((.error e : Except ε α) >>= f) = .error e := rfl

theorem map_eq_ok_iff {x : Except ε α} {f : α → β} {b : β} :
    (f <$> x) = .ok b ↔ ∃ a, x = .ok a ∧ f a = b := by
  cases x with
  | error e => simp [Functor.map, Except.map]
  | ok a => simp [Functor.map, Except.map]

/-- Every failure is one of the allowed ones. -/
def FailsWith (allowed : ε → Prop) (result : Except ε α) : Prop :=
  ∀ error, result = .error error → allowed error

variable {allowed : ε → Prop}

@[simp] theorem failsWith_ok (a : α) : FailsWith allowed (.ok a) := fun _ h => by cases h

@[simp] theorem failsWith_pure (a : α) : FailsWith allowed (pure a : Except ε α) :=
  failsWith_ok a

@[simp] theorem failsWith_error (error : ε) :
    FailsWith allowed (.error error : Except ε α) ↔ allowed error := by
  constructor
  · exact fun h => h error rfl
  · rintro h _ ⟨⟩
    exact h

@[simp] theorem failsWith_throw (error : ε) :
    FailsWith allowed (throw error : Except ε α) ↔ allowed error := failsWith_error error

@[simp] theorem failsWith_bind {x : Except ε α} {f : α → Except ε β} :
    FailsWith allowed (x >>= f) ↔
      FailsWith allowed x ∧ ∀ a, x = .ok a → FailsWith allowed (f a) := by
  cases x with
  | error e => simp
  | ok a => simp

@[simp] theorem failsWith_map {x : Except ε α} {f : α → β} :
    FailsWith allowed (f <$> x) ↔ FailsWith allowed x := by
  cases x with
  | error e => exact ⟨fun h => (failsWith_error e).mpr (h e rfl), fun h =>
      (failsWith_error e).mpr (h e rfl)⟩
  | ok a => exact iff_of_true (failsWith_ok (f a)) (failsWith_ok a)

@[simp] theorem failsWith_exceptMap {x : Except ε α} {f : α → β} :
    FailsWith allowed (Except.map f x) ↔ FailsWith allowed x := failsWith_map

@[simp] theorem failsWith_ite {c : Prop} [Decidable c] {x y : Except ε α} :
    FailsWith allowed (if c then x else y) ↔
      (c → FailsWith allowed x) ∧ (¬ c → FailsWith allowed y) := by
  split_ifs with hc <;> simp [hc]

end Except

section Loops

variable {ε : Type u} {σ : Type v} {α : Type w}

/-- What one round of a fallible loop preserves, the loop preserves. -/
theorem foldlM_ok_preserves {step : σ → α → Except ε σ} (invariant : σ → Prop)
    (items : List α)
    (hstep : ∀ item ∈ items, ∀ state next, invariant state →
      step state item = .ok next → invariant next)
    (start : σ) {finish : σ} (hstart : invariant start)
    (hrun : items.foldlM step start = .ok finish) : invariant finish := by
  induction items generalizing start with
  | nil =>
      rw [List.foldlM_nil, Except.pure_eq_ok_iff] at hrun
      exact hrun ▸ hstart
  | cons item rest ih =>
      rw [List.foldlM_cons, Except.bind_eq_ok_iff] at hrun
      obtain ⟨mid, hmid, hrest⟩ := hrun
      exact ih (fun other hother => hstep other (List.mem_cons_of_mem _ hother)) mid
        (hstep item List.mem_cons_self start mid hstart hmid) hrest

/-- What the round of one item reaches and every round keeps, the loop reaches. -/
theorem foldlM_ok_reaches {step : σ → α → Except ε σ} (reached : σ → Prop) {items : List α}
    {item : α} (hitem : item ∈ items)
    (hreach : ∀ state next, step state item = .ok next → reached next)
    (hkeep : ∀ item ∈ items, ∀ state next, reached state → step state item = .ok next →
      reached next)
    {start finish : σ} (hrun : items.foldlM step start = .ok finish) : reached finish := by
  induction items generalizing start with
  | nil => cases hitem
  | cons head rest ih =>
      rw [List.foldlM_cons, Except.bind_eq_ok_iff] at hrun
      obtain ⟨mid, hmid, hrest⟩ := hrun
      have hkeeps : ∀ item ∈ rest, ∀ state next, reached state → step state item = .ok next →
          reached next := fun other hother => hkeep other (List.mem_cons_of_mem _ hother)
      rcases List.mem_cons.mp hitem with rfl | hlater
      · exact foldlM_ok_preserves reached rest hkeeps mid (hreach start mid hmid) hrest
      · exact ih hlater hkeeps hrest

/-- A loop of checks only depends on the check of each item. -/
theorem List.forM_congr_of_mem {m : Type v → Type u} [Monad m] {items : List α}
    {f g : α → m PUnit} (h : ∀ item ∈ items, f item = g item) :
    items.forM f = items.forM g := by
  induction items with
  | nil => rfl
  | cons item rest ih =>
      change (f item >>= fun _ => rest.forM f) = (g item >>= fun _ => rest.forM g)
      rw [h item List.mem_cons_self, ih fun other hother => h other (List.mem_cons_of_mem _ hother)]

/-- A loop of checks passes exactly when every check does. -/
theorem List.forM_eq_ok_iff {items : List α} {check : α → Except ε PUnit} :
    items.forM check = .ok ⟨⟩ ↔ ∀ item ∈ items, check item = .ok ⟨⟩ := by
  induction items with
  | nil => exact ⟨fun _ item hitem => absurd hitem List.not_mem_nil, fun _ => rfl⟩
  | cons item rest ih =>
      change (check item >>= fun _ => rest.forM check) = .ok ⟨⟩ ↔ _
      rw [Except.bind_eq_ok_iff, List.forall_mem_cons]
      constructor
      · rintro ⟨_, hitem, hrest⟩
        exact ⟨hitem, ih.mp hrest⟩
      · rintro ⟨hitem, hrest⟩
        exact ⟨⟨⟩, hitem, ih.mpr hrest⟩

/-- A fallible map returns the results of the items in their order. -/
theorem List.mapM_eq_ok_iff {β : Type v} {items : List α} {f : α → Except ε β}
    {results : List β} :
    items.mapM f = .ok results ↔ List.Forall₂ (fun item result => f item = .ok result)
      items results := by
  induction items generalizing results with
  | nil =>
      rw [List.mapM_nil, Except.pure_eq_ok_iff, List.forall₂_nil_left_iff]
      exact eq_comm
  | cons item rest ih =>
      rw [List.mapM_cons, Except.bind_eq_ok_iff, List.forall₂_cons_left_iff]
      constructor
      · rintro ⟨result, hitem, hrun⟩
        obtain ⟨tail, hrest, htail⟩ := Except.bind_eq_ok_iff.mp hrun
        exact ⟨result, tail, hitem, ih.mp hrest, (Except.pure_eq_ok_iff.mp htail).symm⟩
      · rintro ⟨result, tail, hitem, hrest, rfl⟩
        exact ⟨result, hitem, Except.bind_eq_ok_iff.mpr ⟨tail, ih.mpr hrest, rfl⟩⟩

/-- A fallible loop fails as its rounds do. -/
theorem failsWith_foldlM {allowed : ε → Prop} {step : σ → α → Except ε σ} {items : List α}
    (hstep : ∀ state, ∀ item ∈ items, Except.FailsWith allowed (step state item)) (start : σ) :
    Except.FailsWith allowed (items.foldlM step start) := by
  induction items generalizing start with
  | nil => exact Except.failsWith_pure start
  | cons item rest ih =>
      rw [List.foldlM_cons]
      exact Except.failsWith_bind.mpr ⟨hstep start item List.mem_cons_self, fun next _ =>
        ih (fun state other hother => hstep state other (List.mem_cons_of_mem _ hother)) next⟩

theorem failsWith_forM {allowed : ε → Prop} {items : List α} {check : α → Except ε PUnit}
    (hcheck : ∀ item ∈ items, Except.FailsWith allowed (check item)) :
    Except.FailsWith allowed (items.forM check) := by
  induction items with
  | nil => exact Except.failsWith_ok _
  | cons item rest ih =>
      change Except.FailsWith allowed (check item >>= fun _ => rest.forM check)
      exact Except.failsWith_bind.mpr ⟨hcheck item List.mem_cons_self, fun _ _ =>
        ih fun other hother => hcheck other (List.mem_cons_of_mem _ hother)⟩

/-- What one round of a loop preserves, the loop preserves. -/
theorem foldl_preserves (step : σ → α → σ) (invariant : σ → Prop) (items : List α)
    (hstep : ∀ item ∈ items, ∀ state, invariant state → invariant (step state item))
    (start : σ) (hstart : invariant start) : invariant (items.foldl step start) := by
  induction items generalizing start with
  | nil => exact hstart
  | cons item rest ih =>
      exact ih (fun other hother => hstep other (List.mem_cons_of_mem _ hother)) _
        (hstep item List.mem_cons_self start hstart)

/-- What a loop makes true of its state if every round adds something to it. -/
theorem foldl_adds_iff {step : σ → α → σ} (holds : σ → Prop) (adds : α → Prop)
    (hstep : ∀ state item, holds (step state item) ↔ adds item ∨ holds state) (items : List α)
    (start : σ) : holds (items.foldl step start) ↔ (∃ item ∈ items, adds item) ∨ holds start := by
  induction items generalizing start with
  | nil => simp
  | cons item rest ih =>
      rw [List.foldl_cons, ih, hstep]
      rw [List.exists_mem_cons_iff, ← or_assoc, or_comm (b := adds item)]

end Loops
