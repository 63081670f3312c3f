/-
Unsigned 64-bit arithmetic on natural numbers: additions that fail or saturate
at the limit, and the checked sum of a list.
-/
import ChipTrace.Lib.Result
import Mathlib.Algebra.BigOperators.Group.List.Basic
import Mathlib.Algebra.GroupWithZero.Nat

namespace U64

/-- The first number that does not fit. -/
def limit : Nat := 2 ^ 64

/-- Addition that reports an overflow with the caller's message. -/
def checkedAdd (message : String) (a b : Nat) : Except String Nat :=
  if a + b < limit then .ok (a + b) else .error message

/-- Addition that stays at the greatest representable number. -/
def saturatingAdd (a b : Nat) : Nat := min (a + b) (limit - 1)

/-- Multiplication that stays at the greatest representable number. -/
def saturatingMul (a b : Nat) : Nat := min (a * b) (limit - 1)

/-- The conversion of a machine size, which keeps the low 64 bits. -/
def ofLength (length : Nat) : Nat := length % limit

theorem ofLength_lt (length : Nat) : ofLength length < limit :=
  Nat.mod_lt _ (by decide)

/-- Fold of checked additions over a list of counts. -/
def checkedSum (message : String) (counts : List Nat) : Except String Nat :=
  counts.foldlM (checkedAdd message) 0

theorem checkedAdd_eq_ok_iff {message : String} {a b c : Nat} :
    checkedAdd message a b = .ok c ↔ a + b < limit ∧ a + b = c := by
  unfold checkedAdd
  split_ifs with h
  · simp [h]
  · simp [h]

theorem foldlM_checkedAdd {message : String} {counts : List Nat} {start total : Nat}
    (hstart : start < limit) :
    counts.foldlM (checkedAdd message) start = .ok total ↔
      start + counts.sum < limit ∧ start + counts.sum = total := by
  induction counts generalizing start with
  | nil => simp [List.foldlM_nil, Except.pure_eq_ok_iff, hstart]
  | cons count rest ih =>
      rw [List.foldlM_cons, Except.bind_eq_ok_iff]
      simp only [checkedAdd_eq_ok_iff, List.sum_cons]
      constructor
      · rintro ⟨mid, ⟨hmid, rfl⟩, hrest⟩
        have hsum := (ih hmid).mp hrest
        omega
      · rintro ⟨hfits, rfl⟩
        have hmid : start + count < limit := by omega
        exact ⟨start + count, ⟨hmid, rfl⟩, (ih hmid).mpr ⟨by omega, by omega⟩⟩

/-- No partial sum fails unless the whole sum does not fit. -/
theorem checkedSum_eq_ok_iff {message : String} {counts : List Nat} {total : Nat} :
    checkedSum message counts = .ok total ↔
      counts.sum < limit ∧ counts.sum = total := by
  have h : counts.foldlM (checkedAdd message) 0 = .ok total ↔
      0 + counts.sum < limit ∧ 0 + counts.sum = total := foldlM_checkedAdd (by decide)
  simpa [checkedSum] using h

theorem saturatingAdd_eq {a b : Nat} (hfits : a + b < limit) :
    saturatingAdd a b = a + b := by
  unfold saturatingAdd
  omega

theorem saturatingAdd_lt (a b : Nat) : saturatingAdd a b < limit := by
  have hpos : 0 < limit := by decide
  unfold saturatingAdd
  omega

/-- Saturating additions one after another saturate the sum. -/
theorem foldl_saturatingAdd (counts : List Nat) {start : Nat} (hstart : start < limit) :
    counts.foldl saturatingAdd start = saturatingAdd start counts.sum := by
  induction counts generalizing start with
  | nil =>
      rw [List.foldl_nil, List.sum_nil, saturatingAdd_eq (by omega), Nat.add_zero]
  | cons count rest ih =>
      rw [List.foldl_cons, ih (saturatingAdd_lt start count), List.sum_cons]
      unfold saturatingAdd
      omega

/-- A saturated sum below a representable number is the sum. -/
theorem saturatingAdd_of_lt {a b size : Nat} (hsize : size < limit)
    (hbelow : saturatingAdd a b < size) : saturatingAdd a b = a + b := by
  unfold saturatingAdd at hbelow ⊢
  generalize limit = bound at *
  omega

end U64
