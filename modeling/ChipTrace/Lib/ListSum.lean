/-
Weighted sums and filters of a list in which one item is replaced or removed.
-/
import Mathlib.Algebra.BigOperators.Group.List.Basic
import Mathlib.Algebra.Order.BigOperators.Group.List
import Mathlib.Algebra.Order.Ring.Nat

namespace List

variable {α : Type} {items : List α} {index : Nat} {old : α}

theorem sum_map_eraseIdx (weight : α → Nat) (hitem : items[index]? = some old) :
    ((items.eraseIdx index).map weight).sum + weight old = (items.map weight).sum := by
  obtain ⟨hindex, rfl⟩ := List.getElem?_eq_some_iff.mp hitem
  have hperm := (List.getElem_cons_eraseIdx_perm hindex).map weight
  rw [← hperm.sum_eq, List.map_cons, List.sum_cons, Nat.add_comm]

theorem sum_map_set (weight : α → Nat) (hitem : items[index]? = some old) (new : α) :
    ((items.set index new).map weight).sum + weight old =
      (items.map weight).sum + weight new := by
  induction items generalizing index with
  | nil => cases hitem
  | cons head rest ih =>
      cases index with
      | zero =>
          cases hitem
          simp only [List.set_cons_zero, List.map_cons, List.sum_cons]
          omega
      | succ index =>
          have htail := ih hitem
          simp only [List.set_cons_succ, List.map_cons, List.sum_cons]
          omega

theorem filter_eraseIdx_of_neg {p : α → Bool} (hitem : items[index]? = some old)
    (hold : p old = false) : (items.eraseIdx index).filter p = items.filter p := by
  induction items generalizing index with
  | nil => cases hitem
  | cons head rest ih =>
      cases index with
      | zero =>
          cases hitem
          simp [hold]
      | succ index =>
          have htail := ih hitem
          simp only [List.eraseIdx_cons_succ, List.filter_cons, htail]

theorem filter_set_of_neg {p : α → Bool} (hitem : items[index]? = some old)
    (hold : p old = false) {new : α} (hnew : p new = false) :
    (items.set index new).filter p = items.filter p := by
  induction items generalizing index with
  | nil => cases hitem
  | cons head rest ih =>
      cases index with
      | zero =>
          cases hitem
          simp [hold, hnew]
      | succ index =>
          have htail := ih hitem
          simp only [List.set_cons_succ, List.filter_cons, htail]

end List
