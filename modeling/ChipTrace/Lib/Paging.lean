/-
Pages of a list that grows at its front while its pages are asked for, one after another.
-/
import Mathlib.Data.List.Pairwise
import Mathlib.Data.List.Infix

namespace ChipTrace.Paging

universe u

variable {α : Type u} {size : Nat} {items : List α} {listing : Nat → List α}

/-- The page after `number` pages. -/
def page (size number : Nat) (items : List α) : List α := (items.drop (number * size)).take size

/-- What comes after a page. -/
def behind (size number : Nat) (items : List α) : List α := items.drop ((number + 1) * size)

theorem page_append_behind (size number : Nat) (items : List α) :
    page size number items ++ behind size number items = items.drop (number * size) := by
  rw [page, behind, Nat.add_one_mul, ← List.drop_drop, List.take_append_drop]

theorem mem_of_mem_page {x : α} {number : Nat} (hx : x ∈ page size number items) : x ∈ items :=
  List.mem_of_mem_drop (List.mem_of_mem_take hx)

theorem mem_of_mem_behind {x : α} {number : Nat} (hx : x ∈ behind size number items) : x ∈ items :=
  List.mem_of_mem_drop hx

theorem behind_eq_nil {number : Nat} (hshort : (page size number items).length < size) :
    behind size number items = [] := by
  rw [page, List.length_take, List.length_drop] at hshort
  rw [behind, Nat.add_one_mul]
  exact List.drop_eq_nil_of_le (by omega)

section Order

variable {R : α → α → Prop}

/-- What stands behind a page stands behind every item of it. -/
theorem page_before_behind (horder : items.Pairwise R) {number : Nat} {x y : α}
    (hx : x ∈ page size number items) (hy : y ∈ behind size number items) : R x y := by
  have hparts : (page size number items ++ behind size number items).Pairwise R := by
    rw [page_append_behind]
    exact horder.sublist (List.drop_sublist _ _)
  exact (List.pairwise_append.mp hparts).2.2 x hx y hy

/-- What an item of a page comes before is on the page or behind it. -/
theorem on_page_or_behind (horder : items.Pairwise R) {number : Nat} {x y : α}
    (hx : x ∈ page size number items) (hy : y ∈ items) (hbefore : ¬ R y x) :
    y ∈ page size number items ∨ y ∈ behind size number items := by
  rw [← List.mem_append, page_append_behind]
  rw [← List.take_append_drop (number * size) items, List.mem_append] at hy
  rcases hy with hfront | hrest
  · refine absurd ?_ hbefore
    rw [← List.take_append_drop (number * size) items] at horder
    exact (List.pairwise_append.mp horder).2.2 y hfront x (List.mem_of_mem_take hx)
  · exact hrest

end Order

/-- What is behind a page when it is asked for is on the next one, or behind it too. -/
theorem next_page_or_behind {number : Nat} {x : α} (hx : x ∈ behind size number items)
    (more : List α) :
    x ∈ page size (number + 1) (more ++ items) ∨ x ∈ behind size (number + 1) (more ++ items) := by
  rw [← List.mem_append, page_append_behind, List.drop_append]
  have hpart : items.drop ((number + 1) * size) <:+
      items.drop ((number + 1) * size - more.length) := by
    have hless := Nat.sub_le ((number + 1) * size) more.length
    rw [← Nat.add_sub_cancel' hless, ← List.drop_drop, Nat.add_sub_cancel' hless]
    exact List.drop_suffix _ _
  exact List.mem_append_right _ (hpart.mem hx)

theorem suffix_of_le (hgrows : ∀ number, listing number <:+ listing (number + 1))
    {first last : Nat} (hle : first ≤ last) : listing first <:+ listing last := by
  induction last, hle using Nat.le_induction with
  | base => exact List.suffix_rfl
  | succ last hle ih => exact ih.trans (hgrows last)

/-- What is behind a page comes on a later page, or stays behind every page that is asked for. -/
theorem later_page_or_behind (hgrows : ∀ number, listing number <:+ listing (number + 1))
    {first last : Nat} (hle : first ≤ last) {x : α} (hx : x ∈ behind size first (listing first)) :
    (∃ number, number ≤ last ∧ x ∈ page size number (listing number)) ∨
      x ∈ behind size last (listing last) := by
  induction last, hle using Nat.le_induction with
  | base => exact Or.inr hx
  | succ last hle ih =>
      rcases ih with ⟨number, hnumber, hpage⟩ | hbehind
      · exact Or.inl ⟨number, Nat.le_succ_of_le hnumber, hpage⟩
      · obtain ⟨more, hmore⟩ := hgrows last
        rw [← hmore]
        rcases next_page_or_behind hbehind more with hpage | hlater
        · exact Or.inl ⟨last + 1, Nat.le_refl _, hmore ▸ hpage⟩
        · exact Or.inr hlater

end ChipTrace.Paging
