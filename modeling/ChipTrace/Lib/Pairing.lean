/-
Two lists related item by item: every item has its partner, keys that agree agree
as lists, and selecting items keeps the order of their keys.
-/
import Mathlib.Data.List.Forall2
import Mathlib.Data.List.Nodup

namespace List

variable {A B K : Type*} {P : A → B → Prop} {left : List A} {right : List B}

theorem Forall₂.exists_right (h : Forall₂ P left right) {a : A} (ha : a ∈ left) :
    ∃ b ∈ right, P a b := by
  induction h with
  | nil => cases ha
  | @cons head other left right hhead _ ih =>
      rcases mem_cons.mp ha with rfl | hrest
      · exact ⟨other, mem_cons_self, hhead⟩
      · obtain ⟨b, hb, hab⟩ := ih hrest
        exact ⟨b, mem_cons_of_mem other hb, hab⟩

theorem Forall₂.exists_left (h : Forall₂ P left right) {b : B} (hb : b ∈ right) :
    ∃ a ∈ left, P a b :=
  h.flip.exists_right hb

theorem Forall₂.map_eq (h : Forall₂ P left right) {f : A → K} {g : B → K}
    (hsame : ∀ a b, P a b → g b = f a) : right.map g = left.map f := by
  induction h with
  | nil => rfl
  | cons hhead _ ih => rw [map_cons, map_cons, hsame _ _ hhead, ih]

/-- The keys of selected items are some of the keys, in their order. -/
theorem sublist_map_filterMap {select : A → Option B} {key : A → K} {key' : B → K}
    (hselect : ∀ a b, select a = some b → key' b = key a) (items : List A) :
    (items.filterMap select).map key' <+ items.map key := by
  induction items with
  | nil => exact Sublist.refl []
  | cons item rest ih =>
      rw [filterMap_cons, map_cons]
      cases hitem : select item with
      | none => exact ih.cons _
      | some b =>
          rw [map_cons, hselect item b hitem]
          exact ih.cons_cons _

end List
