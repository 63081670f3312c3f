/-
An order with a key that only some pairs share: items are compared by a first key, then
inside a group by their rank in it, and by a last key.  It is transitive unless the last
key puts an outsider between two members of a group whose ranks are the other way round.
-/
import Mathlib.Data.List.Forall2
import Mathlib.Data.List.Perm.Basic

universe u v w

open Std

namespace Comparator

variable {α : Type u}

/-- On these items the comparison is antisymmetric and transitive. -/
structure TotalPreorderOn (cmp : α → α → Ordering) (items : α → Prop) : Prop where
  swap : ∀ a b, items a → items b → cmp b a = (cmp a b).swap
  trans : ∀ a b c, items a → items b → items c →
    (cmp a b).isLE = true → (cmp b c).isLE = true → (cmp a c).isLE = true

def Sorted (cmp : α → α → Ordering) (list : List α) : Prop :=
  list.Pairwise fun a b => (cmp a b).isLE = true

section Ties

variable {cmp : α → α → Ordering} {items : α → Prop}

theorem TotalPreorderOn.refl (h : TotalPreorderOn cmp items) {a : α} (ha : items a) :
    cmp a a = .eq := by
  have hswap := h.swap a a ha ha
  cases hcmp : cmp a a with
  | eq => rfl
  | lt => rw [hcmp] at hswap; cases hswap
  | gt => rw [hcmp] at hswap; cases hswap

theorem TotalPreorderOn.eq_of_isLE (h : TotalPreorderOn cmp items) {a b : α} (ha : items a)
    (hb : items b) (hab : (cmp a b).isLE = true) (hba : (cmp b a).isLE = true) :
    cmp a b = .eq := by
  rw [h.swap a b ha hb] at hba
  cases hcmp : cmp a b with
  | eq => rfl
  | lt => rw [hcmp] at hba; cases hba
  | gt => rw [hcmp] at hab; cases hab

/-- Items that tie compare alike with every item. -/
theorem TotalPreorderOn.tie_congr (h : TotalPreorderOn cmp items) {a b x : α} (ha : items a)
    (hb : items b) (hx : items x) (hab : cmp a b = .eq) :
    cmp x a = .eq ↔ cmp x b = .eq := by
  have hle : ∀ {c d : α}, cmp c d = .eq → (cmp c d).isLE = true := by
    intro c d heq
    rw [heq]
    rfl
  have hback : ∀ {c d : α}, items c → items d → cmp c d = .eq → cmp d c = .eq := by
    intro c d hc hd heq
    rw [h.swap c d hc hd, heq]
    rfl
  have hforward : ∀ {c d : α}, items c → items d → cmp c d = .eq → cmp x c = .eq →
      cmp x d = .eq := by
    intro c d hc hd hcd hxc
    apply h.eq_of_isLE hx hd
    · exact h.trans x c d hx hc hd (hle hxc) (hle hcd)
    · exact h.trans d c x hd hc hx (hle (hback hc hd hcd)) (hle (hback hx hc hxc))
  exact ⟨hforward ha hb hab, hforward hb ha (hback ha hb hab)⟩

/-- Two sorted lists with as many items of each kind have ties in every place. -/
theorem TotalPreorderOn.ties_of_counts (h : TotalPreorderOn cmp items) :
    ∀ {left right : List α}, (∀ a ∈ left, items a) → (∀ a ∈ right, items a) →
      Sorted cmp left → Sorted cmp right →
      (∀ x, items x → left.countP (fun a => cmp x a = .eq) =
        right.countP fun a => cmp x a = .eq) →
      List.Forall₂ (fun a b => cmp a b = .eq) left right := by
  intro left
  induction left with
  | nil =>
      intro right _ hright _ _ hcounts
      cases right with
      | nil => exact List.Forall₂.nil
      | cons b rest =>
          have hb : items b := hright b List.mem_cons_self
          have hcount := hcounts b hb
          rw [List.countP_cons_of_pos (by simp [h.refl hb])] at hcount
          simp at hcount
  | cons a left ih =>
      intro right hleft hright hsortedLeft hsortedRight hcounts
      have ha : items a := hleft a List.mem_cons_self
      -- Each head is below an item that ties with the other head.
      have hmem : ∀ {list other : List α} {c : α}, items c →
          (c :: list).countP (fun d => cmp c d = .eq) =
            other.countP (fun d => cmp c d = .eq) → ∃ d ∈ other, cmp c d = .eq := by
        intro list other c hc hcount
        rw [List.countP_cons_of_pos (by simp [h.refl hc])] at hcount
        have hpos : 0 < other.countP fun d => cmp c d = .eq := by omega
        obtain ⟨d, hd, htie⟩ := List.countP_pos_iff.mp hpos
        exact ⟨d, hd, by simpa using htie⟩
      cases right with
      | nil =>
          obtain ⟨d, hd, _⟩ := hmem ha (hcounts a ha)
          cases hd
      | cons b right =>
          have hb : items b := hright b List.mem_cons_self
          have hbelow : ∀ {c : α} {list : List α} {d : α}, Sorted cmp (c :: list) → items c →
              d ∈ c :: list → (cmp c d).isLE = true := by
            intro c list d hsorted hc hd
            cases hd with
            | head => rw [h.refl hc]; rfl
            | tail _ hd => exact (List.pairwise_cons.mp hsorted).1 d hd
          obtain ⟨d, hd, had⟩ := hmem ha (hcounts a ha)
          obtain ⟨e, he, hbe⟩ := hmem hb (hcounts b hb).symm
          have hitemd : items d := hright d hd
          have hiteme : items e := hleft e he
          have hba : (cmp b a).isLE = true := by
            apply h.trans b d a hb hitemd ha (hbelow hsortedRight hb hd)
            rw [h.swap a d ha hitemd, had]
            rfl
          have hab : (cmp a b).isLE = true := by
            apply h.trans a e b ha hiteme hb (hbelow hsortedLeft ha he)
            rw [h.swap b e hb hiteme, hbe]
            rfl
          have htie : cmp a b = .eq := h.eq_of_isLE ha hb hab hba
          refine List.Forall₂.cons (by exact htie) ?_
          apply ih (fun c hc => hleft c (List.mem_cons_of_mem a hc))
            (fun c hc => hright c (List.mem_cons_of_mem b hc))
            (List.pairwise_cons.mp hsortedLeft).2 (List.pairwise_cons.mp hsortedRight).2
          intro x hx
          have hcount := hcounts x hx
          rw [List.countP_cons, List.countP_cons] at hcount
          simp only [decide_eq_true_eq, h.tie_congr ha hb hx htie] at hcount
          omega

/-- However the items are arranged, the sorted arrangements differ in ties only. -/
theorem TotalPreorderOn.sorted_ties (h : TotalPreorderOn cmp items) {left right : List α}
    (hitems : ∀ a ∈ left, items a) (hperm : left.Perm right) (hleft : Sorted cmp left)
    (hright : Sorted cmp right) : List.Forall₂ (fun a b => cmp a b = .eq) left right :=
  h.ties_of_counts hitems (fun a ha => hitems a (hperm.mem_iff.mpr ha)) hleft hright
    fun _ _ => hperm.countP_eq _

end Ties

section Grouped

variable {G : Type v} {R : Type w} [DecidableEq G] [Ord R]
variable (first : α → α → Ordering) (group : α → Option (G × R)) (last : α → α → Ordering)

def grouped (a b : α) : Ordering :=
  (first a b).then
    (match group a, group b with
    | some (g, r), some (h, s) => if g = h then (compare r s).then (last a b) else last a b
    | _, _ => last a b)

/-- Both items have a rank in one group. -/
def Together (a b : α) : Prop :=
  ∃ g r s, group a = some (g, r) ∧ group b = some (g, s)

/-- The last key puts `y`, which is not of the group, between two members of a group whose
ranks are the other way round. -/
def Crosses (x y z : α) : Prop :=
  first x y = .eq ∧ first y z = .eq ∧
    (∃ g r s, group x = some (g, r) ∧ group z = some (g, s) ∧ compare r s = .lt) ∧
    ¬ Together group x y ∧ (last z y).isLE = true ∧ (last y x).isLE = true

variable {first group last}

omit [DecidableEq G] [Ord R] in
theorem Together.symm {a b : α} (h : Together group a b) : Together group b a := by
  obtain ⟨g, r, s, ha, hb⟩ := h
  exact ⟨g, s, r, hb, ha⟩

omit [DecidableEq G] [Ord R] in
theorem Together.trans {a b c : α} (hab : Together group a b) (hbc : Together group b c) :
    Together group a c := by
  obtain ⟨g, r, s, ha, hb⟩ := hab
  obtain ⟨g', s', t, hb', hc⟩ := hbc
  rw [hb, Option.some.injEq, Prod.mk.injEq] at hb'
  obtain ⟨rfl, rfl⟩ := hb'
  exact ⟨g, r, t, ha, hc⟩

theorem grouped_together {a b : α} {g : G} {r s : R} (ha : group a = some (g, r))
    (hb : group b = some (g, s)) :
    grouped first group last a b = (first a b).then ((compare r s).then (last a b)) := by
  simp [grouped, ha, hb]

theorem grouped_apart {a b : α} (h : ¬ Together group a b) :
    grouped first group last a b = (first a b).then (last a b) := by
  cases ha : group a with
  | none => simp [grouped, ha]
  | some left =>
      cases hb : group b with
      | none => simp [grouped, ha, hb]
      | some right =>
          have hne : left.1 ≠ right.1 := by
            intro heq
            exact h ⟨left.1, left.2, right.2, ha, by rw [hb, heq]⟩
          simp [grouped, ha, hb, hne]

variable [TransCmp first] [TransCmp last] [TransOrd R]

/-- Comparing the other way round gives the opposite answer. -/
theorem grouped_swap (a b : α) :
    grouped first group last b a = (grouped first group last a b).swap := by
  have hfirst : first b a = (first a b).swap := OrientedCmp.eq_swap
  have hlast : last b a = (last a b).swap := OrientedCmp.eq_swap
  by_cases htogether : Together group a b
  · obtain ⟨g, r, s, ha, hb⟩ := htogether
    have hrank : compare s r = (compare r s).swap := OrientedCmp.eq_swap
    rw [grouped_together ha hb, grouped_together hb ha, hfirst, hlast, hrank,
      Ordering.swap_then, Ordering.swap_then]
  · rw [grouped_apart htogether, grouped_apart fun h => htogether h.symm, hfirst, hlast,
      Ordering.swap_then]

theorem not_isLE {cmp : α → α → Ordering} [OrientedCmp cmp] {a b : α}
    (h : ¬ (cmp a b).isLE = true) : cmp b a = .lt := OrientedCmp.lt_of_not_isLE h

/-- Where the first keys are equal and nothing crosses, the comparison is transitive. -/
theorem grouped_trans_of_first_eq {a b c : α} (hab : first a b = .eq) (hbc : first b c = .eq)
    (hcross : ∀ x ∈ [a, b, c], ∀ y ∈ [a, b, c], ∀ z ∈ [a, b, c],
      ¬ Crosses first group last x y z)
    (hle : (grouped first group last a b).isLE = true)
    (hle' : (grouped first group last b c).isLE = true) :
    (grouped first group last a c).isLE = true := by
  have hba : first b a = .eq := OrientedCmp.eq_symm hab
  have hcb : first c b = .eq := OrientedCmp.eq_symm hbc
  have hac : first a c = .eq := TransCmp.eq_trans hab hbc
  have hca : first c a = .eq := OrientedCmp.eq_symm hac
  by_cases htab : Together group a b
  · by_cases htbc : Together group b c
    · -- All three are ranked in one group.
      obtain ⟨g, r, s, ha, hb⟩ := htab
      obtain ⟨g', s', t, hb', hc⟩ := htbc
      rw [hb, Option.some.injEq, Prod.mk.injEq] at hb'
      obtain ⟨rfl, rfl⟩ := hb'
      rw [grouped_together ha hb, hab, Ordering.eq_then, Ordering.isLE_then_iff_or] at hle
      rw [grouped_together hb hc, hbc, Ordering.eq_then, Ordering.isLE_then_iff_or] at hle'
      rw [grouped_together ha hc, hac, Ordering.eq_then, Ordering.isLE_then_iff_or]
      rcases hle with hrs | ⟨hrs, hlast⟩
      · rcases hle' with hst | ⟨hst, _⟩
        · exact Or.inl (TransCmp.lt_trans hrs hst)
        · exact Or.inl (TransCmp.lt_of_lt_of_eq hrs hst)
      · rcases hle' with hst | ⟨hst, hlast'⟩
        · exact Or.inl (TransCmp.lt_of_eq_of_lt hrs hst)
        · exact Or.inr ⟨TransCmp.eq_trans hrs hst, TransCmp.isLE_trans hlast hlast'⟩
    · -- Only `a` and `b` are in one group; `c` must not stand between them.
      have htac : ¬ Together group a c := fun h => htbc (htab.symm.trans h)
      obtain ⟨g, r, s, ha, hb⟩ := htab
      rw [grouped_together ha hb, hab, Ordering.eq_then, Ordering.isLE_then_iff_or] at hle
      rw [grouped_apart htbc, hbc, Ordering.eq_then] at hle'
      rw [grouped_apart htac, hac, Ordering.eq_then]
      by_contra hnot
      have hlt : last c a = .lt := not_isLE hnot
      have hback : last b a = .lt := TransCmp.lt_of_isLE_of_lt hle' hlt
      have hrank : compare r s = .lt := by
        cases hle with
        | inl hrs => exact hrs
        | inr hboth => exact absurd hboth.2 (OrientedCmp.not_isLE_of_lt hback)
      exact hcross a (by simp) c (by simp) b (by simp)
        ⟨hac, hcb, ⟨g, r, s, ha, hb, hrank⟩, htac, hle', Ordering.isLE_of_eq_lt hlt⟩
  · by_cases htbc : Together group b c
    · have htba : ¬ Together group b a := fun h => htab h.symm
      have htac : ¬ Together group a c := fun h => htab (h.trans htbc.symm)
      obtain ⟨g, s, t, hb, hc⟩ := htbc
      rw [grouped_apart htab, hab, Ordering.eq_then] at hle
      rw [grouped_together hb hc, hbc, Ordering.eq_then, Ordering.isLE_then_iff_or] at hle'
      rw [grouped_apart htac, hac, Ordering.eq_then]
      by_contra hnot
      have hlt : last c a = .lt := not_isLE hnot
      have hback : last c b = .lt := TransCmp.lt_of_lt_of_isLE hlt hle
      have hrank : compare s t = .lt := by
        cases hle' with
        | inl hst => exact hst
        | inr hboth => exact absurd hboth.2 (OrientedCmp.not_isLE_of_lt hback)
      exact hcross b (by simp) a (by simp) c (by simp)
        ⟨hba, hac, ⟨g, s, t, hb, hc, hrank⟩, htba, Ordering.isLE_of_eq_lt hlt, hle⟩
    · have htcb : ¬ Together group c b := fun h => htbc h.symm
      rw [grouped_apart htab, hab, Ordering.eq_then] at hle
      rw [grouped_apart htbc, hbc, Ordering.eq_then] at hle'
      have hlast : (last a c).isLE = true := TransCmp.isLE_trans hle hle'
      by_cases htac : Together group a c
      · obtain ⟨g, r, t, ha, hc⟩ := htac
        rw [grouped_together ha hc, hac, Ordering.eq_then]
        by_contra hnot
        have hrank : compare t r = .lt := by
          apply not_isLE
          intro hrt
          apply hnot
          rw [Ordering.isLE_then_iff_and]
          exact ⟨hrt, Or.inr hlast⟩
        exact hcross c (by simp) b (by simp) a (by simp)
          ⟨hcb, hba, ⟨g, t, r, hc, ha, hrank⟩, htcb, hle, hle'⟩
      · rw [grouped_apart htac, hac, Ordering.eq_then]
        exact hlast

/-- The comparison orders the items exactly when no three of them cross. -/
theorem grouped_totalPreorderOn_iff (items : α → Prop) :
    TotalPreorderOn (grouped first group last) items ↔
      ∀ x y z, items x → items y → items z → ¬ Crosses first group last x y z := by
  constructor
  · rintro h x y z hx hy hz ⟨hxy, hyz, ⟨g, r, s, hgx, hgz, hrank⟩, hapart, hzy, hyx⟩
    have hzyOrder : (grouped first group last z y).isLE = true := by
      rw [grouped_apart, OrientedCmp.eq_symm hyz, Ordering.eq_then]
      · exact hzy
      · exact fun htogether => hapart (Together.trans ⟨g, r, s, hgx, hgz⟩ htogether)
    have hyxOrder : (grouped first group last y x).isLE = true := by
      rw [grouped_apart fun htogether => hapart htogether.symm, OrientedCmp.eq_symm hxy,
        Ordering.eq_then]
      exact hyx
    have hzx := h.trans z y x hz hy hx hzyOrder hyxOrder
    rw [grouped_together hgz hgx, OrientedCmp.eq_symm (TransCmp.eq_trans hxy hyz),
      Ordering.eq_then, Ordering.isLE_then_iff_and] at hzx
    exact OrientedCmp.not_isLE_of_lt hrank hzx.1
  · intro hcross
    constructor
    · exact fun a b _ _ => grouped_swap a b
    · intro a b c ha hb hc hab hbc
      have hfirst := Ordering.isLE_left_of_isLE_then hab
      have hfirst' := Ordering.isLE_left_of_isLE_then hbc
      by_cases hlt : first a c = .lt
      · rw [grouped, hlt]
        rfl
      · have heq : first a b = .eq ∧ first b c = .eq := by
          cases hcmp : first a b with
          | gt => rw [hcmp] at hfirst; cases hfirst
          | lt => exact absurd (TransCmp.lt_of_lt_of_isLE hcmp hfirst') hlt
          | eq =>
              cases hcmp' : first b c with
              | gt => rw [hcmp'] at hfirst'; cases hfirst'
              | lt => exact absurd (TransCmp.lt_of_eq_of_lt hcmp hcmp') hlt
              | eq => exact ⟨rfl, rfl⟩
        apply grouped_trans_of_first_eq heq.1 heq.2 _ hab hbc
        intro x hx y hy z hz
        have hall : ∀ d ∈ [a, b, c], items d := by
          intro d hd
          simp only [List.mem_cons, List.not_mem_nil, or_false] at hd
          rcases hd with rfl | rfl | rfl
          · exact ha
          · exact hb
          · exact hc
        exact hcross x y z (hall x hx) (hall y hy) (hall z hz)

end Grouped

end Comparator
