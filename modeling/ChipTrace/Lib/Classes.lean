/-
Lists of classes: every index below a size is in exactly one of them, and two indices are in
one exactly when they are connected.  A sum over such a list depends on the connection alone,
and it stays the same when the indices are renamed.
-/
import ChipTrace.Lib.UnionFind
import Mathlib.Algebra.BigOperators.Group.Finset.Basic
import Mathlib.Algebra.GroupWithZero.Nat
import Mathlib.Data.Finset.Image
import Mathlib.Logic.Equiv.Basic

universe u

/-- The classes of the indices below a size under a relation. -/
structure Components (size : Nat) (related : Nat → Nat → Prop)
    (components : List (List Nat)) : Prop where
  perm : components.flatten.Perm (List.range size)
  filled : ∀ members ∈ components, members ≠ []
  connected : ∀ members ∈ components, ∀ i ∈ members, ∀ j < size,
    j ∈ members ↔ Relation.EqvGen related i j

namespace Forest

/-- A group has a root and all indices of that root. -/
theorem mem_group (forest : Forest) (size root : Nat) (members : List Nat) :
    (root, members) ∈ (forest.group Table.empty (List.range size)).entries ↔
      members = (List.range size).filter (fun index => forest.root index = root) ∧
        members ≠ [] := by
  have hvalues : valuesOf root ((List.range size).map fun index => (forest.root index, index)) =
      (List.range size).filter fun index => forest.root index = root := by
    rw [valuesOf, List.filterMap_map, ← List.filterMap_eq_filter]
    apply List.filterMap_congr
    intro index _
    simp [Option.guard]
  rw [Table.mem_entries, group_eq, Table.get?_pushAll_empty, hvalues]
  split_ifs with hnil
  · simp only [false_iff, not_and, not_not]
    exact fun h => h.trans hnil
  · rw [Option.some.injEq]
    constructor
    · exact fun h => ⟨h.symm, h ▸ hnil⟩
    · exact fun h => h.1.symm

/-- The groups of all indices are the classes of having one root. -/
theorem components_group (forest : Forest) (size : Nat) (related : Nat → Nat → Prop)
    (hrelated : ∀ i j, forest.Same i j ↔ Relation.EqvGen related i j) :
    Components size related
      ((forest.group Table.empty (List.range size)).entries.map Prod.snd) := by
  have hmembers : ∀ members ∈ (forest.group Table.empty (List.range size)).entries.map Prod.snd,
      ∃ root, members = (List.range size).filter (fun index => forest.root index = root) ∧
        members ≠ [] := by
    intro members hmem
    obtain ⟨entry, hentry, rfl⟩ := List.mem_map.mp hmem
    exact ⟨entry.1, (forest.mem_group size entry.1 entry.2).mp hentry⟩
  refine ⟨?_, ?_, ?_⟩
  · apply (List.perm_ext_iff_of_nodup ?_ List.nodup_range).mpr
    · intro index
      rw [List.mem_flatten, List.mem_range]
      constructor
      · rintro ⟨members, hmem, hindex⟩
        obtain ⟨root, rfl, _⟩ := hmembers members hmem
        exact List.mem_range.mp (List.mem_of_mem_filter hindex)
      · intro hlt
        have hself : index ∈ (List.range size).filter fun i => forest.root i = forest.root index :=
          List.mem_filter.mpr ⟨List.mem_range.mpr hlt, by simp⟩
        refine ⟨_, List.mem_map_of_mem ((forest.mem_group size (forest.root index) _).mpr
          ⟨rfl, List.ne_nil_of_mem hself⟩), hself⟩
    · rw [List.nodup_flatten]
      constructor
      · intro members hmem
        obtain ⟨root, rfl, _⟩ := hmembers members hmem
        exact List.nodup_range.filter _
      · rw [List.pairwise_map]
        have hsorted := (forest.group Table.empty (List.range size)).sorted
        refine hsorted.imp_of_mem ?_
        intro left right hleft hright hlt index hindex hindex'
        rw [((forest.mem_group size _ _).mp hleft).1, List.mem_filter, decide_eq_true_iff]
          at hindex
        rw [((forest.mem_group size _ _).mp hright).1, List.mem_filter, decide_eq_true_iff]
          at hindex'
        exact absurd (hindex.2.symm.trans hindex'.2) hlt.ne
  · intro members hmem
    exact (hmembers members hmem).choose_spec.2
  · intro members hmem i hi j hj
    obtain ⟨root, rfl, _⟩ := hmembers members hmem
    rw [List.mem_filter, decide_eq_true_iff] at hi
    rw [← hrelated, List.mem_filter, decide_eq_true_iff, List.mem_range, Same, hi.2]
    constructor
    · exact fun h => h.2.symm
    · exact fun h => ⟨hj, h.symm⟩

end Forest

section Renaming

variable {size : Nat} {related other : Nat → Nat → Prop} {components renamed : List (List Nat)}

open Classical in
/-- The class of an index. -/
noncomputable def classOf (size : Nat) (related : Nat → Nat → Prop) (i : Nat) : Finset Nat :=
  (Finset.range size).filter fun j => Relation.EqvGen related i j

theorem mem_classOf {i j : Nat} :
    j ∈ classOf size related i ↔ j < size ∧ Relation.EqvGen related i j := by
  simp [classOf]

open Classical in
noncomputable def classes (size : Nat) (related : Nat → Nat → Prop) : Finset (Finset Nat) :=
  (Finset.range size).image (classOf size related)

theorem Components.lt (h : Components size related components) {members : List Nat}
    (hmembers : members ∈ components) {i : Nat} (hi : i ∈ members) : i < size :=
  List.mem_range.mp (h.perm.mem_iff.mp (List.mem_flatten.mpr ⟨members, hmembers, hi⟩))

theorem Components.toFinset_eq (h : Components size related components) {members : List Nat}
    (hmembers : members ∈ components) {i : Nat} (hi : i ∈ members) :
    members.toFinset = classOf size related i := by
  ext j
  rw [List.mem_toFinset, mem_classOf]
  constructor
  · intro hj
    have hlt := h.lt hmembers hj
    exact ⟨hlt, (h.connected members hmembers i hi j hlt).mp hj⟩
  · rintro ⟨hlt, hrel⟩
    exact (h.connected members hmembers i hi j hlt).mpr hrel

/-- A sum over the components is one over the classes. -/
theorem Components.sum_eq (h : Components size related components) (weight : Finset Nat → Nat) :
    (components.map fun members => weight members.toFinset).sum =
      ∑ members ∈ classes size related, weight members := by
  have hnodup : components.flatten.Nodup := h.perm.nodup_iff.mpr List.nodup_range
  have hdistinct : (components.map List.toFinset).Nodup := by
    rw [List.nodup_flatten] at hnodup
    rw [List.Nodup, List.pairwise_map]
    refine hnodup.2.imp_of_mem ?_
    intro left right hleft _ hdisjoint heq
    obtain ⟨i, hi⟩ := List.exists_mem_of_ne_nil left (h.filled left hleft)
    have hright : i ∈ right := by
      rw [← List.mem_toFinset, ← heq, List.mem_toFinset]
      exact hi
    exact hdisjoint hi hright
  have himage : (components.map List.toFinset).toFinset = classes size related := by
    ext members
    rw [List.mem_toFinset, List.mem_map, classes, Finset.mem_image]
    constructor
    · rintro ⟨component, hcomponent, rfl⟩
      obtain ⟨i, hi⟩ := List.exists_mem_of_ne_nil component (h.filled component hcomponent)
      exact ⟨i, Finset.mem_range.mpr (h.lt hcomponent hi),
        (h.toFinset_eq hcomponent hi).symm⟩
    · rintro ⟨i, hi, rfl⟩
      obtain ⟨component, hcomponent, hmem⟩ := List.mem_flatten.mp
        (h.perm.mem_iff.mpr (List.mem_range.mpr (Finset.mem_range.mp hi)))
      exact ⟨component, hcomponent, h.toFinset_eq hcomponent hmem⟩
  rw [← himage, List.sum_toFinset weight hdistinct, List.map_map]
  rfl

theorem eqvGen_rename {rename : Equiv.Perm Nat}
    (hrename : ∀ i j, related i j → other (rename i) (rename j)) {i j : Nat}
    (h : Relation.EqvGen related i j) : Relation.EqvGen other (rename i) (rename j) := by
  induction h with
  | rel a b hab => exact Relation.EqvGen.rel _ _ (hrename a b hab)
  | refl a => exact Relation.EqvGen.refl _
  | symm a b _ ih => exact ih.symm
  | trans a b c _ _ ih ih' => exact ih.trans _ _ _ ih'

theorem eqvGen_rename_iff {rename : Equiv.Perm Nat}
    (hrename : ∀ i j, related i j ↔ other (rename i) (rename j)) (i j : Nat) :
    Relation.EqvGen related i j ↔ Relation.EqvGen other (rename i) (rename j) := by
  constructor
  · exact eqvGen_rename fun a b => (hrename a b).mp
  · intro h
    have hback : Relation.EqvGen related (rename.symm (rename i)) (rename.symm (rename j)) := by
      apply eqvGen_rename (fun a b hab => ?_) h
      apply (hrename _ _).mpr
      rwa [Equiv.apply_symm_apply, Equiv.apply_symm_apply]
    rwa [Equiv.symm_apply_apply, Equiv.symm_apply_apply] at hback

/-- Renaming the indices renames the classes. -/
theorem classes_rename {rename : Equiv.Perm Nat}
    (hrename : ∀ i j, related i j ↔ other (rename i) (rename j))
    (hsize : ∀ i, i < size ↔ rename i < size) :
    classes size other = (classes size related).image (Finset.image rename) := by
  have hclass : ∀ i, classOf size other (rename i) =
      (classOf size related i).image rename := by
    intro i
    ext j
    rw [Finset.mem_image, mem_classOf]
    constructor
    · rintro ⟨hj, hrel⟩
      refine ⟨rename.symm j, ?_, rename.apply_symm_apply j⟩
      rw [mem_classOf, hsize, eqvGen_rename_iff hrename, rename.apply_symm_apply]
      exact ⟨hj, hrel⟩
    · rintro ⟨a, ha, rfl⟩
      rw [mem_classOf, hsize, eqvGen_rename_iff hrename] at ha
      exact ha
  have hrange : (Finset.range size).image rename = Finset.range size := by
    ext j
    rw [Finset.mem_image]
    constructor
    · rintro ⟨i, hi, rfl⟩
      exact Finset.mem_range.mpr ((hsize i).mp (Finset.mem_range.mp hi))
    · intro hj
      refine ⟨rename.symm j, ?_, rename.apply_symm_apply j⟩
      rw [Finset.mem_range, hsize, rename.apply_symm_apply]
      exact Finset.mem_range.mp hj
  calc classes size other
      = ((Finset.range size).image rename).image (classOf size other) := by rw [hrange, classes]
    _ = (classes size related).image (Finset.image rename) := by
        rw [Finset.image_image, classes, Finset.image_image]
        exact Finset.image_congr fun i _ => hclass i

/-- A sum over renamed classes is the same when the weights are. -/
theorem sum_classes_rename {rename : Equiv.Perm Nat}
    (hrename : ∀ i j, related i j ↔ other (rename i) (rename j))
    (hsize : ∀ i, i < size ↔ rename i < size) {weight weight' : Finset Nat → Nat}
    (hweight : ∀ members, weight' (members.image rename) = weight members) :
    ∑ members ∈ classes size other, weight' members =
      ∑ members ∈ classes size related, weight members := by
  rw [classes_rename hrename hsize, Finset.sum_image]
  · exact Finset.sum_congr rfl fun members _ => hweight members
  · exact (Finset.image_injective rename.injective).injOn

/-- Lists that are permutations of each other have the same items at renamed places. -/
theorem exists_rename_of_perm {α : Type u} {left right : List α} (h : left.Perm right) :
    ∃ rename : Equiv.Perm Nat, ∀ i, right[rename i]? = left[i]? := by
  induction h with
  | nil => exact ⟨Equiv.refl Nat, fun i => rfl⟩
  | @cons x left right _ ih =>
      obtain ⟨rename, hrename⟩ := ih
      refine ⟨⟨fun i => Nat.casesOn i 0 fun i => rename i + 1,
        fun i => Nat.casesOn i 0 fun i => rename.symm i + 1, ?_, ?_⟩, ?_⟩
      · intro i
        cases i with
        | zero => rfl
        | succ i => simp
      · intro i
        cases i with
        | zero => rfl
        | succ i => simp
      · intro i
        cases i with
        | zero => rfl
        | succ i => simpa using hrename i
  | swap x y rest =>
      refine ⟨Equiv.swap 0 1, ?_⟩
      intro i
      rcases i with _ | _ | i
      · simp
      · simp
      · rw [Equiv.swap_apply_of_ne_of_ne (by omega) (by omega)]
        simp
  | trans _ _ ih ih' =>
      obtain ⟨first, hfirst⟩ := ih
      obtain ⟨second, hsecond⟩ := ih'
      exact ⟨first.trans second, fun i => (hsecond (first i)).trans (hfirst i)⟩

end Renaming
