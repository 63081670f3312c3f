/-
Ordered sets, as tables without values.
-/
import ChipTrace.Lib.OrdMap

universe u

/-- A set whose members are listed in their order. -/
abbrev OrdSet (K : Type u) [LinearOrder K] := Table K Unit

namespace OrdSet

variable {K : Type u} [LinearOrder K]

def add (set : OrdSet K) (k : K) : OrdSet K := set.insert k ()

def addAll (set : OrdSet K) (ks : List K) : OrdSet K := ks.foldl add set

def ofList (ks : List K) : OrdSet K := addAll Table.empty ks

theorem mem_keys_add {set : OrdSet K} {k k' : K} :
    k' ∈ (set.add k).keys ↔ k' = k ∨ k' ∈ set.keys := by
  rw [Table.mem_keys, Table.mem_keys, add, Table.get?_insert]
  split_ifs with h
  · simp [h]
  · simp [h]

theorem mem_keys_addAll {set : OrdSet K} {ks : List K} {k : K} :
    k ∈ (set.addAll ks).keys ↔ k ∈ ks ∨ k ∈ set.keys := by
  induction ks generalizing set with
  | nil => simp [addAll]
  | cons head rest ih =>
      rw [addAll, List.foldl_cons, ← addAll, ih, mem_keys_add, List.mem_cons]
      tauto

theorem mem_keys_ofList {ks : List K} {k : K} : k ∈ (ofList ks).keys ↔ k ∈ ks := by
  rw [ofList, mem_keys_addAll]
  simp [Table.keys, Table.empty]

theorem eq_empty_iff {set : OrdSet K} : set = Table.empty ↔ ∀ k, k ∉ set.keys := by
  constructor
  · intro h k
    rw [h]
    exact List.not_mem_nil
  · intro h
    apply Table.ext_get?
    intro k
    have hk := h k
    rw [Table.mem_keys] at hk
    cases hget : set.get? k with
    | none => rw [Table.get?_empty]
    | some v => exact absurd ⟨v, hget⟩ hk

theorem add_ne_empty (set : OrdSet K) (k : K) : set.add k ≠ Table.empty := by
  intro h
  exact eq_empty_iff.mp h k (mem_keys_add.mpr (Or.inl rfl))

theorem addAll_eq_empty_iff {set : OrdSet K} {ks : List K} :
    set.addAll ks = Table.empty ↔ set = Table.empty ∧ ks = [] := by
  rw [eq_empty_iff, eq_empty_iff, List.eq_nil_iff_forall_not_mem, ← forall_and]
  apply forall_congr'
  intro k
  rw [mem_keys_addAll]
  tauto

theorem nodup_keys (set : OrdSet K) : set.keys.Nodup := set.sorted.nodup

/-- A set with at most one member is made of equal ones. -/
theorem len_ofList_le_one_iff {ks : List K} :
    (ofList ks).len ≤ 1 ↔ ∀ k ∈ ks, ∀ k' ∈ ks, k = k' := by
  have hlength : (ofList ks).len = (ofList ks).keys.length := by
    rw [Table.len, Table.keys, List.length_map]
  rw [hlength]
  constructor
  · intro hle k hk k' hk'
    have hmem := mem_keys_ofList.mpr hk
    have hmem' := mem_keys_ofList.mpr hk'
    rcases hkeys : (ofList ks).keys with _ | ⟨only, _ | ⟨second, rest⟩⟩
    · rw [hkeys] at hmem
      cases hmem
    · rw [hkeys, List.mem_singleton] at hmem hmem'
      rw [hmem, hmem']
    · rw [hkeys] at hle
      simp at hle
  · intro hall
    have hequal : ∀ k ∈ (ofList ks).keys, ∀ k' ∈ (ofList ks).keys, k = k' :=
      fun k hk k' hk' => hall k (mem_keys_ofList.mp hk) k' (mem_keys_ofList.mp hk')
    have hnodup := nodup_keys (ofList ks)
    rcases hkeys : (ofList ks).keys with _ | ⟨first, _ | ⟨second, rest⟩⟩
    · simp
    · simp
    · rw [hkeys] at hequal hnodup
      have heq := hequal first List.mem_cons_self second (by simp)
      rw [heq] at hnodup
      simp at hnodup

end OrdSet
