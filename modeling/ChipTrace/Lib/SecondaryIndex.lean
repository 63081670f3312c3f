/-
A secondary index over a table: rows that have an index key are listed under
it.  One rule keeps the index exact when a row is written.
-/
import ChipTrace.Lib.OrdMap

universe u v w x

variable {K : Type u} {V : Type v} {I : Type w} [LinearOrder K] [LinearOrder I]

/-- The index lists exactly the rows that have an index key. -/
def IndexOf (key : K → V → Option I) (table : Table K V) (index : Table I K) : Prop :=
  ∀ i k, index.get? i = some k ↔ ∃ v, table.get? k = some v ∧ key k v = some i

/-- No two rows share an index key. -/
def SeparatesRows (key : K → V → Option I) : Prop :=
  ∀ k k' v v' i, key k v = some i → key k' v' = some i → k = k'

/-- Drop an optional index key. -/
def Table.removeKey? (index : Table I K) : Option I → Table I K
  | none => index
  | some i => index.remove i

/-- List a row under an optional index key. -/
def Table.insertKey? (index : Table I K) (k : K) : Option I → Table I K
  | none => index
  | some i => index.insert i k

theorem IndexOf.empty (key : K → V → Option I) :
    IndexOf key (Table.empty : Table K V) (Table.empty : Table I K) := by
  intro i k
  simp

/-- Two exact indexes of one table are equal. -/
theorem IndexOf.unique {key : K → V → Option I} {table : Table K V}
    {left right : Table I K} (hleft : IndexOf key table left)
    (hright : IndexOf key table right) : left = right := by
  apply Table.ext_get?
  intro i
  apply Option.ext
  intro k
  exact (hleft i k).trans (hright i k).symm

/-- An exact index has as many rows as the table has rows with an index key. -/
theorem IndexOf.len {key : K → V → Option I} {table : Table K V} {index : Table I K}
    (h : IndexOf key table index) :
    index.len = table.weigh fun k v => if (key k v).isSome then 1 else 0 := by
  have hindex : (index.entries.map Prod.snd).Nodup := by
    rw [List.Nodup, List.pairwise_map]
    apply index.sorted.imp_of_mem
    rintro ⟨i, k⟩ ⟨i', k'⟩ hi hi' hlt hsame
    change k = k' at hsame
    subst hsame
    obtain ⟨v, hv, hkey⟩ := (h i k).mp ((index.mem_entries i k).mp hi)
    obtain ⟨v', hv', hkey'⟩ := (h i' k).mp ((index.mem_entries i' k).mp hi')
    rw [hv] at hv'
    cases hv'
    rw [hkey] at hkey'
    exact absurd (Option.some.inj hkey') (ne_of_lt hlt)
  have htable : ((table.entries.filter fun row => (key row.1 row.2).isSome).map
      Prod.fst).Nodup :=
    table.sorted.nodup.sublist (List.filter_sublist.map Prod.fst)
  have hperm : (index.entries.map Prod.snd).Perm
      ((table.entries.filter fun row => (key row.1 row.2).isSome).map Prod.fst) := by
    apply (List.perm_ext_iff_of_nodup hindex htable).mpr
    intro k
    rw [List.mem_map, List.mem_map]
    constructor
    · rintro ⟨⟨i, k'⟩, hrow, rfl⟩
      obtain ⟨v, hv, hkey⟩ := (h i k').mp ((index.mem_entries i k').mp hrow)
      refine ⟨(k', v), List.mem_filter.mpr ⟨(table.mem_entries k' v).mpr hv, ?_⟩, rfl⟩
      exact Option.isSome_iff_exists.mpr ⟨i, hkey⟩
    · rintro ⟨⟨k', v⟩, hrow, rfl⟩
      obtain ⟨hrow, hsome⟩ := List.mem_filter.mp hrow
      obtain ⟨i, hkey⟩ := Option.isSome_iff_exists.mp hsome
      have hget := (h i k').mpr ⟨v, (table.mem_entries k' v).mp hrow, hkey⟩
      exact ⟨(i, k'), (index.mem_entries i k').mpr hget, rfl⟩
  have hlength := hperm.length_eq
  rw [List.length_map, List.length_map, ← List.countP_eq_length_filter] at hlength
  rw [Table.len, hlength, Table.weigh, OrdMap.weigh]
  induction table.entries with
  | nil => rfl
  | cons row rest ih =>
      rw [List.countP_cons, ih, List.map_cons, List.sum_cons, Nat.add_comm]

/-- An index of one table is an index of another whose rows have the same keys. -/
theorem IndexOf.congr {W : Type x} {key : K → V → Option I} {left right : Table K V}
    {index : Table I K} {f : V → W} {key' : K → W → Option I} (h : IndexOf key left index)
    (hsame : ∀ k, (left.get? k).map f = (right.get? k).map f)
    (hkey : ∀ k v, key k v = key' k (f v)) : IndexOf key right index := by
  have hmap : ∀ (table : Table K V) i k, (∃ v, table.get? k = some v ∧ key k v = some i) ↔
      ∃ w, (table.get? k).map f = some w ∧ key' k w = some i := by
    intro table i k
    constructor
    · rintro ⟨v, hv, hi⟩
      exact ⟨f v, by rw [hv]; rfl, by rw [← hkey, hi]⟩
    · rintro ⟨w, hw, hi⟩
      obtain ⟨v, hv, rfl⟩ := Option.map_eq_some_iff.mp hw
      exact ⟨v, hv, by rw [hkey, hi]⟩
  intro i k
  rw [h i k, hmap, hsame, ← hmap]

/-- Writing a row keeps the index exact when the old key of the row is removed
and the new one inserted. -/
theorem IndexOf.write {key : K → V → Option I} (hseparates : SeparatesRows key)
    {table : Table K V} {index : Table I K} (hindex : IndexOf key table index)
    (k : K) (v : V) :
    IndexOf key (table.insert k v)
      ((index.removeKey? ((table.get? k).bind (key k))).insertKey? k (key k v)) := by
  -- after the removal the index lists the rows other than `k`
  have hremoved : ∀ i k', (index.removeKey? ((table.get? k).bind (key k))).get? i =
      some k' ↔ k' ≠ k ∧ ∃ v', table.get? k' = some v' ∧ key k' v' = some i := by
    intro i k'
    cases hold : (table.get? k).bind (key k) with
    | none =>
        rw [Table.removeKey?, hindex i k']
        constructor
        · rintro ⟨v', hv', hkey⟩
          refine ⟨?_, v', hv', hkey⟩
          rintro rfl
          simp [hv', hkey] at hold
        · exact fun h => h.2
    | some old =>
        obtain ⟨v₀, hv₀, hkey₀⟩ := Option.bind_eq_some_iff.mp hold
        rw [Table.removeKey?, Table.get?_remove]
        split_ifs with hi
        · simp only [false_iff, not_and, not_exists]
          intro hne v' _ hkey
          exact hne (hseparates k' k v' v₀ i hkey (hi ▸ hkey₀))
        · rw [hindex i k']
          constructor
          · rintro ⟨v', hv', hkey⟩
            refine ⟨?_, v', hv', hkey⟩
            rintro rfl
            rw [hv₀, Option.some.injEq] at hv'
            subst hv'
            rw [hkey₀, Option.some.injEq] at hkey
            exact hi hkey.symm
          · exact fun h => h.2
  intro i k'
  cases hnew : key k v with
  | none =>
      rw [Table.insertKey?, hremoved i k']
      constructor
      · rintro ⟨hne, v', hv', hkey⟩
        exact ⟨v', by rw [Table.get?_insert_of_ne _ hne]; exact hv', hkey⟩
      · rintro ⟨v', hv', hkey⟩
        rw [Table.get?_insert] at hv'
        split_ifs at hv' with hk
        · subst hk
          rw [Option.some.injEq] at hv'
          subst hv'
          simp [hnew] at hkey
        · exact ⟨hk, v', hv', hkey⟩
  | some j =>
      rw [Table.insertKey?, Table.get?_insert]
      split_ifs with hi
      · subst hi
        constructor
        · intro heq
          rw [Option.some.injEq] at heq
          subst heq
          exact ⟨v, Table.get?_insert_self _ _ _, hnew⟩
        · rintro ⟨v', _, hkey⟩
          rw [hseparates k' k v' v i hkey hnew]
      · rw [hremoved i k']
        constructor
        · rintro ⟨hne, v', hv', hkey⟩
          exact ⟨v', by rw [Table.get?_insert_of_ne _ hne]; exact hv', hkey⟩
        · rintro ⟨v', hv', hkey⟩
          rw [Table.get?_insert] at hv'
          split_ifs at hv' with hk
          · subst hk
            rw [Option.some.injEq] at hv'
            subst hv'
            rw [hnew, Option.some.injEq] at hkey
            exact absurd hkey.symm hi
          · exact ⟨hk, v', hv', hkey⟩

/-- Rewriting a row under an unchanged index key changes no index entry. -/
theorem IndexOf.write_same {key : K → V → Option I} {table : Table K V}
    {index : Table I K} (hindex : IndexOf key table index) {k : K} {old v : V}
    (hold : table.get? k = some old) (hsame : key k v = key k old) :
    (index.removeKey? ((table.get? k).bind (key k))).insertKey? k (key k v) = index := by
  rw [hold, Option.bind_some, hsame]
  cases hkey : key k old with
  | none => rfl
  | some i =>
      have hlisted := (hindex i k).mpr ⟨old, hold, hkey⟩
      apply Table.ext_get?
      intro i'
      rw [Table.removeKey?, Table.insertKey?, Table.get?_insert, Table.get?_remove]
      split_ifs with hi
      · rw [hi, hlisted]
      · rfl
