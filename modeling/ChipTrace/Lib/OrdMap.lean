/-
Finite maps as key-sorted entry lists, and the table type that carries the
order as a field.  The entry-list functions are kept separate because a nested
inductive type can only store the bare list.
-/
import Mathlib.Algebra.GroupWithZero.Nat
import Mathlib.Data.List.Nodup
import Mathlib.Order.Lattice

universe u v w x

variable {K : Type u} {V : Type v} [LinearOrder K]

namespace OrdMap

/-- The value stored under a key. -/
def lookup (k : K) : List (K × V) → Option V
  | [] => none
  | (k', v) :: rest => if k = k' then some v else lookup k rest

/-- Sorted insertion, replacing the entry that has the same key. -/
def insert (k : K) (v : V) : List (K × V) → List (K × V)
  | [] => [(k, v)]
  | (k', v') :: rest =>
      if k < k' then (k, v) :: (k', v') :: rest
      else if k = k' then (k, v) :: rest
      else (k', v') :: insert k v rest

/-- Drop the entry of a key. -/
def erase (k : K) : List (K × V) → List (K × V)
  | [] => []
  | (k', v') :: rest => if k = k' then rest else (k', v') :: erase k rest

/-- Keys strictly increase, so every key occurs once. -/
def Sorted (entries : List (K × V)) : Prop :=
  entries.Pairwise fun left right => left.1 < right.1

theorem sorted_nil : Sorted ([] : List (K × V)) := List.Pairwise.nil

theorem mem_insert {k : K} {v : V} {entries : List (K × V)} {entry : K × V}
    (hentry : entry ∈ insert k v entries) : entry = (k, v) ∨ entry ∈ entries := by
  induction entries with
  | nil => simpa [insert] using hentry
  | cons head rest ih =>
      obtain ⟨k', v'⟩ := head
      rw [insert] at hentry
      split_ifs at hentry with hlt heq
      · simpa using hentry
      · rcases List.mem_cons.mp hentry with hnew | hrest
        · exact Or.inl hnew
        · exact Or.inr (List.mem_cons_of_mem _ hrest)
      · rcases List.mem_cons.mp hentry with hold | hrest
        · exact Or.inr (hold ▸ List.mem_cons_self)
        · exact (ih hrest).imp_right (List.mem_cons_of_mem _)

theorem mem_erase {k : K} {entries : List (K × V)} {entry : K × V}
    (hentry : entry ∈ erase k entries) : entry ∈ entries := by
  induction entries with
  | nil => exact hentry
  | cons head rest ih =>
      obtain ⟨k', v'⟩ := head
      rw [erase] at hentry
      split_ifs at hentry with heq
      · exact List.mem_cons_of_mem _ hentry
      · rcases List.mem_cons.mp hentry with hold | hrest
        · exact hold ▸ List.mem_cons_self
        · exact List.mem_cons_of_mem _ (ih hrest)

theorem sorted_insert {entries : List (K × V)} (k : K) (v : V)
    (hsorted : Sorted entries) : Sorted (insert k v entries) := by
  induction entries with
  | nil => simp [insert, Sorted]
  | cons head rest ih =>
      obtain ⟨k', v'⟩ := head
      obtain ⟨hhead, hrest⟩ := List.pairwise_cons.mp hsorted
      rw [insert]
      split_ifs with hlt heq
      · refine List.pairwise_cons.mpr ⟨?_, hsorted⟩
        intro entry hentry
        rcases List.mem_cons.mp hentry with rfl | hentry
        · exact hlt
        · exact lt_trans hlt (hhead entry hentry)
      · subst heq
        exact List.pairwise_cons.mpr ⟨hhead, hrest⟩
      · refine List.pairwise_cons.mpr ⟨?_, ih hrest⟩
        intro entry hentry
        rcases mem_insert hentry with rfl | hentry
        · exact lt_of_le_of_ne (not_lt.mp hlt) (Ne.symm heq)
        · exact hhead entry hentry

theorem sorted_erase {entries : List (K × V)} (k : K)
    (hsorted : Sorted entries) : Sorted (erase k entries) := by
  induction entries with
  | nil => exact hsorted
  | cons head rest ih =>
      obtain ⟨k', v'⟩ := head
      obtain ⟨hhead, hrest⟩ := List.pairwise_cons.mp hsorted
      rw [erase]
      split_ifs with heq
      · exact hrest
      · exact List.pairwise_cons.mpr
          ⟨fun entry hentry => hhead entry (mem_erase hentry), ih hrest⟩

@[simp] theorem lookup_nil (k : K) : lookup k ([] : List (K × V)) = none := rfl

@[simp] theorem lookup_insert_self (k : K) (v : V) (entries : List (K × V)) :
    lookup k (insert k v entries) = some v := by
  induction entries with
  | nil => simp [insert, lookup]
  | cons head rest ih =>
      obtain ⟨k', v'⟩ := head
      rw [insert]
      split_ifs with hlt heq
      · simp [lookup]
      · simp [lookup]
      · simp [lookup, heq, ih]

theorem lookup_insert_of_ne {k k' : K} (hne : k' ≠ k) (v : V)
    (entries : List (K × V)) :
    lookup k' (insert k v entries) = lookup k' entries := by
  induction entries with
  | nil => simp [insert, lookup, hne]
  | cons head rest ih =>
      obtain ⟨k'', v''⟩ := head
      rw [insert]
      split_ifs with hlt heq
      · simp [lookup, hne]
      · subst heq
        simp [lookup, hne]
      · by_cases hk : k' = k''
        · simp [lookup, hk]
        · simp [lookup, hk, ih]

theorem lookup_insert (k k' : K) (v : V) (entries : List (K × V)) :
    lookup k' (insert k v entries) = if k' = k then some v else lookup k' entries := by
  by_cases hk : k' = k
  · subst hk
    simp
  · rw [lookup_insert_of_ne hk, if_neg hk]

/-- Below the first key nothing is stored. -/
theorem lookup_eq_none_of_lt {k : K} {entries : List (K × V)}
    (hlt : ∀ entry ∈ entries, k < entry.1) : lookup k entries = none := by
  induction entries with
  | nil => rfl
  | cons head rest ih =>
      obtain ⟨k', v'⟩ := head
      have hhead : k < k' := hlt (k', v') List.mem_cons_self
      rw [lookup, if_neg (ne_of_lt hhead)]
      exact ih fun entry hentry => hlt entry (List.mem_cons_of_mem _ hentry)

theorem lookup_eq_none_of_not_mem {k : K} {entries : List (K × V)}
    (h : k ∉ entries.map Prod.fst) : lookup k entries = none := by
  induction entries with
  | nil => rfl
  | cons head rest ih =>
      rw [List.map_cons, List.mem_cons, not_or] at h
      rw [lookup, if_neg h.1]
      exact ih h.2

theorem lookup_erase_self {k : K} {entries : List (K × V)}
    (hsorted : Sorted entries) : lookup k (erase k entries) = none := by
  induction entries with
  | nil => rfl
  | cons head rest ih =>
      obtain ⟨k', v'⟩ := head
      obtain ⟨hhead, hrest⟩ := List.pairwise_cons.mp hsorted
      rw [erase]
      split_ifs with heq
      · subst heq
        exact lookup_eq_none_of_lt hhead
      · rw [lookup, if_neg heq]
        exact ih hrest

theorem lookup_erase_of_ne {k k' : K} (hne : k' ≠ k) (entries : List (K × V)) :
    lookup k' (erase k entries) = lookup k' entries := by
  induction entries with
  | nil => rfl
  | cons head rest ih =>
      obtain ⟨k'', v''⟩ := head
      rw [erase]
      split_ifs with heq
      · subst heq
        simp [lookup, hne]
      · by_cases hk : k' = k''
        · simp [lookup, hk]
        · simp [lookup, hk, ih]

/-- Where every key occurs once, the entries are the lookups. -/
theorem mem_iff_lookup_of_nodup {entries : List (K × V)} (hnodup : (entries.map Prod.fst).Nodup)
    {k : K} {v : V} : (k, v) ∈ entries ↔ lookup k entries = some v := by
  induction entries with
  | nil => simp
  | cons head rest ih =>
      obtain ⟨k', v'⟩ := head
      obtain ⟨hhead, hrest⟩ := List.nodup_cons.mp hnodup
      rw [List.mem_cons, lookup]
      split_ifs with hkey
      · subst hkey
        constructor
        · rintro (hsame | hmem)
          · rw [(Prod.mk.inj hsame).2]
          · exact absurd (List.mem_map.mpr ⟨(k, v), hmem, rfl⟩) hhead
        · intro hsame
          exact Or.inl (by rw [Option.some.inj hsame])
      · rw [← ih hrest]
        constructor
        · rintro (hsame | hmem)
          · exact absurd (Prod.mk.inj hsame).1 hkey
          · exact hmem
        · exact Or.inr

theorem lookup_eq_none_iff {k : K} {entries : List (K × V)} :
    lookup k entries = none ↔ k ∉ entries.map Prod.fst := by
  refine ⟨?_, lookup_eq_none_of_not_mem⟩
  induction entries with
  | nil => simp
  | cons head rest ih =>
      intro h
      rw [lookup] at h
      split_ifs at h with hkey
      rw [List.map_cons, List.mem_cons, not_or]
      exact ⟨hkey, ih h⟩

theorem lookup_map {W : Type w} (f : V → W) (k : K) (entries : List (K × V)) :
    lookup k (entries.map fun entry => (entry.1, f entry.2)) = (lookup k entries).map f := by
  induction entries with
  | nil => rfl
  | cons head rest ih =>
      rw [List.map_cons, lookup, lookup, ih]
      split_ifs <;> rfl

theorem mem_of_lookup {k : K} {v : V} {entries : List (K × V)} (h : lookup k entries = some v) :
    (k, v) ∈ entries := by
  induction entries with
  | nil => cases h
  | cons head rest ih =>
      rw [lookup] at h
      split_ifs at h with hkey
      · rw [hkey, ← Option.some.inj h]
        exact List.mem_cons_self
      · exact List.mem_cons_of_mem _ (ih h)

theorem lookup_append (k : K) (left right : List (K × V)) :
    lookup k (left ++ right) = (lookup k left).or (lookup k right) := by
  induction left with
  | nil => rfl
  | cons head rest ih =>
      rw [List.cons_append, lookup, lookup, ih]
      split_ifs <;> rfl

/-- Where every key occurs once, the order of the entries does not matter. -/
theorem lookup_reverse {entries : List (K × V)} (hnodup : (entries.map Prod.fst).Nodup) (k : K) :
    lookup k entries.reverse = lookup k entries := by
  have hreverse : (entries.reverse.map Prod.fst).Nodup := by
    rw [List.map_reverse]
    exact List.nodup_reverse.mpr hnodup
  refine Option.ext fun v => ?_
  rw [← mem_iff_lookup_of_nodup hreverse, ← mem_iff_lookup_of_nodup hnodup, List.mem_reverse]

theorem Sorted.nodup {entries : List (K × V)} (hsorted : Sorted entries) :
    (entries.map Prod.fst).Nodup :=
  List.pairwise_map.mpr (hsorted.imp fun hlt => ne_of_lt hlt)

/-- In a sorted list the entries are exactly the stored pairs. -/
theorem mem_iff_lookup {entries : List (K × V)} (hsorted : Sorted entries)
    (k : K) (v : V) : (k, v) ∈ entries ↔ lookup k entries = some v :=
  mem_iff_lookup_of_nodup hsorted.nodup

/-- Two sorted lists that store the same pairs are the same list. -/
theorem ext_of_sorted {left right : List (K × V)}
    (hleft : Sorted left) (hright : Sorted right)
    (hlookup : ∀ k, lookup k left = lookup k right) : left = right := by
  have hperm : left.Perm right := by
    refine (List.perm_ext_iff_of_nodup ?_ ?_).mpr ?_
    · exact hleft.imp fun hlt heq => (ne_of_lt hlt) (congrArg Prod.fst heq)
    · exact hright.imp fun hlt heq => (ne_of_lt hlt) (congrArg Prod.fst heq)
    · rintro ⟨k, v⟩
      rw [mem_iff_lookup hleft, mem_iff_lookup hright, hlookup]
  exact hperm.eq_of_pairwise
    (fun _ _ _ _ hab hba => absurd hba (lt_asymm hab)) hleft hright

/-- A sorted list is determined by the entries that it has and the keys that it lacks. -/
theorem eq_of_entries {left right : List (K × V)} (hleft : Sorted left) (hright : Sorted right)
    (hentries : ∀ entry ∈ right, lookup entry.1 left = some entry.2)
    (habsent : ∀ k, k ∉ right.map Prod.fst → lookup k left = none) : left = right := by
  refine ext_of_sorted hleft hright fun k => ?_
  by_cases hk : k ∈ right.map Prod.fst
  · obtain ⟨entry, hentry, rfl⟩ := List.mem_map.mp hk
    rw [hentries entry hentry, (mem_iff_lookup hright entry.1 entry.2).mp hentry]
  · rw [habsent k hk, lookup_eq_none_of_not_mem hk]

theorem insert_eq_self {k : K} {v : V} {entries : List (K × V)}
    (hsorted : Sorted entries) (hstored : lookup k entries = some v) :
    insert k v entries = entries := by
  apply ext_of_sorted (sorted_insert k v hsorted) hsorted
  intro k'
  rw [lookup_insert]
  split_ifs with hk
  · rw [hk, hstored]
  · rfl

theorem erase_eq_self {k : K} {entries : List (K × V)}
    (hstored : lookup k entries = none) : erase k entries = entries := by
  induction entries with
  | nil => rfl
  | cons head rest ih =>
      obtain ⟨k', v'⟩ := head
      by_cases hk : k = k'
      · simp [lookup, hk] at hstored
      · rw [lookup, if_neg hk] at hstored
        rw [erase, if_neg hk, ih hstored]

/-- Sum of a weight over all entries. -/
def weigh (weight : K → V → Nat) (entries : List (K × V)) : Nat :=
  (entries.map fun entry => weight entry.1 entry.2).sum

theorem weigh_erase {weight : K → V → Nat} {entries : List (K × V)} (k : K) :
    weigh weight (erase k entries) + ((lookup k entries).map (weight k)).getD 0 =
      weigh weight entries := by
  induction entries with
  | nil => rfl
  | cons head rest ih =>
      obtain ⟨k', v'⟩ := head
      by_cases hk : k = k'
      · subst hk
        simp [weigh, erase, lookup, Nat.add_comm]
      · simp only [weigh, erase, lookup, hk, if_false, List.map_cons,
          List.sum_cons] at ih ⊢
        omega

theorem weigh_insert {weight : K → V → Nat} {entries : List (K × V)}
    (hsorted : Sorted entries) (k : K) (v : V) :
    weigh weight (insert k v entries) +
        ((lookup k entries).map (weight k)).getD 0 =
      weigh weight entries + weight k v := by
  induction entries with
  | nil => simp [weigh, insert]
  | cons head rest ih =>
      obtain ⟨k', v'⟩ := head
      obtain ⟨hhead, hrest⟩ := List.pairwise_cons.mp hsorted
      rw [insert]
      split_ifs with hlt heq
      · have hnone : lookup k rest = none :=
          lookup_eq_none_of_lt fun entry hentry =>
            lt_trans hlt (hhead entry hentry)
        simp only [weigh, lookup, ne_of_lt hlt, if_false, hnone,
          List.map_cons, List.sum_cons, Option.map_none, Option.getD_none]
        omega
      · subst heq
        simp only [weigh, lookup, if_true, List.map_cons, List.sum_cons,
          Option.map_some, Option.getD_some]
        omega
      · have hrestSum := ih hrest
        simp only [weigh, lookup, heq, if_false, List.map_cons,
          List.sum_cons] at hrestSum ⊢
        omega

end OrdMap

/-- A table: sorted entries together with the proof that they are sorted. -/
structure Table (K : Type u) (V : Type v) [LinearOrder K] where
  entries : List (K × V)
  sorted : OrdMap.Sorted entries

namespace Table

@[ext] theorem ext_entries {left right : Table K V}
    (hentries : left.entries = right.entries) : left = right := by
  cases left
  cases right
  cases hentries
  rfl

instance [DecidableEq V] : DecidableEq (Table K V) := fun left right =>
  decidable_of_iff (left.entries = right.entries)
    ⟨ext_entries, congrArg entries⟩

def empty : Table K V := ⟨[], OrdMap.sorted_nil⟩

instance : Inhabited (Table K V) := ⟨empty⟩

def get? (table : Table K V) (k : K) : Option V := OrdMap.lookup k table.entries

def insert (table : Table K V) (k : K) (v : V) : Table K V :=
  ⟨OrdMap.insert k v table.entries, OrdMap.sorted_insert k v table.sorted⟩

def remove (table : Table K V) (k : K) : Table K V :=
  ⟨OrdMap.erase k table.entries, OrdMap.sorted_erase k table.sorted⟩

def len (table : Table K V) : Nat := table.entries.length

/-- The entry with the greatest key. -/
def last? (table : Table K V) : Option (K × V) := table.entries.getLast?

def weigh (table : Table K V) (weight : K → V → Nat) : Nat :=
  OrdMap.weigh weight table.entries

def keys (table : Table K V) : List K := table.entries.map Prod.fst

/-- Remove a list of keys, one after the other. -/
def removeAll (table : Table K V) (keys : List K) : Table K V :=
  keys.foldl remove table

theorem mem_of_last? {table : Table K V} {row : K × V} (h : table.last? = some row) :
    row ∈ table.entries := List.mem_of_getLast? h

/-- The last entry has the greatest key. -/
theorem le_of_last? {table : Table K V} {row entry : K × V} (h : table.last? = some row)
    (hentry : entry ∈ table.entries) : entry.1 ≤ row.1 := by
  obtain ⟨front, hfront⟩ := List.getLast?_eq_some_iff.mp h
  have hsorted := table.sorted
  rw [OrdMap.Sorted, hfront, List.pairwise_append] at hsorted
  rw [hfront, List.mem_append, List.mem_singleton] at hentry
  rcases hentry with hfront | rfl
  · exact le_of_lt (hsorted.2.2 entry hfront row (List.mem_singleton_self row))
  · exact le_refl _

@[simp] theorem get?_empty (k : K) : (empty : Table K V).get? k = none := rfl

@[simp] theorem get?_insert_self (table : Table K V) (k : K) (v : V) :
    (table.insert k v).get? k = some v := OrdMap.lookup_insert_self k v _

theorem get?_insert (table : Table K V) (k k' : K) (v : V) :
    (table.insert k v).get? k' = if k' = k then some v else table.get? k' :=
  OrdMap.lookup_insert k k' v _

theorem get?_insert_of_ne (table : Table K V) {k k' : K} (hne : k' ≠ k) (v : V) :
    (table.insert k v).get? k' = table.get? k' :=
  OrdMap.lookup_insert_of_ne hne v _

@[simp] theorem get?_remove_self (table : Table K V) (k : K) :
    (table.remove k).get? k = none := OrdMap.lookup_erase_self table.sorted

theorem get?_remove_of_ne (table : Table K V) {k k' : K} (hne : k' ≠ k) :
    (table.remove k).get? k' = table.get? k' := OrdMap.lookup_erase_of_ne hne _

theorem get?_remove (table : Table K V) (k k' : K) :
    (table.remove k).get? k' = if k' = k then none else table.get? k' := by
  by_cases hk : k' = k
  · subst hk
    simp
  · rw [get?_remove_of_ne table hk, if_neg hk]

theorem mem_entries (table : Table K V) (k : K) (v : V) :
    (k, v) ∈ table.entries ↔ table.get? k = some v :=
  OrdMap.mem_iff_lookup table.sorted k v

/-- Tables are extensional. -/
theorem ext_get? {left right : Table K V}
    (hget : ∀ k, left.get? k = right.get? k) : left = right :=
  ext_entries (OrdMap.ext_of_sorted left.sorted right.sorted hget)

theorem insert_eq_self (table : Table K V) {k : K} {v : V}
    (hstored : table.get? k = some v) : table.insert k v = table :=
  ext_entries (OrdMap.insert_eq_self table.sorted hstored)

theorem remove_eq_self (table : Table K V) {k : K}
    (hstored : table.get? k = none) : table.remove k = table :=
  ext_entries (OrdMap.erase_eq_self hstored)

theorem get?_removeAll (table : Table K V) (keys : List K) (k : K) :
    (table.removeAll keys).get? k = if k ∈ keys then none else table.get? k := by
  induction keys generalizing table with
  | nil => simp [removeAll]
  | cons head rest ih =>
      change ((table.remove head).removeAll rest).get? k = _
      rw [ih, get?_remove]
      by_cases hhead : k = head
      · simp [hhead]
      · simp [hhead]

theorem mem_keys (table : Table K V) (k : K) :
    k ∈ table.keys ↔ ∃ v, table.get? k = some v := by
  rw [keys, List.mem_map]
  constructor
  · rintro ⟨⟨k', v⟩, hentry, rfl⟩
    exact ⟨v, (table.mem_entries k' v).mp hentry⟩
  · rintro ⟨v, hget⟩
    exact ⟨(k, v), (table.mem_entries k v).mpr hget, rfl⟩

/-- Removing every key empties the table. -/
theorem removeAll_keys (table : Table K V) : table.removeAll table.keys = empty := by
  apply ext_get?
  intro k
  rw [get?_removeAll, get?_empty]
  split_ifs with hkey
  · rfl
  · cases hget : table.get? k with
    | none => rfl
    | some v => exact absurd ((table.mem_keys k).mpr ⟨v, hget⟩) hkey

/-- Insert a list of entries, one after the other. -/
def insertAll (table : Table K V) (rows : List (K × V)) : Table K V :=
  rows.foldl (fun table row => table.insert row.1 row.2) table

/-- The last row of a key wins. -/
theorem get?_insertAll (table : Table K V) (rows : List (K × V)) (k : K) :
    (table.insertAll rows).get? k = (OrdMap.lookup k rows.reverse).or (table.get? k) := by
  induction rows generalizing table with
  | nil => rfl
  | cons row rest ih =>
      change ((table.insert row.1 row.2).insertAll rest).get? k = _
      rw [ih, List.reverse_cons, OrdMap.lookup_append, Option.or_assoc, get?_insert, OrdMap.lookup]
      congr 1
      split_ifs <;> rfl

/-- The entries of one table over those of another. -/
theorem get?_insertAll_entries (table more : Table K V) (k : K) :
    (table.insertAll more.entries).get? k = (more.get? k).or (table.get? k) := by
  rw [get?_insertAll, OrdMap.lookup_reverse more.sorted.nodup]
  rfl

/-- Inserting rows that do not disagree lists exactly these rows. -/
theorem get?_insertAll_empty {rows : List (K × V)}
    (hfunctional : ∀ k v v', (k, v) ∈ rows → (k, v') ∈ rows → v = v') (k : K) (v : V) :
    ((empty : Table K V).insertAll rows).get? k = some v ↔ (k, v) ∈ rows := by
  have hgeneral : ∀ (todo : List (K × V)) (table : Table K V),
      (∀ k v v', (k, v) ∈ todo ∨ table.get? k = some v →
        (k, v') ∈ todo ∨ table.get? k = some v' → v = v') →
      ((table.insertAll todo).get? k = some v ↔ (k, v) ∈ todo ∨ table.get? k = some v) := by
    intro todo
    induction todo with
    | nil => simp [insertAll]
    | cons row rest ih =>
        intro table hagree
        obtain ⟨k₀, v₀⟩ := row
        change ((table.insert k₀ v₀).insertAll rest).get? k = some v ↔ _
        have hsame : ∀ k v, ((k, v) ∈ rest ∨ (table.insert k₀ v₀).get? k = some v) ↔
            ((k, v) ∈ (k₀, v₀) :: rest ∨ table.get? k = some v) := by
          intro k v
          rw [get?_insert, List.mem_cons, Prod.mk.injEq]
          by_cases hk : k = k₀
          · subst hk
            simp only [if_true, Option.some.injEq, true_and]
            constructor
            · rintro (hrest | rfl)
              · exact Or.inl (Or.inr hrest)
              · exact Or.inl (Or.inl rfl)
            · rintro ((rfl | hrest) | hold)
              · exact Or.inr rfl
              · exact Or.inl hrest
              · exact Or.inr (hagree k v₀ v (Or.inl List.mem_cons_self) (Or.inr hold))
          · simp [hk]
        rw [ih, hsame]
        intro k v v' hv hv'
        exact hagree k v v' ((hsame k v).mp hv) ((hsame k v').mp hv')
  rw [hgeneral]
  · simp
  · intro k v v' hv hv'
    exact hfunctional k v v' (by simpa using hv) (by simpa using hv')

/-- So does inserting rows each under its own key. -/
theorem get?_insertAll_of_nodup {rows : List (K × V)} (hnodup : (rows.map Prod.fst).Nodup) (k : K)
    (v : V) : ((empty : Table K V).insertAll rows).get? k = some v ↔ (k, v) ∈ rows := by
  apply get?_insertAll_empty
  intro k v v' hv hv'
  exact (Prod.mk.inj (List.inj_on_of_nodup_map hnodup hv hv' rfl)).2

theorem weigh_add (table : Table K V) (left right : K → V → Nat) :
    table.weigh (fun k v => left k v + right k v) =
      table.weigh left + table.weigh right := by
  unfold weigh OrdMap.weigh
  induction table.entries with
  | nil => rfl
  | cons entry rest ih =>
      simp only [List.map_cons, List.sum_cons, ih]
      omega

theorem weigh_insert (table : Table K V) (weight : K → V → Nat) (k : K) (v : V) :
    (table.insert k v).weigh weight + ((table.get? k).map (weight k)).getD 0 =
      table.weigh weight + weight k v :=
  OrdMap.weigh_insert table.sorted k v

theorem weigh_remove (table : Table K V) (weight : K → V → Nat) (k : K) :
    (table.remove k).weigh weight + ((table.get? k).map (weight k)).getD 0 =
      table.weigh weight :=
  OrdMap.weigh_erase k

/-- The length is the weight that counts every entry once. -/
theorem len_eq_weigh (table : Table K V) : table.len = table.weigh fun _ _ => 1 := by
  simp [len, weigh, OrdMap.weigh]

theorem weigh_insert_of_none (table : Table K V) (weight : K → V → Nat) {k : K} {v : V}
    (h : table.get? k = none) :
    (table.insert k v).weigh weight = table.weigh weight + weight k v := by
  have hinsert := table.weigh_insert weight k v
  rwa [h, Option.map_none, Option.getD_none, Nat.add_zero] at hinsert

/-- New rows under keys of their own add their weights. -/
theorem weigh_insertAll (table : Table K V) (weight : K → V → Nat) {rows : List (K × V)}
    (hnodup : (rows.map Prod.fst).Nodup) (hfresh : ∀ row ∈ rows, table.get? row.1 = none) :
    (table.insertAll rows).weigh weight =
      table.weigh weight + (rows.map fun row => weight row.1 row.2).sum := by
  induction rows generalizing table with
  | nil => rfl
  | cons row rest ih =>
      obtain ⟨hhead, hrest⟩ := List.nodup_cons.mp hnodup
      change ((table.insert row.1 row.2).insertAll rest).weigh weight = _
      rw [ih _ hrest, weigh_insert_of_none table weight (hfresh row List.mem_cons_self),
        List.map_cons, List.sum_cons, Nat.add_assoc]
      intro other hother
      rw [get?_insert_of_ne]
      · exact hfresh other (List.mem_cons_of_mem _ hother)
      · intro hsame
        exact hhead (hsame ▸ List.mem_map_of_mem hother)

theorem mem_or_of_get?_insertAll {table : Table K V} {rows : List (K × V)} {k : K} {v : V}
    (h : (table.insertAll rows).get? k = some v) : (k, v) ∈ rows ∨ table.get? k = some v := by
  rw [get?_insertAll] at h
  rcases Option.or_eq_some_iff.mp h with hrow | ⟨_, hold⟩
  · exact Or.inl (List.mem_reverse.mp (OrdMap.mem_of_lookup hrow))
  · exact Or.inr hold

theorem isSome_get?_insertAll {table : Table K V} {rows : List (K × V)} {row : K × V}
    (h : row ∈ rows) : ((table.insertAll rows).get? row.1).isSome := by
  rw [get?_insertAll, Option.isSome_or, Bool.or_eq_true]
  left
  by_contra hnone
  rw [Option.not_isSome_iff_eq_none] at hnone
  have hmem : row.1 ∈ rows.reverse.map Prod.fst :=
    List.mem_map_of_mem (List.mem_reverse.mpr h)
  exact absurd hmem (OrdMap.lookup_eq_none_iff.mp hnone)

/-- A row with a key of its own is found after the rows are inserted. -/
theorem get?_insertAll_of_mem (table : Table K V) {rows : List (K × V)}
    (hnodup : (rows.map Prod.fst).Nodup) {k : K} {v : V} (h : (k, v) ∈ rows) :
    (table.insertAll rows).get? k = some v := by
  rw [get?_insertAll, OrdMap.lookup_reverse hnodup,
    (OrdMap.mem_iff_lookup_of_nodup hnodup).mp h, Option.some_or]

theorem get?_insertAll_of_not_mem (table : Table K V) {rows : List (K × V)} {k : K}
    (h : k ∉ rows.map Prod.fst) : (table.insertAll rows).get? k = table.get? k := by
  rw [get?_insertAll, OrdMap.lookup_eq_none_iff.mpr, Option.none_or]
  rwa [List.map_reverse, List.mem_reverse]

/-- After rows beyond every key the last entry is one of them. -/
theorem last?_insertAll {table : Table K V} {rows : List (K × V)} (hrows : rows ≠ [])
    (hbeyond : ∀ row ∈ rows, ∀ k, (table.get? k).isSome → k < row.1) :
    ∃ row ∈ rows, (table.insertAll rows).last? = some row := by
  obtain ⟨row, hrow⟩ := List.exists_mem_of_ne_nil rows hrows
  obtain ⟨v, hv⟩ := Option.isSome_iff_exists.mp (@isSome_get?_insertAll _ _ _ table _ _ hrow)
  have hentry := ((table.insertAll rows).mem_entries row.1 v).mpr hv
  cases hlast : (table.insertAll rows).last? with
  | none =>
      rw [List.getLast?_eq_none_iff.mp hlast] at hentry
      cases hentry
  | some last =>
      have hstored := ((table.insertAll rows).mem_entries last.1 last.2).mp (mem_of_last? hlast)
      rcases mem_or_of_get?_insertAll hstored with hnew | hold
      · exact ⟨last, hnew, rfl⟩
      · have hlt := hbeyond row hrow last.1 (Option.isSome_iff_exists.mpr ⟨_, hold⟩)
        exact absurd (le_of_last? hlast hentry) (not_le_of_gt hlt)

/-- The table with every value mapped. -/
def mapValues {W : Type w} (f : V → W) (table : Table K V) : Table K W :=
  ⟨table.entries.map fun entry => (entry.1, f entry.2), by
    apply List.pairwise_map.mpr
    exact table.sorted⟩

theorem get?_mapValues {W : Type w} (f : V → W) (table : Table K V) (k : K) :
    (table.mapValues f).get? k = (table.get? k).map f := OrdMap.lookup_map f k _

theorem weigh_mapValues {W : Type w} (f : V → W) (table : Table K V) (weight : K → W → Nat) :
    (table.mapValues f).weigh weight = table.weigh fun k v => weight k (f v) := by
  rw [weigh, OrdMap.weigh, mapValues, List.map_map]
  rfl

/-- Tables whose values agree under a map weigh alike by it. -/
theorem weigh_congr {W : Type w} {V' : Type x} {left : Table K V} {right : Table K V'} {f : V → W}
    {g : V' → W} (h : ∀ k, (left.get? k).map f = (right.get? k).map g) (weight : K → W → Nat) :
    (left.weigh fun k v => weight k (f v)) = right.weigh fun k v => weight k (g v) := by
  have hsame : left.mapValues f = right.mapValues g := by
    apply ext_get?
    intro k
    rw [get?_mapValues, get?_mapValues, h]
  rw [← weigh_mapValues, hsame, weigh_mapValues]

end Table
