/-
Lists without repeated keys: keeping the first item of each key, and grouping
keyed items in the order in which they come.
-/
import ChipTrace.Lib.OrdMap

universe u v w

section KeepFirst

variable {α : Type u} {β : Type v} [DecidableEq β] (key : α → β)

/-- The items whose key is neither among the seen ones nor that of an earlier
item. -/
def keepFirstFrom : List β → List α → List α
  | _, [] => []
  | seen, item :: rest =>
      if key item ∈ seen then keepFirstFrom seen rest
      else item :: keepFirstFrom (key item :: seen) rest

def keepFirst (items : List α) : List α := keepFirstFrom key [] items

variable {key}

theorem mem_of_mem_keepFirstFrom {seen : List β} {items : List α} {item : α}
    (h : item ∈ keepFirstFrom key seen items) : item ∈ items := by
  induction items generalizing seen with
  | nil => exact h
  | cons head rest ih =>
      rw [keepFirstFrom] at h
      split_ifs at h with hseen
      · exact List.mem_cons_of_mem _ (ih h)
      · rcases List.mem_cons.mp h with rfl | hrest
        · exact List.mem_cons_self
        · exact List.mem_cons_of_mem _ (ih hrest)

/-- Every key is kept, unless it had been seen before. -/
theorem key_mem_keepFirstFrom {seen : List β} {items : List α} {item : α}
    (h : item ∈ items) :
    key item ∈ seen ∨ key item ∈ (keepFirstFrom key seen items).map key := by
  induction items generalizing seen with
  | nil => cases h
  | cons head rest ih =>
      rw [keepFirstFrom]
      rcases List.mem_cons.mp h with rfl | hrest
      · by_cases hseen : key item ∈ seen
        · exact Or.inl hseen
        · rw [if_neg hseen]
          exact Or.inr List.mem_cons_self
      · split_ifs with hseen
        · exact ih hrest
        · rcases (ih hrest : key item ∈ key head :: seen ∨ _) with hold | hkept
          · rcases List.mem_cons.mp hold with heq | hold
            · rw [heq]
              exact Or.inr List.mem_cons_self
            · exact Or.inl hold
          · exact Or.inr (List.mem_cons_of_mem _ hkept)

theorem keepFirstFrom_key_not_seen {seen : List β} {items : List α} {item : α}
    (h : item ∈ keepFirstFrom key seen items) : key item ∉ seen := by
  induction items generalizing seen with
  | nil => cases h
  | cons head rest ih =>
      rw [keepFirstFrom] at h
      split_ifs at h with hseen
      · exact ih h
      · rcases List.mem_cons.mp h with rfl | hrest
        · exact hseen
        · exact fun hmem => ih hrest (List.mem_cons_of_mem _ hmem)

theorem keepFirstFrom_nodup (seen : List β) (items : List α) :
    ((keepFirstFrom key seen items).map key).Nodup := by
  induction items generalizing seen with
  | nil => exact List.nodup_nil
  | cons head rest ih =>
      rw [keepFirstFrom]
      split_ifs with hseen
      · exact ih seen
      · refine List.nodup_cons.mpr ⟨?_, ih _⟩
        intro hmem
        obtain ⟨item, hitem, hkey⟩ := List.mem_map.mp hmem
        exact keepFirstFrom_key_not_seen hitem (hkey ▸ List.mem_cons_self)

/-- Behind items of distinct new keys only items of further keys are kept. -/
theorem keepFirstFrom_append {seen : List β} {items more : List α}
    (hnew : ∀ item ∈ items, key item ∉ seen) (hnodup : (items.map key).Nodup) :
    keepFirstFrom key seen (items ++ more) =
      items ++ keepFirstFrom key ((items.map key).reverse ++ seen) more := by
  induction items generalizing seen with
  | nil => rfl
  | cons head rest ih =>
      obtain ⟨hhead, hrest⟩ := List.nodup_cons.mp hnodup
      rw [List.cons_append, keepFirstFrom, if_neg (hnew head List.mem_cons_self),
        ih _ hrest]
      · simp
      · intro item hitem hmem
        rcases List.mem_cons.mp hmem with heq | hold
        · exact hhead (heq ▸ List.mem_map_of_mem hitem)
        · exact hnew item (List.mem_cons_of_mem _ hitem) hold

theorem keepFirstFrom_eq_nil {seen : List β} {items : List α} :
    keepFirstFrom key seen items = [] ↔ ∀ item ∈ items, key item ∈ seen := by
  induction items with
  | nil => simp [keepFirstFrom]
  | cons head rest ih =>
      rw [keepFirstFrom]
      split_ifs with hseen
      · simp [ih, hseen]
      · simp [hseen]

/-- Items are added to a list without repetition exactly when one has a new key. -/
theorem keepFirst_append_eq_self {items more : List α} (hnodup : (items.map key).Nodup) :
    keepFirst key (items ++ more) = items ↔ ∀ item ∈ more, key item ∈ items.map key := by
  rw [keepFirst, keepFirstFrom_append (fun _ _ => List.not_mem_nil) hnodup,
    List.append_right_eq_self, keepFirstFrom_eq_nil]
  simp

theorem keepFirst_nodup (items : List α) : ((keepFirst key items).map key).Nodup := by
  rw [keepFirst]
  exact keepFirstFrom_nodup [] items

theorem key_mem_keepFirst {items : List α} {k : β} :
    k ∈ (keepFirst key items).map key ↔ k ∈ items.map key := by
  constructor
  · intro h
    obtain ⟨item, hitem, rfl⟩ := List.mem_map.mp h
    exact List.mem_map_of_mem (mem_of_mem_keepFirstFrom hitem)
  · intro h
    obtain ⟨item, hitem, rfl⟩ := List.mem_map.mp h
    rcases (key_mem_keepFirstFrom hitem : key item ∈ ([] : List β) ∨ _) with hnil | hkept
    · cases hnil
    · exact hkept

end KeepFirst

section Grouping

variable {K : Type u} {V : Type v} [LinearOrder K]

/-- Append a value to the values of a key. -/
def Table.push (groups : Table K (List V)) (k : K) (v : V) : Table K (List V) :=
  groups.insert k ((groups.get? k).getD [] ++ [v])

def Table.pushAll (groups : Table K (List V)) (items : List (K × V)) : Table K (List V) :=
  items.foldl (fun groups item => groups.push item.1 item.2) groups

/-- The values of one key among keyed items. -/
def valuesOf (k : K) (items : List (K × V)) : List V :=
  items.filterMap fun item => if item.1 = k then some item.2 else none

theorem valuesOf_append (k : K) (left right : List (K × V)) :
    valuesOf k (left ++ right) = valuesOf k left ++ valuesOf k right :=
  List.filterMap_append

theorem valuesOf_of_ne {k : K} {items : List (K × V)} (h : ∀ item ∈ items, item.1 ≠ k) :
    valuesOf k items = [] := by
  rw [valuesOf, List.filterMap_eq_nil_iff]
  exact fun item hitem => if_neg (h item hitem)

theorem valuesOf_map (k : K) (values : List V) :
    valuesOf k (values.map fun value => (k, value)) = values := by
  induction values with
  | nil => rfl
  | cons value rest ih =>
      rw [valuesOf] at ih
      simp [valuesOf, ih]

theorem valuesOf_flatMap_of_not_mem {A : Type w} {entries : List (K × A)}
    (values : K → A → List V) {k : K} (hk : k ∉ entries.map Prod.fst) :
    valuesOf k (entries.flatMap fun entry => (values entry.1 entry.2).map fun value =>
      (entry.1, value)) = [] := by
  refine valuesOf_of_ne fun item hitem heq => hk ?_
  obtain ⟨entry, hentry, hvalue⟩ := List.mem_flatMap.mp hitem
  obtain ⟨value, _, rfl⟩ := List.mem_map.mp hvalue
  exact heq ▸ List.mem_map_of_mem hentry

/-- Values collected per key are found under their key again. -/
theorem valuesOf_flatMap {A : Type w} {entries : List (K × A)} (values : K → A → List V)
    (hnodup : (entries.map Prod.fst).Nodup) {k : K} {a : A} (h : (k, a) ∈ entries) :
    valuesOf k (entries.flatMap fun entry => (values entry.1 entry.2).map fun value =>
      (entry.1, value)) = values k a := by
  induction entries with
  | nil => cases h
  | cons entry rest ih =>
      obtain ⟨hhead, hrest⟩ := List.nodup_cons.mp hnodup
      rw [List.flatMap_cons, valuesOf_append]
      rcases List.mem_cons.mp h with rfl | hmem
      · rw [valuesOf_map, valuesOf_flatMap_of_not_mem values hhead, List.append_nil]
      · have hne : entry.1 ≠ k := fun heq => hhead (heq ▸ List.mem_map_of_mem hmem)
        have hother : valuesOf k ((values entry.1 entry.2).map fun value => (entry.1, value)) =
            [] := by
          refine valuesOf_of_ne fun item hitem => ?_
          obtain ⟨value, _, rfl⟩ := List.mem_map.mp hitem
          exact hne
        rw [hother, List.nil_append, ih hrest hmem]

theorem Table.getD_pushAll (groups : Table K (List V)) (items : List (K × V)) (k : K) :
    ((groups.pushAll items).get? k).getD [] = (groups.get? k).getD [] ++ valuesOf k items := by
  induction items generalizing groups with
  | nil => simp [Table.pushAll, valuesOf]
  | cons item rest ih =>
      obtain ⟨key, value⟩ := item
      have hrest := ih (groups.push key value)
      rw [Table.pushAll, List.foldl_cons]
      rw [Table.pushAll] at hrest
      rw [hrest, Table.push, Table.get?_insert]
      by_cases hk : k = key
      · subst hk
        simp [valuesOf]
      · have hne : key ≠ k := fun heq => hk heq.symm
        simp [valuesOf, hk, hne]

/-- No group is empty. -/
theorem Table.pushAll_ne_nil {groups : Table K (List V)} {items : List (K × V)} {k : K}
    (hgroups : ∀ k values, groups.get? k = some values → values ≠ []) {values : List V}
    (h : (groups.pushAll items).get? k = some values) : values ≠ [] := by
  induction items generalizing groups with
  | nil => exact hgroups k values h
  | cons item rest ih =>
      refine ih ?_ h
      intro k' values' hget
      simp only [Table.push, Table.get?_insert] at hget
      split_ifs at hget with hk
      · rw [Option.some.injEq] at hget
        rw [← hget]
        simp
      · exact hgroups k' values' hget

/-- The groups of keyed items, each in the order of the items. -/
theorem Table.get?_pushAll_empty (items : List (K × V)) (k : K) :
    ((Table.empty : Table K (List V)).pushAll items).get? k =
      if valuesOf k items = [] then none else some (valuesOf k items) := by
  have hvalues := Table.getD_pushAll (Table.empty : Table K (List V)) items k
  rw [Table.get?_empty, Option.getD_none, List.nil_append] at hvalues
  cases hget : ((Table.empty : Table K (List V)).pushAll items).get? k with
  | none =>
      rw [hget, Option.getD_none] at hvalues
      rw [if_pos hvalues.symm]
  | some values =>
      rw [hget, Option.getD_some] at hvalues
      have hne : values ≠ [] := Table.pushAll_ne_nil (fun k values h => by cases h) hget
      rw [← hvalues, if_neg hne]

end Grouping
