/-
Groups of keyed items under a selection that keeps or drops whole groups, and the results of the
items that are kept.
-/
import ChipTrace.Lib.KeepFirst
import ChipTrace.Lib.Result

universe u v w

section Grouping

variable {K : Type u} {V : Type v} [LinearOrder K]

theorem Table.mem_pushAll_empty (items : List (K × V)) (k : K) (values : List V) :
    (k, values) ∈ ((Table.empty : Table K (List V)).pushAll items).entries ↔
      values = valuesOf k items ∧ values ≠ [] := by
  rw [Table.mem_entries, Table.get?_pushAll_empty]
  split_ifs with hnil
  · constructor
    · intro h
      cases h
    · intro h
      exact absurd (h.1.trans hnil) h.2
  · rw [Option.some.injEq]
    constructor
    · intro h
      exact ⟨h.symm, h ▸ hnil⟩
    · exact fun h => h.1.symm

theorem mem_valuesOf {k : K} {value : V} {items : List (K × V)} :
    value ∈ valuesOf k items ↔ (k, value) ∈ items := by
  rw [valuesOf, List.mem_filterMap]
  constructor
  · rintro ⟨item, hitem, hvalue⟩
    split_ifs at hvalue with hkey
    rw [← hkey, ← Option.some.inj hvalue]
    exact hitem
  · intro h
    exact ⟨(k, value), h, if_pos rfl⟩

theorem valuesOf_cons (k : K) (item : K × V) (rest : List (K × V)) :
    valuesOf k (item :: rest) =
      if item.1 = k then item.2 :: valuesOf k rest else valuesOf k rest := by
  rw [valuesOf, List.filterMap_cons]
  split_ifs <;> rfl

theorem valuesOf_filter (k : K) (keep : V → Bool) (items : List (K × V)) :
    valuesOf k (items.filter fun item => keep item.2) = (valuesOf k items).filter keep := by
  induction items with
  | nil => rfl
  | cons item rest ih =>
      rw [List.filter_cons, valuesOf_cons k item rest]
      split_ifs with hkeep hkey hkey
      · rw [valuesOf_cons, if_pos hkey, List.filter_cons_of_pos hkeep, ih]
      · rw [valuesOf_cons, if_neg hkey, ih]
      · rw [List.filter_cons_of_neg hkeep, ih]
      · exact ih

/-- Dropping whole groups of items drops these groups and changes no other. -/
theorem Table.pushAll_filter {items : List (K × V)} {keep : V → Bool}
    (huniform : ∀ a ∈ items, ∀ b ∈ items, a.1 = b.1 → keep a.2 = keep b.2) :
    ((Table.empty : Table K (List V)).pushAll
        (items.filter fun item => keep item.2)).entries =
      ((Table.empty : Table K (List V)).pushAll items).entries.filter fun entry =>
        entry.2.any keep := by
  have hkept : ∀ k, (valuesOf k items).any keep = true →
      (valuesOf k items).filter keep = valuesOf k items := by
    intro k hany
    obtain ⟨value, hvalue, hkeep⟩ := List.any_eq_true.mp hany
    refine List.filter_eq_self.mpr fun other hother => ?_
    rw [← hkeep]
    exact huniform _ (mem_valuesOf.mp hother) _ (mem_valuesOf.mp hvalue) rfl
  have hdropped : ∀ k, (valuesOf k items).filter keep ≠ [] →
      (valuesOf k items).any keep = true := by
    intro k hne
    obtain ⟨value, hvalue⟩ := List.exists_mem_of_ne_nil _ hne
    obtain ⟨hmem, hkeep⟩ := List.mem_filter.mp hvalue
    exact List.any_eq_true.mpr ⟨value, hmem, hkeep⟩
  have hleft := ((Table.empty : Table K (List V)).pushAll
    (items.filter fun item => keep item.2)).sorted
  have hright : OrdMap.Sorted (((Table.empty : Table K (List V)).pushAll items).entries.filter
      fun entry => entry.2.any keep) :=
    ((Table.empty : Table K (List V)).pushAll items).sorted.filter _
  apply OrdMap.ext_of_sorted hleft hright
  intro k
  ext values
  rw [← OrdMap.mem_iff_lookup hleft, ← OrdMap.mem_iff_lookup hright, List.mem_filter,
    Table.mem_pushAll_empty, Table.mem_pushAll_empty, valuesOf_filter]
  constructor
  · rintro ⟨rfl, hne⟩
    have hany := hdropped k hne
    rw [hkept k hany] at hne ⊢
    exact ⟨⟨rfl, hne⟩, hany⟩
  · rintro ⟨⟨rfl, hne⟩, hany⟩
    rw [hkept k hany]
    exact ⟨rfl, hne⟩

end Grouping

section Kept

variable {α : Type u} {β : Type v}

/-- The results of the items that are kept. -/
def keptOf (keep : α → Bool) (items : List α) (results : List β) : List β :=
  ((items.zip results).filter fun pair => keep pair.1).map Prod.snd

variable {keep : α → Bool} {items : List α} {results : List β}

theorem keptOf_cons (item : α) (result : β) :
    keptOf keep (item :: items) (result :: results) =
      if keep item then result :: keptOf keep items results else keptOf keep items results := by
  rw [keptOf, List.zip_cons_cons, List.filter_cons]
  split_ifs <;> rfl

theorem keptOf_map {γ : Type w} (f : β → γ) :
    keptOf keep items (results.map f) = (keptOf keep items results).map f := by
  induction items generalizing results with
  | nil => rfl
  | cons item rest ih =>
      cases results with
      | nil => rfl
      | cons result tail =>
          rw [List.map_cons, keptOf_cons, keptOf_cons, ih]
          split_ifs <;> rfl

/-- A fallible map over the items that are kept returns their results. -/
theorem mapM_filter {ε : Type w} {f : α → Except ε β} (h : items.mapM f = .ok results) :
    (items.filter keep).mapM f = .ok (keptOf keep items results) := by
  rw [List.mapM_eq_ok_iff] at h
  induction h with
  | nil => rfl
  | @cons item result rest tail hitem _ ih =>
      rw [List.filter_cons, keptOf_cons]
      split_ifs
      · rw [List.mapM_cons, hitem, Except.ok_bind, ih]
        rfl
      · exact ih

theorem exists_mapM_ok_iff {ε : Type w} {f : α → Except ε β} :
    (∃ results, items.mapM f = .ok results) ↔ ∀ item ∈ items, ∃ result, f item = .ok result := by
  simp only [List.mapM_eq_ok_iff]
  induction items with
  | nil => exact ⟨fun _ item hitem => absurd hitem List.not_mem_nil, fun _ => ⟨[], .nil⟩⟩
  | cons item rest ih =>
      rw [List.forall_mem_cons, ← ih]
      constructor
      · rintro ⟨_, hresults⟩
        cases hresults with
        | cons hitem hrest => exact ⟨⟨_, hitem⟩, ⟨_, hrest⟩⟩
      · rintro ⟨⟨result, hitem⟩, ⟨results, hrest⟩⟩
        exact ⟨result :: results, .cons hitem hrest⟩

theorem mem_keptOf {result : β} :
    result ∈ keptOf keep items results ↔
      ∃ item, (item, result) ∈ items.zip results ∧ keep item = true := by
  rw [keptOf, List.mem_map]
  constructor
  · rintro ⟨⟨item, other⟩, hpair, rfl⟩
    exact ⟨item, (List.mem_filter.mp hpair).1, (List.mem_filter.mp hpair).2⟩
  · rintro ⟨item, hpair, hkeep⟩
    exact ⟨(item, result), List.mem_filter.mpr ⟨hpair, hkeep⟩, rfl⟩

theorem length_keptOf (hlength : items.length = results.length) :
    (keptOf keep items results).length = (items.filter keep).length := by
  have hitems : (items.zip results).map Prod.fst = items := List.map_fst_zip (Nat.le_of_eq hlength)
  have hkept : items.filter keep =
      ((items.zip results).filter fun pair => keep pair.1).map Prod.fst := by
    conv_lhs => rw [← hitems]
    rw [List.filter_map]
    rfl
  rw [keptOf, hkept, List.length_map, List.length_map]

theorem keptOf_eq_nil (h : ∀ item ∈ items, keep item = false) : keptOf keep items results = [] := by
  rw [List.eq_nil_iff_forall_not_mem]
  intro result hresult
  obtain ⟨item, hpair, hkeep⟩ := mem_keptOf.mp hresult
  rw [h item (List.of_mem_zip hpair).1] at hkeep
  cases hkeep

/-- Lists of the same lengths that are joined to one list are the same. -/
theorem eq_of_flatMap_eq {left right : α → List β}
    (hlength : ∀ item ∈ items, (left item).length = (right item).length)
    (h : items.flatMap left = items.flatMap right) : ∀ item ∈ items, left item = right item := by
  induction items with
  | nil => exact fun item hitem => absurd hitem List.not_mem_nil
  | cons head rest ih =>
      rw [List.flatMap_cons, List.flatMap_cons] at h
      obtain ⟨hhead, hrest⟩ := List.append_inj h (hlength head List.mem_cons_self)
      intro item hitem
      cases List.mem_cons.mp hitem with
      | inl heq => rw [heq, hhead]
      | inr hmem =>
          exact ih (fun other hother => hlength other (List.mem_cons_of_mem _ hother)) hrest item
            hmem

end Kept
