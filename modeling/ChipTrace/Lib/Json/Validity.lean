/-
What the parser returns and what the printer writes: parsed values are sorted
and nested within the limit, printed text has no control characters.
-/
import ChipTrace.Lib.Json.Text

namespace Json

theorem mem_mkFields {fields : List (String × Json)} {field : String × Json}
    (hfield : field ∈ mkFields fields) : field ∈ fields := by
  have hfold : ∀ (todo built : List (String × Json)),
      field ∈ todo.foldl (fun built field => OrdMap.insert field.1 field.2 built) built →
        field ∈ todo ∨ field ∈ built := by
    intro todo
    induction todo with
    | nil => exact fun built h => Or.inr h
    | cons head rest ih =>
        intro built h
        rcases ih _ h with hrest | hbuilt
        · exact Or.inl (List.mem_cons_of_mem _ hrest)
        · rcases OrdMap.mem_insert hbuilt with rfl | hold
          · exact Or.inl List.mem_cons_self
          · exact Or.inr hold
  rcases hfold fields [] hfield with h | h
  · exact h
  · cases h

/-- A value that the parser can return under a budget. -/
structure Fits (budget : Nat) (value : Json) : Prop where
  wellFormed : value.WellFormed
  depth : 0 < budget → value.depth < budget

theorem Fits.scalar {budget : Nat} {value : Json} (hwf : value.WellFormed)
    (hdepth : value.depth = 0) : Fits budget value :=
  ⟨hwf, fun h => by omega⟩

theorem Fits.arr {budget : Nat} {items : List Json} (hbudget : ¬ budget ≤ 1)
    (hitems : ∀ item ∈ items, Fits (budget - 1) item) : Fits budget (.arr items) := by
  refine ⟨wellFormedItems_iff.mpr fun item hitem => (hitems item hitem).wellFormed, ?_⟩
  intro _
  have hdepth : depthItems items ≤ budget - 2 := depthItems_le_iff.mpr fun item hitem => by
    have := (hitems item hitem).depth (by omega)
    omega
  rw [Json.depth]
  omega

theorem Fits.obj {budget : Nat} {fields : List (String × Json)} (hbudget : ¬ budget ≤ 1)
    (hfields : ∀ field ∈ fields, Fits (budget - 1) field.2) : Fits budget (mkObj fields) := by
  refine ⟨mkObj_wellFormed fun field hfield => (hfields field hfield).wellFormed, ?_⟩
  intro _
  have hdepth : depthFields (mkFields fields) ≤ budget - 2 :=
    depthFields_le_iff.mpr fun field hfield => by
      have := (hfields field (mem_mkFields hfield)).depth (by omega)
      omega
  rw [mkObj, Json.depth]
  omega

/-- One round of the parser, by what its calls with less fuel return. -/
structure ParserFits (fuel : Nat) : Prop where
  value : ∀ {budget text value rest}, parseValue fuel budget text = some (value, rest) →
    Fits budget value
  items : ∀ {budget text items rest}, parseItems fuel budget text = some (items, rest) →
    ∀ item ∈ items, Fits budget item
  fields : ∀ {budget text fields rest}, parseFields fuel budget text = some (fields, rest) →
    ∀ field ∈ fields, Fits budget field.2

theorem parserFits (fuel : Nat) : ParserFits fuel := by
  induction fuel with
  | zero =>
      refine ⟨?_, ?_, ?_⟩
      · intro budget text value rest h
        simp [parseValue] at h
      · intro budget text items rest h
        simp [parseItems] at h
      · intro budget text fields rest h
        simp [parseFields] at h
  | succ fuel ih =>
      refine ⟨?_, ?_, ?_⟩
      · intro budget text value rest h
        rw [parseValue] at h
        split at h
        · cases h
          exact Fits.scalar trivial rfl
        · cases h
          exact Fits.scalar trivial rfl
        · cases h
          exact Fits.scalar trivial rfl
        · obtain ⟨body, _, hvalue⟩ := Option.map_eq_some_iff.mp h
          cases hvalue
          exact Fits.scalar trivial rfl
        · split at h
          · cases h
          · cases h
          · cases h
            exact Fits.scalar trivial rfl
        · split_ifs at h with hbudget
          split at h
          · cases h
            exact Fits.arr hbudget (by simp)
          · obtain ⟨⟨items, rest'⟩, hitems, hvalue⟩ := Option.map_eq_some_iff.mp h
            cases hvalue
            exact Fits.arr hbudget (ih.items hitems)
        · split_ifs at h with hbudget
          split at h
          · cases h
            have hnone : ∀ field ∈ ([] : List (String × Json)), Fits (budget - 1) field.2 := by
              simp
            exact Fits.obj hbudget hnone
          · obtain ⟨⟨fields, rest'⟩, hfields, hvalue⟩ := Option.map_eq_some_iff.mp h
            cases hvalue
            exact Fits.obj hbudget (ih.fields hfields)
        · obtain ⟨number, _, hvalue⟩ := Option.map_eq_some_iff.mp h
          cases hvalue
          exact Fits.scalar trivial rfl
      · intro budget text items rest h
        rw [parseItems] at h
        split at h
        · cases h
        · rename_i item rest' hitem
          split at h
          · cases h
            intro other hother
            rw [List.mem_singleton] at hother
            exact hother ▸ ih.value hitem
          · obtain ⟨⟨more, rest''⟩, hmore, hvalue⟩ := Option.map_eq_some_iff.mp h
            cases hvalue
            intro other hother
            rcases List.mem_cons.mp hother with rfl | hother
            · exact ih.value hitem
            · exact ih.items hmore other hother
          · cases h
      · intro budget text fields rest h
        rw [parseFields] at h
        split at h
        · split at h
          · cases h
          · split at h
            · split at h
              · cases h
              · rename_i value rest' hvalue
                split at h
                · cases h
                  intro other hother
                  rw [List.mem_singleton] at hother
                  exact hother ▸ ih.value hvalue
                · obtain ⟨⟨more, rest''⟩, hmore, hfields⟩ := Option.map_eq_some_iff.mp h
                  cases hfields
                  intro other hother
                  rcases List.mem_cons.mp hother with rfl | hother
                  · exact ih.value hvalue
                  · exact ih.fields hmore other hother
                · cases h
            · cases h
        · cases h

theorem parse_fits {text : List Char} {value : Json} (hparse : parse text = some value) :
    Fits recursionLimit value := by
  rw [parse] at hparse
  split at hparse
  · rename_i parsed rest hvalue
    split_ifs at hparse
    cases hparse
    exact (parserFits _).value hvalue
  · cases hparse

theorem parse_wellFormed {text : List Char} {value : Json}
    (hparse : parse text = some value) : value.WellFormed := (parse_fits hparse).wellFormed

theorem parse_depth {text : List Char} {value : Json} (hparse : parse text = some value) :
    value.depth < recursionLimit := (parse_fits hparse).depth (by decide)

section Within

/-- A well-formed value of bounded nesting. -/
def Within (bound : Nat) (value : Json) : Prop := value.WellFormed ∧ value.depth ≤ bound

theorem Within.mono {bound larger : Nat} {value : Json} (h : Within bound value)
    (hle : bound ≤ larger) : Within larger value := ⟨h.1, h.2.trans hle⟩

theorem within_obj_iff {bound : Nat} {fields : List (String × Json)} :
    Within (bound + 1) (.obj fields) ↔
      OrdMap.Sorted fields ∧ ∀ field ∈ fields, Within bound field.2 := by
  simp only [Within, WellFormed, wellFormedFields_iff, Json.depth, add_le_add_iff_right,
    depthFields_le_iff]
  constructor
  · rintro ⟨⟨hsorted, hwf⟩, hdepth⟩
    exact ⟨hsorted, fun field hfield => ⟨hwf field hfield, hdepth field hfield⟩⟩
  · rintro ⟨hsorted, hfields⟩
    exact ⟨⟨hsorted, fun field hfield => (hfields field hfield).1⟩,
      fun field hfield => (hfields field hfield).2⟩

theorem within_arr_iff {bound : Nat} {items : List Json} :
    Within (bound + 1) (.arr items) ↔ ∀ item ∈ items, Within bound item := by
  simp only [Within, WellFormed, wellFormedItems_iff, Json.depth, add_le_add_iff_right,
    depthItems_le_iff]
  exact forall₂_and.symm

theorem Within.lookup {bound : Nat} {fields : List (String × Json)} {key : String}
    {value : Json} (h : Within (bound + 1) (.obj fields))
    (hlookup : OrdMap.lookup key fields = some value) : Within bound value :=
  (within_obj_iff.mp h).2 (key, value)
    ((OrdMap.mem_iff_lookup (within_obj_iff.mp h).1 key value).mpr hlookup)

theorem Within.insert {bound : Nat} {fields : List (String × Json)} {key : String}
    {value : Json} (h : Within (bound + 1) (.obj fields)) (hvalue : Within bound value) :
    Within (bound + 1) (.obj (OrdMap.insert key value fields)) := by
  obtain ⟨hsorted, hfields⟩ := within_obj_iff.mp h
  refine within_obj_iff.mpr ⟨OrdMap.sorted_insert key value hsorted, fun field hfield => ?_⟩
  rcases OrdMap.mem_insert hfield with rfl | hold
  · exact hvalue
  · exact hfields field hold

theorem Within.erase {bound : Nat} {fields : List (String × Json)} {key : String}
    (h : Within (bound + 1) (.obj fields)) :
    Within (bound + 1) (.obj (OrdMap.erase key fields)) := by
  obtain ⟨hsorted, hfields⟩ := within_obj_iff.mp h
  exact within_obj_iff.mpr ⟨OrdMap.sorted_erase key hsorted, fun field hfield =>
    hfields field (OrdMap.mem_erase hfield)⟩

theorem within_mkObj {bound : Nat} {fields : List (String × Json)}
    (hfields : ∀ field ∈ fields, Within bound field.2) :
    Within (bound + 1) (mkObj fields) := by
  refine ⟨mkObj_wellFormed fun field hfield => (hfields field hfield).1, ?_⟩
  have hdepth : depthFields (mkFields fields) ≤ bound :=
    depthFields_le_iff.mpr fun field hfield => (hfields field (mem_mkFields hfield)).2
  rw [mkObj, Json.depth]
  omega

theorem within_scalar {bound : Nat} {value : Json} (hwf : value.WellFormed)
    (hdepth : value.depth = 0) : Within bound value := ⟨hwf, by omega⟩

theorem within_str {bound : Nat} (text : String) : Within bound (.str text) :=
  within_scalar trivial rfl

theorem within_num {bound : Nat} (value : Int) : Within bound (.num value) :=
  within_scalar trivial rfl

theorem within_bool {bound : Nat} (value : Bool) : Within bound (.bool value) :=
  within_scalar trivial rfl

end Within

/-- Not a control character. -/
def Printable (text : List Char) : Prop := ∀ c ∈ text, 32 ≤ c.toNat

theorem printable_append {left right : List Char} :
    Printable (left ++ right) ↔ Printable left ∧ Printable right := by
  simp [Printable, or_imp, forall_and]

theorem printable_cons {c : Char} {text : List Char} :
    Printable (c :: text) ↔ 32 ≤ c.toNat ∧ Printable text := by
  simp [Printable]

theorem printable_nil : Printable [] := by
  simp [Printable]

theorem hexDigit_printable (n : Nat) : 32 ≤ (hexDigit n).toNat := by
  have hall : ∀ d < 16, 32 ≤ (hexDigit d).toNat := by decide
  have h := hall (n % 16) (Nat.mod_lt n (by decide))
  rwa [hexDigit, Nat.mod_mod, ← hexDigit] at h

theorem escapeChar_printable (c : Char) : Printable (escapeChar c) := by
  unfold escapeChar
  split_ifs with _ _ _ _ _ _ _ hcontrol
  all_goals simp only [printable_cons, printable_nil, and_true]
  all_goals try decide
  · exact ⟨by decide, by decide, by decide, by decide, hexDigit_printable _,
      hexDigit_printable _⟩
  · exact not_lt.mp hcontrol

theorem printString_printable (s : String) : Printable (printString s) := by
  rw [printString, printable_cons, printable_append]
  refine ⟨by decide, ?_, by simp [Printable]⟩
  intro c hc
  obtain ⟨source, _, hsource⟩ := List.mem_flatMap.mp hc
  exact escapeChar_printable source c hsource

theorem digits_printable (n : Nat) : Printable (Decimal.digits n) := by
  intro c hc
  have hdigit := Decimal.digits_isDigit n c hc
  unfold Decimal.isDigit Decimal.digitValue? at hdigit
  split_ifs at hdigit with hrange
  · have : ('0' : Char).toNat ≤ c.toNat := hrange.1
    exact le_trans (by decide) this
  · cases hdigit

mutual

/-- Printed text has no control characters, line breaks among them. -/
theorem print_printable : ∀ value : Json, Printable (print value)
  | .null => by simp [print, printable_cons, printable_nil]
  | .bool true => by simp [print, printable_cons, printable_nil]
  | .bool false => by simp [print, printable_cons, printable_nil]
  | .num n => by
      rw [print, printNumber]
      split_ifs
      · exact printable_cons.mpr ⟨by decide, digits_printable _⟩
      · exact digits_printable _
  | .str s => by
      rw [print]
      exact printString_printable s
  | .arr [] => by simp [print, printable_cons, printable_nil]
  | .arr (item :: rest) => by
      rw [print, printable_cons, printable_append]
      exact ⟨by decide, print_printable item, printItems_printable rest⟩
  | .obj [] => by simp [print, printable_cons, printable_nil]
  | .obj ((key, value) :: rest) => by
      rw [print, printable_cons, printable_append, printable_cons, printable_append]
      exact ⟨by decide, printString_printable key, by decide, print_printable value,
        printFields_printable rest⟩

theorem printItems_printable : ∀ items : List Json, Printable (printItems items)
  | [] => by simp [printItems, printable_cons, printable_nil]
  | item :: rest => by
      rw [printItems, printable_cons, printable_append]
      exact ⟨by decide, print_printable item, printItems_printable rest⟩

theorem printFields_printable : ∀ fields : List (String × Json),
    Printable (printFields fields)
  | [] => by simp [printFields, printable_cons, printable_nil]
  | (key, value) :: rest => by
      rw [printFields, printable_cons, printable_append, printable_cons, printable_append]
      exact ⟨by decide, printString_printable key, by decide, print_printable value,
        printFields_printable rest⟩

end

end Json
