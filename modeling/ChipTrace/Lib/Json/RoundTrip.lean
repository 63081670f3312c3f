/-
Reading back what the printer wrote.  The parser returns the printed value when
the budget covers its nesting and fails otherwise, so printing is injective and
the nesting limit is exact.
-/
import ChipTrace.Lib.Json.Text
import Mathlib.Data.List.TakeWhile

namespace Json

section Strings

theorem hexValue?_hexDigit (n : Nat) : hexValue? (hexDigit n) = some (n % 16) := by
  have hall : ∀ d < 16, hexValue? (if d % 16 < 10 then Char.ofNat (48 + d % 16)
      else Char.ofNat (87 + d % 16)) = some d := by decide
  have hlt : n % 16 < 16 := Nat.mod_lt n (by decide)
  have h := hall (n % 16) hlt
  rwa [Nat.mod_mod] at h

theorem hex4?_control {n : Nat} (hn : n < 32) :
    hex4? '0' '0' (hexDigit (n / 16)) (hexDigit (n % 16)) = some n := by
  have hzero : hexValue? '0' = some 0 := by decide
  simp only [hex4?, hzero, hexValue?_hexDigit, Option.bind_eq_bind, Option.bind_some,
    Option.pure_def, Option.some.injEq]
  omega

/-- One printed character is read back as that character. -/
theorem parseStringBody_escapeChar (c : Char) (rest : List Char) :
    parseStringBody none (escapeChar c ++ rest) =
      (parseStringBody none rest).map (consChar c) := by
  unfold escapeChar
  split_ifs with hquote hslash h8 h12 hn hr ht hcontrol
  · subst hquote
    simp [parseStringBody, escaped?]
  · subst hslash
    simp [parseStringBody, escaped?]
  · subst h8
    simp [parseStringBody, escaped?]
  · subst h12
    simp [parseStringBody, escaped?]
  · subst hn
    simp [parseStringBody, escaped?]
  · subst hr
    simp [parseStringBody, escaped?]
  · subst ht
    simp [parseStringBody, escaped?]
  · have hlow : ¬ (0xDC00 ≤ c.toNat ∧ c.toNat ≤ 0xDFFF) := by omega
    have hhigh : ¬ (0xD800 ≤ c.toNat ∧ c.toNat ≤ 0xDBFF) := by omega
    rw [show ['\\', 'u', '0', '0', hexDigit (c.toNat / 16), hexDigit (c.toNat % 16)] ++ rest =
      '\\' :: 'u' :: '0' :: '0' :: hexDigit (c.toNat / 16) :: hexDigit (c.toNat % 16) ::
        rest from rfl]
    rw [parseStringBody, hex4?_control hcontrol]
    simp only [hlow, hhigh, if_false, Char.ofNat_toNat]
  · rw [List.singleton_append, parseStringBody.eq_def]
    split
    · simp_all
    · simp_all
    · simp_all
    · simp_all
    · rename_i heq
      obtain ⟨rfl, rfl⟩ := List.cons.inj heq
      rw [if_neg hquote, if_neg (by simp [hslash, hcontrol])]
    · simp_all

theorem parseStringBody_print (body rest : List Char) :
    parseStringBody none (body.flatMap escapeChar ++ '"' :: rest) = some (body, rest) := by
  induction body with
  | nil => simp [parseStringBody]
  | cons c body ih =>
      rw [List.flatMap_cons, List.append_assoc, parseStringBody_escapeChar, ih]
      rfl

end Strings

section Numerals

/-- The text after a numeral does not continue it. -/
def NumeralEnd (rest : List Char) : Prop :=
  ∀ c tail, rest = c :: tail → Decimal.isDigit c = false ∧ c ≠ '.' ∧ c ≠ 'e' ∧ c ≠ 'E'

theorem numeralEnd_nil : NumeralEnd [] := by
  intro c tail h
  cases h

theorem numeralEnd_cons {c : Char} {tail : List Char}
    (hc : Decimal.isDigit c = false ∧ c ≠ '.' ∧ c ≠ 'e' ∧ c ≠ 'E') :
    NumeralEnd (c :: tail) := by
  intro c' tail' h
  cases h
  exact hc

theorem parseNumeral_digits {n : Nat} {rest : List Char} (hend : NumeralEnd rest) :
    parseNumeral (Decimal.digits n ++ rest) = some (n, rest) := by
  have hdigits := Decimal.digits_isDigit n
  have hstop : rest.takeWhile Decimal.isDigit = [] := by
    cases rest with
    | nil => rfl
    | cons c tail => rw [List.takeWhile_cons_of_neg (by simp [(hend c tail rfl).1])]
  have hdrop : rest.dropWhile Decimal.isDigit = rest := by
    cases rest with
    | nil => rfl
    | cons c tail => rw [List.dropWhile_cons_of_neg (by simp [(hend c tail rfl).1])]
  have htake : (Decimal.digits n ++ rest).takeWhile Decimal.isDigit = Decimal.digits n := by
    rw [List.takeWhile_append_of_pos hdigits, hstop, List.append_nil]
  have hrest : (Decimal.digits n ++ rest).dropWhile Decimal.isDigit = rest := by
    rw [List.dropWhile_append_of_pos hdigits, hdrop]
  have hread := Decimal.readDigits_digits n
  obtain ⟨c, more, hcons, hzero⟩ := Decimal.digits_head n
  unfold parseNumeral
  simp only [htake, hrest]
  rw [hcons] at hread ⊢
  have hleading : ¬ (c = '0' ∧ more ≠ []) := fun h => h.2 (hzero h.1).2
  simp only [if_neg hleading]
  split
  · exact absurd rfl (hend _ _ rfl).2.1
  · exact absurd rfl (hend _ _ rfl).2.2.1
  · exact absurd rfl (hend _ _ rfl).2.2.2
  · rw [hread]
    rfl

end Numerals

section Heads

/-- The characters a printed value can start with. -/
def StartsValue (c : Char) : Prop :=
  isSpace c = false ∧ c ≠ ']' ∧ c ≠ '}' ∧ c ≠ ','

theorem isDigit_startsValue {c : Char} (hc : Decimal.isDigit c = true) :
    StartsValue c ∧ c ≠ 'n' ∧ c ≠ 't' ∧ c ≠ 'f' ∧ c ≠ '"' ∧ c ≠ '-' ∧ c ≠ '[' ∧ c ≠ '{' := by
  refine ⟨⟨?_, ?_, ?_, ?_⟩, ?_, ?_, ?_, ?_, ?_, ?_, ?_⟩
  · by_contra hspace
    rw [Bool.not_eq_false, isSpace] at hspace
    simp only [Bool.or_eq_true, beq_iff_eq] at hspace
    rcases hspace with ((rfl | rfl) | rfl) | rfl <;> revert hc <;> decide
  all_goals
    rintro rfl
    revert hc
    decide

theorem print_head (value : Json) :
    ∃ c tail, print value = c :: tail ∧ StartsValue c := by
  have hletter : ∀ c ∈ ['n', 't', 'f', '"', '-', '[', '{'], StartsValue c := by
    intro c hc
    simp only [List.mem_cons, List.not_mem_nil, or_false] at hc
    rcases hc with rfl | rfl | rfl | rfl | rfl | rfl | rfl <;>
      exact ⟨by decide, by decide, by decide, by decide⟩
  have hdigits : ∀ n, ∃ c tail, Decimal.digits n = c :: tail ∧ StartsValue c := by
    intro n
    obtain ⟨c, rest, hcons, _⟩ := Decimal.digits_head n
    have hc := Decimal.digits_isDigit n c (by rw [hcons]; exact List.mem_cons_self)
    exact ⟨c, rest, hcons, (isDigit_startsValue hc).1⟩
  cases value with
  | null => exact ⟨_, _, by rw [print], hletter _ (by decide)⟩
  | bool b => cases b <;> exact ⟨_, _, by rw [print], hletter _ (by decide)⟩
  | num n =>
      rw [print, printNumber]
      split_ifs
      · exact ⟨_, _, rfl, hletter _ (by decide)⟩
      · exact hdigits _
  | str s => exact ⟨_, _, by rw [print, printString], hletter _ (by decide)⟩
  | arr items =>
      cases items with
      | nil => exact ⟨_, _, by rw [print], hletter _ (by decide)⟩
      | cons item rest => exact ⟨_, _, by rw [print], hletter _ (by decide)⟩
  | obj fields =>
      cases fields with
      | nil => exact ⟨_, _, by rw [print], hletter _ (by decide)⟩
      | cons field rest => exact ⟨_, _, by rw [print], hletter _ (by decide)⟩

theorem skipSpace_cons {c : Char} {rest : List Char} (hc : isSpace c = false) :
    skipSpace (c :: rest) = c :: rest := by
  rw [skipSpace, List.dropWhile_cons_of_neg (by simp [hc])]

theorem skipSpace_print (value : Json) (rest : List Char) :
    skipSpace (print value ++ rest) = print value ++ rest := by
  obtain ⟨c, tail, hprint, hc⟩ := print_head value
  rw [hprint, List.cons_append, skipSpace_cons hc.1]

theorem numeralEnd_printItems (items : List Json) (rest : List Char) :
    NumeralEnd (printItems items ++ rest) := by
  cases items with
  | nil => exact numeralEnd_cons (by decide)
  | cons item more => exact numeralEnd_cons (by decide)

theorem numeralEnd_printFields (fields : List (String × Json)) (rest : List Char) :
    NumeralEnd (printFields fields ++ rest) := by
  cases fields with
  | nil => exact numeralEnd_cons (by decide)
  | cons field more => exact numeralEnd_cons (by decide)

end Heads

section Fuel

mutual

/-- Recursion steps that suffice to read a printed value. -/
def size : Json → Nat
  | .arr items => sizeItems items + 1
  | .obj fields => sizeFields fields + 1
  | _ => 1

def sizeItems : List Json → Nat
  | [] => 0
  | item :: rest => size item + sizeItems rest + 1

def sizeFields : List (String × Json) → Nat
  | [] => 0
  | (_, value) :: rest => size value + sizeFields rest + 1

end

mutual

theorem size_le_print : ∀ value : Json, size value ≤ 2 * (print value).length
  | .null => by simp [size, print]
  | .bool true => by simp [size, print]
  | .bool false => by simp [size, print]
  | .num n => by
      obtain ⟨c, tail, hprint, _⟩ := print_head (.num n)
      have hsize : size (.num n) = 1 := rfl
      rw [hprint, hsize, List.length_cons]
      omega
  | .str s => by
      simp only [size, print, printString, List.length_cons]
      omega
  | .arr [] => by simp [size, sizeItems, print]
  | .arr (item :: rest) => by
      have hitem := size_le_print item
      have hrest := sizeItems_le_print rest
      simp only [size, sizeItems, print, List.length_cons, List.length_append]
      omega
  | .obj [] => by simp [size, sizeFields, print]
  | .obj ((key, value) :: rest) => by
      have hvalue := size_le_print value
      have hrest := sizeFields_le_print rest
      simp only [size, sizeFields, print, List.length_cons, List.length_append]
      omega

theorem sizeItems_le_print : ∀ items : List Json,
    sizeItems items + 1 ≤ 2 * (printItems items).length
  | [] => by simp [sizeItems, printItems]
  | item :: rest => by
      have hitem := size_le_print item
      have hrest := sizeItems_le_print rest
      simp only [sizeItems, printItems, List.length_cons, List.length_append]
      omega

theorem sizeFields_le_print : ∀ fields : List (String × Json),
    sizeFields fields + 1 ≤ 2 * (printFields fields).length
  | [] => by simp [sizeFields, printFields]
  | (key, value) :: rest => by
      have hvalue := size_le_print value
      have hrest := sizeFields_le_print rest
      simp only [sizeFields, printFields, List.length_cons, List.length_append]
      omega

end

end Fuel

section Brackets

variable (fuel budget : Nat) {c : Char} (tail : List Char)

/-- Opening an array that has a first item. -/
theorem parseValue_openItems (hc : StartsValue c) :
    parseValue (fuel + 1) budget ('[' :: c :: tail) =
      if budget ≤ 1 then none
      else (parseItems fuel (budget - 1) (c :: tail)).map fun (items, rest) =>
        (.arr items, rest) := by
  rw [parseValue, skipSpace_cons (show isSpace '[' = false from rfl)]
  simp only [skipSpace_cons hc.1]
  split_ifs
  · rfl
  · split
    · exact absurd (List.cons.inj ‹_›).1 hc.2.1
    · rfl

/-- Opening an object that has a first field. -/
theorem parseValue_openFields :
    parseValue (fuel + 1) budget ('{' :: '"' :: tail) =
      if budget ≤ 1 then none
      else (parseFields fuel (budget - 1) ('"' :: tail)).map fun (fields, rest) =>
        (mkObj fields, rest) := by
  rw [parseValue, skipSpace_cons (show isSpace '{' = false from rfl)]
  simp only [skipSpace_cons (show isSpace '"' = false from rfl)]
  rfl

/-- A field up to the text after its value. -/
theorem parseFields_field (key : String) :
    parseFields (fuel + 1) budget (printString key ++ ':' :: tail) =
      match parseValue fuel budget tail with
      | none => none
      | some (value, rest) =>
          match skipSpace rest with
          | '}' :: rest => some ([(key, value)], rest)
          | ',' :: rest =>
              (parseFields fuel budget rest).map fun (fields, rest) =>
                ((key, value) :: fields, rest)
          | _ => none := by
  have htext : printString key ++ ':' :: tail =
      '"' :: (key.toList.flatMap escapeChar ++ '"' :: ':' :: tail) := by
    simp [printString]
  rw [htext, parseFields, skipSpace_cons (show isSpace '"' = false from rfl)]
  simp only [parseStringBody_print, skipSpace_cons (show isSpace ':' = false from rfl),
    String.ofList_toList]
  all_goals rfl

end Brackets

/-- The two outcomes of reading a printed value: itself when fuel and budget
suffice, and a failure that one of them explains. -/
def Reads {α : Type} (result : Option (α × List Char)) (value : α) (rest : List Char)
    (fuel need budget depth : Nat) : Prop :=
  (result = some (value, rest) ∧ depth < budget) ∨
    (result = none ∧ (fuel < need ∨ budget ≤ depth))

theorem mkFields_sorted {fields : List (String × Json)} (hsorted : OrdMap.Sorted fields) :
    mkFields fields = fields := by
  have hfold : ∀ (todo built : List (String × Json)), OrdMap.Sorted (built ++ todo) →
      todo.foldl (fun built field => OrdMap.insert field.1 field.2 built) built =
        built ++ todo := by
    intro todo
    induction todo with
    | nil => simp
    | cons field rest ih =>
        intro built hall
        obtain ⟨hbuilt, hrest, hcross⟩ := List.pairwise_append.mp hall
        have hinsert : ∀ prefix_ : List (String × Json),
            (∀ entry ∈ prefix_, entry.1 < field.1) →
            OrdMap.insert field.1 field.2 prefix_ = prefix_ ++ [field] := by
          intro prefix_ hbelow
          induction prefix_ with
          | nil => rfl
          | cons head tail ihPrefix =>
              have hlt := hbelow head List.mem_cons_self
              rw [OrdMap.insert, if_neg (not_lt_of_gt hlt), if_neg (ne_of_gt hlt),
                ihPrefix fun entry hentry => hbelow entry (List.mem_cons_of_mem _ hentry),
                List.cons_append]
        rw [List.foldl_cons, hinsert built fun entry hentry =>
          hcross entry hentry field List.mem_cons_self]
        rw [ih (built ++ [field]) (by simpa using hall)]
        simp
  exact hfold fields [] hsorted

mutual

theorem parseValue_print : ∀ (value : Json) (fuel budget : Nat) (rest : List Char),
    value.WellFormed → 0 < budget → NumeralEnd rest →
      Reads (parseValue fuel budget (print value ++ rest)) value rest fuel (size value)
        budget value.depth
  | value, 0, budget, rest, _, _, _ => by
      refine Or.inr ⟨by rw [parseValue], Or.inl ?_⟩
      cases value <;> simp [size]
  | .null, fuel + 1, budget, rest, _, hbudget, _ => by
      refine Or.inl ⟨?_, hbudget⟩
      rw [parseValue, skipSpace_print]
      simp [print]
  | .bool true, fuel + 1, budget, rest, _, hbudget, _ => by
      refine Or.inl ⟨?_, hbudget⟩
      rw [parseValue, skipSpace_print]
      simp [print]
  | .bool false, fuel + 1, budget, rest, _, hbudget, _ => by
      refine Or.inl ⟨?_, hbudget⟩
      rw [parseValue, skipSpace_print]
      simp [print]
  | .num n, fuel + 1, budget, rest, _, hbudget, hend => by
      refine Or.inl ⟨?_, hbudget⟩
      rw [parseValue, skipSpace_print, print, printNumber]
      by_cases hneg : n < 0
      · obtain ⟨k, hk⟩ : ∃ k, n.natAbs = k + 1 := ⟨n.natAbs - 1, by omega⟩
        have hvalue : Int.negSucc k = n := by omega
        simp only [if_pos hneg, List.cons_append, parseNumeral_digits hend, hk, hvalue]
      · rw [if_neg hneg]
        have hread := parseNumeral_digits (n := n.natAbs) hend
        obtain ⟨c, more, hcons, _⟩ := Decimal.digits_head n.natAbs
        have hdigit := Decimal.digits_isDigit n.natAbs c (by rw [hcons]; exact List.mem_cons_self)
        obtain ⟨_, hn, ht, hf, hquote, hminus, hbracket, hbrace⟩ := isDigit_startsValue hdigit
        rw [hcons, List.cons_append] at hread ⊢
        split
        · exact absurd (List.cons.inj ‹_›).1 hn
        · exact absurd (List.cons.inj ‹_›).1 ht
        · exact absurd (List.cons.inj ‹_›).1 hf
        · exact absurd (List.cons.inj ‹_›).1 hquote
        · exact absurd (List.cons.inj ‹_›).1 hminus
        · exact absurd (List.cons.inj ‹_›).1 hbracket
        · exact absurd (List.cons.inj ‹_›).1 hbrace
        · have hvalue : Int.ofNat n.natAbs = n := Int.natAbs_of_nonneg (not_lt.mp hneg)
          simp only [hread, Option.map_some, hvalue]
  | .str s, fuel + 1, budget, rest, _, hbudget, _ => by
      refine Or.inl ⟨?_, hbudget⟩
      rw [parseValue, skipSpace_print]
      simp [print, printString, parseStringBody_print]
  | .arr [], fuel + 1, budget, rest, _, hbudget, _ => by
      rw [parseValue, skipSpace_print]
      by_cases hopen : budget ≤ 1
      · exact Or.inr ⟨by simp [print, hopen], Or.inr hopen⟩
      · refine Or.inl ⟨?_, by simp only [depth, depthItems]; omega⟩
        simp [print, hopen, skipSpace_cons (show isSpace ']' = false from rfl)]
  | .arr (item :: more), fuel + 1, budget, rest, hwf, hbudget, _ => by
      have hitems := parseItems_print item more fuel (budget - 1) rest hwf.1 hwf.2
      obtain ⟨c, tail, hprint, hc⟩ := print_head item
      have hopen := parseValue_openItems fuel budget (tail ++ (printItems more ++ rest)) hc
      rw [← List.cons_append, ← hprint] at hopen
      have htext : print (.arr (item :: more)) ++ rest =
          '[' :: (print item ++ (printItems more ++ rest)) := by
        simp [print]
      rw [htext, hopen, size, depth]
      by_cases hlow : budget ≤ 1
      · exact Or.inr ⟨if_pos hlow, Or.inr (by omega)⟩
      · rw [if_neg hlow]
        rcases hitems (by omega) with ⟨hread, hdepth⟩ | ⟨hfail, hwhy⟩
        · exact Or.inl ⟨by rw [hread]; rfl, by omega⟩
        · exact Or.inr ⟨by rw [hfail]; rfl, by omega⟩
  | .obj [], fuel + 1, budget, rest, _, hbudget, _ => by
      rw [parseValue, skipSpace_print]
      by_cases hopen : budget ≤ 1
      · exact Or.inr ⟨by simp [print, hopen], Or.inr hopen⟩
      · refine Or.inl ⟨?_, by simp only [depth, depthFields]; omega⟩
        simp [print, hopen, skipSpace_cons (show isSpace '}' = false from rfl)]
  | .obj ((key, value) :: more), fuel + 1, budget, rest, hwf, hbudget, _ => by
      have hfields := parseFields_print key value more fuel (budget - 1) rest hwf.2.1 hwf.2.2
      have hopen := parseValue_openFields fuel budget (key.toList.flatMap escapeChar ++ ['"'] ++
        ':' :: (print value ++ (printFields more ++ rest)))
      have htext : print (.obj ((key, value) :: more)) ++ rest =
          '{' :: '"' :: (key.toList.flatMap escapeChar ++ ['"'] ++
            ':' :: (print value ++ (printFields more ++ rest))) := by
        simp [print, printString]
      rw [htext, hopen, size, depth]
      by_cases hlow : budget ≤ 1
      · exact Or.inr ⟨if_pos hlow, Or.inr (by omega)⟩
      · rw [if_neg hlow]
        rcases hfields (by omega) with ⟨hread, hdepth⟩ | ⟨hfail, hwhy⟩
        · refine Or.inl ⟨?_, by omega⟩
          have hsame : mkObj ((key, value) :: more) = .obj ((key, value) :: more) :=
            congrArg Json.obj (mkFields_sorted hwf.1)
          rw [← List.cons_append, ← printString, hread]
          simp only [Option.map_some, hsame]
        · refine Or.inr ⟨?_, by omega⟩
          rw [← List.cons_append, ← printString, hfail]
          rfl

theorem parseItems_print : ∀ (item : Json) (more : List Json) (fuel budget : Nat)
    (rest : List Char), item.WellFormed → WellFormedItems more → 0 < budget →
      Reads (parseItems fuel budget (print item ++ (printItems more ++ rest)))
        (item :: more) rest fuel (sizeItems (item :: more)) budget
        (depthItems (item :: more))
  | item, more, 0, budget, rest, _, _, _ => by
      exact Or.inr ⟨by rw [parseItems], Or.inl (by simp [sizeItems])⟩
  | item, [], fuel + 1, budget, rest, hitem, hmore, hbudget => by
      rcases parseValue_print item fuel budget (printItems [] ++ rest) hitem hbudget
        (numeralEnd_printItems [] rest) with ⟨hread, hdepth⟩ | ⟨hfail, hwhy⟩
      · refine Or.inl ⟨?_, by simpa [depthItems] using hdepth⟩
        rw [parseItems, hread]
        simp [printItems, skipSpace_cons (show isSpace ']' = false from rfl)]
      · refine Or.inr ⟨by rw [parseItems, hfail], ?_⟩
        simp only [sizeItems, depthItems]
        omega
  | item, next :: more, fuel + 1, budget, rest, hitem, hmore, hbudget => by
      have htail := parseItems_print next more fuel budget rest hmore.1 hmore.2 hbudget
      rcases parseValue_print item fuel budget (printItems (next :: more) ++ rest) hitem
        hbudget (numeralEnd_printItems _ rest) with ⟨hread, hdepth⟩ | ⟨hfail, hwhy⟩
      · have hstep : parseItems (fuel + 1) budget
            (print item ++ (printItems (next :: more) ++ rest)) =
            (parseItems fuel budget (print next ++ (printItems more ++ rest))).map
              fun (items, rest) => (item :: items, rest) := by
          rw [parseItems, hread]
          simp [printItems, skipSpace_cons (show isSpace ',' = false from rfl)]
        rw [hstep]
        rcases htail with ⟨hread', hdepth'⟩ | ⟨hfail', hwhy'⟩
        · refine Or.inl ⟨by rw [hread']; rfl, ?_⟩
          rw [depthItems]
          omega
        · refine Or.inr ⟨by rw [hfail']; rfl, ?_⟩
          rw [depthItems, sizeItems]
          omega
      · refine Or.inr ⟨by rw [parseItems, hfail], ?_⟩
        rw [depthItems, sizeItems]
        omega

theorem parseFields_print : ∀ (key : String) (value : Json) (more : List (String × Json))
    (fuel budget : Nat) (rest : List Char), value.WellFormed → WellFormedFields more →
      0 < budget →
      Reads (parseFields fuel budget
          (printString key ++ ':' :: (print value ++ (printFields more ++ rest))))
        ((key, value) :: more) rest fuel (sizeFields ((key, value) :: more)) budget
        (depthFields ((key, value) :: more))
  | key, value, more, 0, budget, rest, _, _, _ => by
      exact Or.inr ⟨by rw [parseFields], Or.inl (by simp [sizeFields])⟩
  | key, value, [], fuel + 1, budget, rest, hvalue, hmore, hbudget => by
      rw [parseFields_field, sizeFields, depthFields]
      rcases parseValue_print value fuel budget (printFields [] ++ rest) hvalue hbudget
        (numeralEnd_printFields [] rest) with ⟨hread, hdepth⟩ | ⟨hfail, hwhy⟩
      · refine Or.inl ⟨?_, by simpa [depthFields] using hdepth⟩
        rw [hread]
        simp [printFields, skipSpace_cons (show isSpace '}' = false from rfl)]
      · exact Or.inr ⟨by rw [hfail], by omega⟩
  | key, value, (nextKey, next) :: more, fuel + 1, budget, rest, hvalue, hmore,
      hbudget => by
      have htail := parseFields_print nextKey next more fuel budget rest hmore.1 hmore.2
        hbudget
      rw [parseFields_field, sizeFields, depthFields]
      rcases parseValue_print value fuel budget
        (printFields ((nextKey, next) :: more) ++ rest) hvalue
        hbudget (numeralEnd_printFields _ rest) with ⟨hread, hdepth⟩ | ⟨hfail, hwhy⟩
      · have hrest : skipSpace (printFields ((nextKey, next) :: more) ++ rest) =
            ',' :: (printString nextKey ++
              ':' :: (print next ++ (printFields more ++ rest))) := by
          simp [printFields, skipSpace_cons (show isSpace ',' = false from rfl)]
        rw [hread]
        simp only [hrest]
        rcases htail with ⟨hread', hdepth'⟩ | ⟨hfail', hwhy'⟩
        · exact Or.inl ⟨by rw [hread']; rfl, by omega⟩
        · exact Or.inr ⟨by rw [hfail']; rfl, by omega⟩
      · exact Or.inr ⟨by rw [hfail], by omega⟩

end

/-- A whole printed text is read back exactly when its nesting is within the
limit. -/
theorem parse_print {value : Json} (hwf : value.WellFormed) :
    parse (print value) = if value.depth < recursionLimit then some value else none := by
  have hread := parseValue_print value (2 * (print value).length + 2) recursionLimit []
    hwf (by decide) numeralEnd_nil
  have hfuel := size_le_print value
  rw [List.append_nil] at hread
  rw [parse]
  rcases hread with ⟨hok, hdepth⟩ | ⟨hfail, hwhy⟩
  · rw [hok, if_pos hdepth]
    rfl
  · rw [hfail, if_neg (by omega)]

/-- The text of a well-formed value determines it. -/
theorem print_injective {left right : Json} (hleft : left.WellFormed)
    (hright : right.WellFormed) (htext : print left = print right) : left = right := by
  have hl := parseValue_print left (size left + size right) (left.depth + right.depth + 1) []
    hleft (by omega) numeralEnd_nil
  have hr := parseValue_print right (size left + size right)
    (left.depth + right.depth + 1) [] hright (by omega) numeralEnd_nil
  rw [htext] at hl
  rcases hl with ⟨hl, _⟩ | ⟨_, hl⟩
  · rcases hr with ⟨hr, _⟩ | ⟨_, hr⟩
    · rw [hr, Option.some.injEq, Prod.mk.injEq] at hl
      exact hl.1.symm
    · omega
  · omega

end Json
