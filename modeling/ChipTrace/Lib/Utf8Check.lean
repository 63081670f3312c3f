/-
The check of bytes that may end inside a character: they are a text, they are the start of one, or
no bytes behind them make them one.
-/
import ChipTrace.Lib.Bytes

namespace Bytes

/-- The bytes are the UTF-8 of some text. -/
def Valid (bytes : Bytes) : Prop := ∃ text, encode text = bytes

def firstChar? (bytes : Bytes) : Option Char := bytes.toByteArray.utf8DecodeChar? 0

def isContinuation (b : UInt8) : Bool := decide (0x80 ≤ b.toNat) && decide (b.toNat ≤ 0xBF)

/-- The second bytes that may follow a first byte. -/
def isSecond (first second : UInt8) : Bool :=
  isContinuation second &&
    (decide (first.toNat ≠ 0xE0) || decide (0xA0 ≤ second.toNat)) &&
    (decide (first.toNat ≠ 0xED) || decide (second.toNat ≤ 0x9F)) &&
    (decide (first.toNat ≠ 0xF0) || decide (0x90 ≤ second.toNat)) &&
    (decide (first.toNat ≠ 0xF4) || decide (second.toNat ≤ 0x8F))

/-- Some bytes of a character, but not all. -/
def isUnfinished : Bytes → Bool
  | [a] => decide (0xC2 ≤ a.toNat) && decide (a.toNat ≤ 0xF4)
  | [a, b] => decide (0xE0 ≤ a.toNat) && decide (a.toNat ≤ 0xF4) && isSecond a b
  | [a, b, c] => decide (0xF0 ≤ a.toNat) && decide (a.toNat ≤ 0xF4) && isSecond a b &&
      isContinuation c
  | _ => false

inductive Utf8Check
  | valid
  | unfinished (rest : Bytes)
  | invalid
  deriving DecidableEq

def utf8CheckWithin : Nat → Bytes → Utf8Check
  | 0, _ => .invalid
  | _ + 1, [] => .valid
  | fuel + 1, b :: more =>
      match firstChar? (b :: more) with
      | some c => utf8CheckWithin fuel ((b :: more).drop c.utf8Size)
      | none => if isUnfinished (b :: more) then .unfinished (b :: more) else .invalid

/-- What the bytes are, with the bytes of a last character that is not whole. -/
def utf8Check (bytes : Bytes) : Utf8Check := utf8CheckWithin (bytes.length + 1) bytes

theorem encode_cons (c : Char) (text : List Char) :
    encode (c :: text) = String.utf8EncodeChar c ++ encode text := List.flatMap_cons

theorem firstChar?_encode (c : Char) (rest : Bytes) :
    firstChar? (String.utf8EncodeChar c ++ rest) = some c := by
  rw [firstChar?, List.toByteArray_append]
  exact ByteArray.utf8DecodeChar?_utf8EncodeChar_append

theorem eq_of_firstChar? {bytes : Bytes} {c : Char} (h : firstChar? bytes = some c) :
    ∃ rest, bytes = String.utf8EncodeChar c ++ rest := by
  obtain ⟨rest, hrest⟩ := ByteArray.exists_of_utf8DecodeChar?_eq_some h
  refine ⟨rest.data.toList, List.toByteArray_inj.mp ?_⟩
  rw [hrest, List.toByteArray_append]
  congr 1
  exact ByteArray.ext (by simp)

/-- The bytes before the last one of a character are seen to be unfinished. -/
theorem isUnfinished_take (c : Char) {k : Nat} (hpos : 0 < k) (hlt : k < c.utf8Size) :
    isUnfinished ((String.utf8EncodeChar c).take k) = true := by
  have hvalid : c.val.toNat < 0xd800 ∨ (0xdfff < c.val.toNat ∧ c.val.toNat < 0x110000) := c.valid
  have hsize := String.length_utf8EncodeChar c
  have hval : c.val.toNat = c.toNat := rfl
  rw [String.utf8EncodeChar] at hsize ⊢
  rw [hval] at hvalid
  simp only [hval] at hsize ⊢
  split at hsize
  · simp only [List.length_singleton] at hsize
    omega
  · split at hsize
    · next h1 h2 =>
      simp only [List.length_cons, List.length_nil] at hsize
      obtain rfl : k = 1 := by omega
      rw [if_neg h1, if_pos h2]
      simp [isUnfinished]
      omega
    · split at hsize
      · next h1 h2 h3 =>
        simp only [List.length_cons, List.length_nil] at hsize
        rw [if_neg h1, if_neg h2, if_pos h3]
        obtain rfl | rfl : k = 1 ∨ k = 2 := by omega
        · simp [isUnfinished]
          omega
        · simp [isUnfinished, isSecond, isContinuation]
          omega
      · next h1 h2 h3 =>
        simp only [List.length_cons, List.length_nil] at hsize
        rw [if_neg h1, if_neg h2, if_neg h3]
        obtain rfl | rfl | rfl : k = 1 ∨ k = 2 ∨ k = 3 := by omega
        · simp [isUnfinished]
          omega
        · simp [isUnfinished, isSecond, isContinuation]
          omega
        · simp [isUnfinished, isSecond, isContinuation]
          omega

theorem valid_nil : Valid [] := ⟨[], rfl⟩

/-- Valid bytes are empty or start with a character. -/
theorem Valid.cases {bytes : Bytes} (h : Valid bytes) :
    bytes = [] ∨ ∃ c rest, Valid rest ∧ bytes = String.utf8EncodeChar c ++ rest := by
  obtain ⟨text, rfl⟩ := h
  cases text with
  | nil => exact Or.inl rfl
  | cons c rest => exact Or.inr ⟨c, encode rest, ⟨rest, rfl⟩, encode_cons c rest⟩

theorem utf8EncodeChar_ne_nil (c : Char) : String.utf8EncodeChar c ≠ [] := fun hnil => by
  have hlength := congrArg List.length hnil
  rw [String.length_utf8EncodeChar] at hlength
  exact absurd hlength (Nat.ne_of_gt c.utf8Size_pos)

theorem valid_char_append {c : Char} {rest : Bytes} :
    Valid (String.utf8EncodeChar c ++ rest) ↔ Valid rest := by
  constructor
  · intro h
    rcases h.cases with hnil | ⟨d, other, hother, heq⟩
    · exact absurd (List.append_eq_nil_iff.mp hnil).1 (utf8EncodeChar_ne_nil c)
    · have hfirst := firstChar?_encode c rest
      rw [heq, firstChar?_encode] at hfirst
      obtain rfl := Option.some.inj hfirst
      rw [List.append_cancel_left heq]
      exact hother
  · rintro ⟨text, rfl⟩
    exact ⟨c :: text, encode_cons c text⟩

theorem valid_encode_append {text : List Char} {rest : Bytes} :
    Valid (encode text ++ rest) ↔ Valid rest := by
  induction text with
  | nil => rfl
  | cons c more ih => rw [encode_cons, List.append_assoc, valid_char_append, ih]

/-- What a check says of the bytes. -/
def Utf8Check.Describes (bytes : Bytes) : Utf8Check → Prop
  | .valid => Valid bytes
  | .unfinished rest => (∃ text, bytes = encode text ++ rest) ∧ ¬ Valid rest
  | .invalid => ∀ more, ¬ Valid (bytes ++ more)

theorem Utf8Check.Describes.char {check : Utf8Check} {rest : Bytes} (h : check.Describes rest)
    (c : Char) : check.Describes (String.utf8EncodeChar c ++ rest) := by
  cases check with
  | valid => exact valid_char_append.mpr h
  | unfinished last =>
      obtain ⟨⟨text, rfl⟩, hlast⟩ := h
      exact ⟨⟨c :: text, by rw [encode_cons, List.append_assoc]⟩, hlast⟩
  | invalid =>
      intro more hvalid
      rw [List.append_assoc] at hvalid
      exact h more (valid_char_append.mp hvalid)

/-- Without a first character, the bytes are unfinished or nothing makes them valid. -/
theorem describes_none {bytes : Bytes} (hne : bytes ≠ []) (hnone : firstChar? bytes = none) :
    (if isUnfinished bytes then Utf8Check.unfinished bytes else .invalid).Describes bytes := by
  have hnotFirst : ∀ c rest, bytes ≠ String.utf8EncodeChar c ++ rest := by
    intro c rest heq
    rw [heq, firstChar?_encode] at hnone
    cases hnone
  split
  · refine ⟨⟨[], rfl⟩, fun hvalid => ?_⟩
    rcases hvalid.cases with hnil | ⟨c, rest, _, heq⟩
    · exact hne hnil
    · exact hnotFirst c rest heq
  · next hfinished =>
      intro more hvalid
      rcases hvalid.cases with hnil | ⟨c, rest, _, heq⟩
      · exact hne (List.append_eq_nil_iff.mp hnil).1
      · rcases List.append_eq_append_iff.mp heq with ⟨gap, hgap, _⟩ | ⟨gap, hgap, _⟩
        · apply hfinished
          have htake : bytes = (String.utf8EncodeChar c).take bytes.length := by
            rw [hgap, List.take_left]
          have hgapNe : gap ≠ [] := by
            rintro rfl
            rw [List.append_nil] at hgap
            exact hnotFirst c [] (by rw [hgap, List.append_nil])
          have hlength := congrArg List.length hgap
          rw [String.length_utf8EncodeChar, List.length_append] at hlength
          have hgapPos := List.length_pos_iff.mpr hgapNe
          have hbytesPos := List.length_pos_iff.mpr hne
          rw [htake]
          exact isUnfinished_take c hbytesPos (by omega)
        · exact hnotFirst c gap hgap

theorem utf8CheckWithin_describes {fuel : Nat} {bytes : Bytes} (hfuel : bytes.length < fuel) :
    (utf8CheckWithin fuel bytes).Describes bytes := by
  induction fuel generalizing bytes with
  | zero => exact absurd hfuel (Nat.not_lt_zero _)
  | succ fuel ih =>
      cases bytes with
      | nil => exact valid_nil
      | cons b more =>
          rw [utf8CheckWithin]
          cases hfirst : firstChar? (b :: more) with
          | none => exact describes_none (List.cons_ne_nil b more) hfirst
          | some c =>
              obtain ⟨rest, hrest⟩ := eq_of_firstChar? hfirst
              have hsize := c.utf8Size_pos
              have hlength := congrArg List.length hrest
              rw [List.length_append, String.length_utf8EncodeChar] at hlength
              have hdrop : (b :: more).drop c.utf8Size = rest := by
                rw [hrest, ← String.length_utf8EncodeChar, List.drop_left]
              simp only [hdrop]
              rw [hrest]
              exact (ih (by omega)).char c

theorem utf8Check_describes (bytes : Bytes) : (utf8Check bytes).Describes bytes :=
  utf8CheckWithin_describes (Nat.lt_succ_self _)

/-- An ASCII byte ends the characters before it. -/
theorem valid_append_ascii {first rest : Bytes} {b : UInt8} (hascii : b.toNat < 128) :
    Valid (first ++ b :: rest) ↔ Valid (first ++ [b]) ∧ Valid rest := by
  constructor
  · rintro ⟨text, htext⟩
    induction text generalizing first with
    | nil =>
        exact absurd htext.symm
          (List.append_ne_nil_of_right_ne_nil _ (List.cons_ne_nil b rest))
    | cons c more ih =>
        rw [encode_cons] at htext
        rcases List.append_eq_append_iff.mp htext with ⟨gap, hfirst, hgap⟩ | ⟨gap, hchar, hgap⟩
        · obtain ⟨hvalid, hrest⟩ := ih hgap
          rw [hfirst, List.append_assoc]
          exact ⟨valid_char_append.mpr hvalid, hrest⟩
        · cases gap with
          | nil =>
              obtain ⟨hvalid, hrest⟩ := @ih [] hgap.symm
              rw [List.append_nil] at hchar
              rw [← hchar]
              exact ⟨valid_char_append.mpr hvalid, hrest⟩
          | cons d gap =>
              obtain ⟨rfl, hmore⟩ := List.cons.inj hgap
              have hmem : b ∈ String.utf8EncodeChar c := by
                rw [hchar]
                exact List.mem_append_right _ List.mem_cons_self
              have hsame := ascii_of_mem_encodeChar hmem hascii
              have hsingle : (String.utf8EncodeChar c).length = 1 := by
                rw [String.length_utf8EncodeChar, Char.utf8Size_eq_one_iff, UInt32.le_iff_toNat_le]
                have hval : c.val.toNat = c.toNat := rfl
                have hlimit : (127 : UInt32).toNat = 127 := rfl
                omega
              rw [hchar, List.length_append, List.length_cons] at hsingle
              have hnil : first = [] := List.eq_nil_of_length_eq_zero (by omega)
              have hgapNil : gap = [] := List.eq_nil_of_length_eq_zero (by omega)
              subst hnil hgapNil
              rw [List.nil_append] at hchar ⊢
              refine ⟨⟨[c], ?_⟩, ⟨more, hmore.symm⟩⟩
              rw [encode_cons, hchar]
              rfl
  · rintro ⟨⟨text, hfirst⟩, ⟨more, hrest⟩⟩
    refine ⟨text ++ more, ?_⟩
    rw [encode_append, hfirst, hrest, List.append_assoc, List.singleton_append]

end Bytes
