/-
Fixed-width decimal numerals: zero-padded formatting and digit parsing.
-/
import Mathlib.Data.List.Basic
import Mathlib.Algebra.Order.Ring.Nat
import Mathlib.Tactic.Ring

namespace Decimal

/-- The digit character of a number below ten. -/
def digitChar (n : Nat) : Char := Char.ofNat (48 + n % 10)

/-- The value of a decimal digit character. -/
def digitValue? (c : Char) : Option Nat :=
  if '0' ≤ c ∧ c ≤ '9' then some (c.toNat - 48) else none

/-- The last `width` decimal digits of a number, most significant first. -/
def padded : Nat → Nat → List Char
  | 0, _ => []
  | width + 1, n => padded width (n / 10) ++ [digitChar n]

/-- Read a digit string on top of an accumulated value. -/
def readDigits : Nat → List Char → Option Nat
  | acc, [] => some acc
  | acc, c :: rest => (digitValue? c).bind fun d => readDigits (acc * 10 + d) rest

@[simp] theorem padded_length (width n : Nat) : (padded width n).length = width := by
  induction width generalizing n with
  | zero => rfl
  | succ width ih => simp [padded, ih]

theorem digitValue?_digitChar (n : Nat) : digitValue? (digitChar n) = some (n % 10) := by
  have hlt : n % 10 < 10 := Nat.mod_lt n (by decide)
  have hdigit : ∀ d < 10, digitValue? (Char.ofNat (48 + d)) = some d := by decide
  exact hdigit (n % 10) hlt

theorem readDigits_append (acc : Nat) (first last : List Char) :
    readDigits acc (first ++ last) =
      (readDigits acc first).bind fun mid => readDigits mid last := by
  induction first generalizing acc with
  | nil => rfl
  | cons c rest ih =>
      simp only [List.cons_append, readDigits]
      cases digitValue? c with
      | none => rfl
      | some d => exact ih (acc * 10 + d)

/-- Padding to a width that holds the number loses nothing. -/
theorem readDigits_padded {width n : Nat} (hfits : n < 10 ^ width) (acc : Nat) :
    readDigits acc (padded width n) = some (acc * 10 ^ width + n) := by
  induction width generalizing n acc with
  | zero =>
      have hzero : n = 0 := by simpa using hfits
      simp [padded, readDigits, hzero]
  | succ width ih =>
      have hdiv : n / 10 < 10 ^ width := by
        rw [Nat.div_lt_iff_lt_mul (by decide), ← pow_succ]
        exact hfits
      rw [padded, readDigits_append, ih hdiv]
      simp only [Option.bind_some, readDigits, digitValue?_digitChar]
      congr 1
      have hsplit : 10 * (n / 10) + n % 10 = n := Nat.div_add_mod n 10
      calc (acc * 10 ^ width + n / 10) * 10 + n % 10
          = acc * 10 ^ (width + 1) + (10 * (n / 10) + n % 10) := by ring
        _ = acc * 10 ^ (width + 1) + n := by rw [hsplit]

theorem padded_injective {width m n : Nat} (hm : m < 10 ^ width)
    (hn : n < 10 ^ width) (heq : padded width m = padded width n) : m = n := by
  have hread := readDigits_padded hm 0
  rw [heq, readDigits_padded hn 0] at hread
  simpa using hread.symm

/-- Parse an unsigned numeral: at least one digit, with an optional plus sign. -/
def parseUnsigned : List Char → Option Nat
  | [] => none
  | '+' :: digits => if digits = [] then none else readDigits 0 digits
  | digits => readDigits 0 digits

theorem parseUnsigned_padded {width n : Nat} (hwidth : 0 < width)
    (hfits : n < 10 ^ width) : parseUnsigned (padded width n) = some n := by
  have hread : readDigits 0 (padded width n) = some n := by
    simpa using readDigits_padded hfits 0
  have hlength := padded_length width n
  cases hdigits : padded width n with
  | nil => simp [hdigits] at hlength; omega
  | cons c rest =>
      rw [hdigits] at hread
      have hplus : c ≠ '+' := by
        rintro rfl
        have hbad : digitValue? '+' = none := by decide
        simp [readDigits, hbad] at hread
      rw [parseUnsigned]
      · exact hread
      · simp
      · intro digits h
        exact hplus (List.cons.inj h).1

/-- Parse a numeral with an optional sign. -/
def parseSigned : List Char → Option Int
  | '-' :: digits => if digits = [] then none else (readDigits 0 digits).map fun n => -(n : Int)
  | text => (parseUnsigned text).map Int.ofNat

/-- Digits of a number without padding, by at most `fuel` divisions. -/
def digitsWithin : Nat → Nat → List Char
  | 0, _ => []
  | fuel + 1, n =>
      if n < 10 then [digitChar n] else digitsWithin fuel (n / 10) ++ [digitChar n]

/-- The decimal numeral of a number. -/
def digits (n : Nat) : List Char := digitsWithin (n + 1) n

def isDigit (c : Char) : Bool := (digitValue? c).isSome

theorem isDigit_digitChar (n : Nat) : isDigit (digitChar n) = true := by
  rw [isDigit, digitValue?_digitChar]
  rfl

theorem digitsWithin_isDigit (fuel n : Nat) : ∀ c ∈ digitsWithin fuel n, isDigit c := by
  induction fuel generalizing n with
  | zero => simp [digitsWithin]
  | succ fuel ih =>
      intro c hc
      rw [digitsWithin] at hc
      split_ifs at hc
      · rw [List.mem_singleton] at hc
        exact hc ▸ isDigit_digitChar n
      · rcases List.mem_append.mp hc with hc | hc
        · exact ih _ c hc
        · rw [List.mem_singleton] at hc
          exact hc ▸ isDigit_digitChar n

theorem digits_isDigit (n : Nat) : ∀ c ∈ digits n, isDigit c := digitsWithin_isDigit _ n

theorem readDigits_digitsWithin {fuel n : Nat} (hfuel : n < fuel) :
    readDigits 0 (digitsWithin fuel n) = some n := by
  induction fuel generalizing n with
  | zero => exact absurd hfuel (Nat.not_lt_zero n)
  | succ fuel ih =>
      rw [digitsWithin]
      split_ifs with hsmall
      · simp [readDigits, digitValue?_digitChar, Nat.mod_eq_of_lt hsmall]
      · rw [readDigits_append, ih (by omega)]
        simp only [Option.bind_some, readDigits, digitValue?_digitChar]
        congr 1
        omega

theorem readDigits_digits (n : Nat) : readDigits 0 (digits n) = some n :=
  readDigits_digitsWithin (Nat.lt_succ_self n)

/-- A numeral has a first digit, and it is zero only for zero. -/
theorem digitsWithin_head {fuel n : Nat} (hfuel : n < fuel) :
    ∃ c rest, digitsWithin fuel n = c :: rest ∧ (c = '0' → n = 0 ∧ rest = []) := by
  induction fuel generalizing n with
  | zero => exact absurd hfuel (Nat.not_lt_zero n)
  | succ fuel ih =>
      rw [digitsWithin]
      split_ifs with hsmall
      · refine ⟨digitChar n, [], rfl, fun hzero => ⟨?_, rfl⟩⟩
        have hvalue := digitValue?_digitChar n
        have hread : digitValue? '0' = some 0 := by decide
        rw [hzero, hread, Nat.mod_eq_of_lt hsmall] at hvalue
        exact (Option.some.inj hvalue).symm
      · obtain ⟨c, rest, hcons, hzero⟩ := ih (n := n / 10) (by omega)
        refine ⟨c, rest ++ [digitChar n], by rw [hcons, List.cons_append], fun hc => ?_⟩
        have := (hzero hc).1
        omega

theorem digits_head (n : Nat) :
    ∃ c rest, digits n = c :: rest ∧ (c = '0' → n = 0 ∧ rest = []) :=
  digitsWithin_head (Nat.lt_succ_self n)

example : padded 5 407 = ['0', '0', '4', '0', '7'] := by decide

end Decimal
