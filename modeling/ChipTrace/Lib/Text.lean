/-
Text functions on Unicode strings: the white space that trimming removes, ASCII
lower case and substring search.
-/
import Mathlib.Data.List.DropRight
import Mathlib.Data.List.Infix
import Mathlib.Data.String.Basic

namespace Text

/-- The characters with the Unicode property `White_Space`. -/
def isWhitespace (c : Char) : Bool :=
  let n := c.toNat
  (9 ≤ n && n ≤ 13) || n == 0x20 || n == 0x85 || n == 0xA0 || n == 0x1680 ||
    (0x2000 ≤ n && n ≤ 0x200A) || n == 0x2028 || n == 0x2029 || n == 0x202F || n == 0x205F ||
    n == 0x3000

def trimChars (chars : List Char) : List Char :=
  (chars.dropWhile isWhitespace).rdropWhile isWhitespace

def trim (text : String) : String := String.ofList (trimChars text.toList)

/-- Nothing is left of the text after trimming. -/
def isBlank (text : String) : Bool := (trim text).isEmpty

/-- ASCII lower case. -/
def asciiLower (text : String) : String := String.ofList (text.toList.map Char.toLower)

def contains (text pattern : String) : Bool := decide (pattern.toList <:+: text.toList)

def startsWith (text pattern : String) : Bool := pattern.toList.isPrefixOf text.toList

def endsWith (text pattern : String) : Bool := pattern.toList.isSuffixOf text.toList

def stripPrefix? (text pattern : String) : Option String :=
  if startsWith text pattern then some (String.ofList (text.toList.drop pattern.length)) else none

/-- The lines of a text; a line end is a newline with an optional carriage return. -/
def lines (text : String) : List String :=
  let parts := text.toList.splitOn '\n'
  let ended := parts.dropLast.map fun line =>
    if line.getLast? = some '\r' then line.dropLast else line
  (ended ++ (parts.getLast?.filter fun line => !line.isEmpty).toList).map String.ofList

theorem dropWhile_eq_self_of_rdropWhile (p : Char → Bool) (chars : List Char)
    (hstart : chars.dropWhile p = chars) :
    (chars.rdropWhile p).dropWhile p = chars.rdropWhile p := by
  cases hresult : chars.rdropWhile p with
  | nil => rfl
  | cons c rest =>
      have hsub : chars.rdropWhile p <+: chars := List.rdropWhile_prefix p chars
      obtain ⟨tail, htail⟩ := hsub
      rw [hresult] at htail
      have hhead : p c = false := by
        by_contra hc
        rw [Bool.not_eq_false] at hc
        have hshorter : (chars.dropWhile p).length < chars.length := by
          rw [← htail, List.cons_append, List.dropWhile_cons_of_pos hc]
          have hle := List.length_dropWhile_le p (rest ++ tail)
          simp only [List.length_cons]
          omega
        rw [hstart] at hshorter
        exact lt_irrefl _ hshorter
      rw [List.dropWhile_cons_of_neg (by simp [hhead])]

theorem trimChars_trimChars (chars : List Char) :
    trimChars (trimChars chars) = trimChars chars := by
  have hstart : (chars.dropWhile isWhitespace).dropWhile isWhitespace =
      chars.dropWhile isWhitespace := List.dropWhile_idempotent isWhitespace chars
  rw [trimChars, trimChars, dropWhile_eq_self_of_rdropWhile _ _ hstart]
  exact List.rdropWhile_idempotent isWhitespace (chars.dropWhile isWhitespace)

@[simp] theorem trim_trim (text : String) : trim (trim text) = trim text := by
  simp [trim, trimChars_trimChars]

end Text
