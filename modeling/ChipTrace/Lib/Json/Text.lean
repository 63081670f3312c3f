/-
JSON text: the compact printer and a parser with a nesting budget.  The parser
accepts insignificant whitespace and every string escape; numerals that are not
integers are rejected.
-/
import ChipTrace.Lib.Json.Basic
import ChipTrace.Lib.Decimal

namespace Json

/-- A lower-case hexadecimal digit. -/
def hexDigit (n : Nat) : Char :=
  if n % 16 < 10 then Char.ofNat (48 + n % 16) else Char.ofNat (87 + n % 16)

def hexValue? (c : Char) : Option Nat :=
  if '0' ≤ c ∧ c ≤ '9' then some (c.toNat - 48)
  else if 'a' ≤ c ∧ c ≤ 'f' then some (c.toNat - 87)
  else if 'A' ≤ c ∧ c ≤ 'F' then some (c.toNat - 55)
  else none

/-- The printed form of one character of a string. -/
def escapeChar (c : Char) : List Char :=
  if c = '"' then ['\\', '"']
  else if c = '\\' then ['\\', '\\']
  else if c = '\x08' then ['\\', 'b']
  else if c = '\x0c' then ['\\', 'f']
  else if c = '\n' then ['\\', 'n']
  else if c = '\r' then ['\\', 'r']
  else if c = '\t' then ['\\', 't']
  else if c.toNat < 32 then
    ['\\', 'u', '0', '0', hexDigit (c.toNat / 16), hexDigit (c.toNat % 16)]
  else [c]

def printString (s : String) : List Char :=
  '"' :: (s.toList.flatMap escapeChar ++ ['"'])

def printNumber (n : Int) : List Char :=
  if n < 0 then '-' :: Decimal.digits n.natAbs else Decimal.digits n.natAbs

mutual

/-- The compact text of a value. -/
def print : Json → List Char
  | .null => ['n', 'u', 'l', 'l']
  | .bool true => ['t', 'r', 'u', 'e']
  | .bool false => ['f', 'a', 'l', 's', 'e']
  | .num n => printNumber n
  | .str s => printString s
  | .arr [] => ['[', ']']
  | .arr (item :: rest) => '[' :: (print item ++ printItems rest)
  | .obj [] => ['{', '}']
  | .obj ((key, value) :: rest) =>
      '{' :: (printString key ++ ':' :: (print value ++ printFields rest))

/-- The items after the first one, and the closing bracket. -/
def printItems : List Json → List Char
  | [] => [']']
  | item :: rest => ',' :: (print item ++ printItems rest)

/-- The fields after the first one, and the closing brace. -/
def printFields : List (String × Json) → List Char
  | [] => ['}']
  | (key, value) :: rest =>
      ',' :: (printString key ++ ':' :: (print value ++ printFields rest))

end

def isSpace (c : Char) : Bool := c == ' ' || c == '\n' || c == '\t' || c == '\r'

def skipSpace (text : List Char) : List Char := text.dropWhile isSpace

def hex4? (a b c d : Char) : Option Nat := do
  let a ← hexValue? a
  let b ← hexValue? b
  let c ← hexValue? c
  let d ← hexValue? d
  pure (a * 4096 + b * 256 + c * 16 + d)

/-- What a one-letter escape stands for. -/
def escaped? (c : Char) : Option Char :=
  if c = '"' then some '"'
  else if c = '\\' then some '\\'
  else if c = '/' then some '/'
  else if c = 'b' then some '\x08'
  else if c = 'f' then some '\x0c'
  else if c = 'n' then some '\n'
  else if c = 'r' then some '\r'
  else if c = 't' then some '\t'
  else none

def consChar (c : Char) (parsed : List Char × List Char) : List Char × List Char :=
  (c :: parsed.1, parsed.2)

/-- The characters of a string up to its closing quote, and the rest.  After an
escaped high surrogate only an escaped low surrogate may follow. -/
def parseStringBody : Option Nat → List Char → Option (List Char × List Char)
  | some high, '\\' :: 'u' :: a :: b :: c :: d :: rest =>
      match hex4? a b c d with
      | none => none
      | some low =>
          if 0xDC00 ≤ low ∧ low ≤ 0xDFFF then
            (parseStringBody none rest).map
              (consChar (Char.ofNat (0x10000 + (high - 0xD800) * 1024 + (low - 0xDC00))))
          else none
  | some _, _ => none
  | none, '\\' :: 'u' :: a :: b :: c :: d :: rest =>
      match hex4? a b c d with
      | none => none
      | some code =>
          if 0xDC00 ≤ code ∧ code ≤ 0xDFFF then none
          else if 0xD800 ≤ code ∧ code ≤ 0xDBFF then parseStringBody (some code) rest
          else (parseStringBody none rest).map (consChar (Char.ofNat code))
  | none, '\\' :: c :: rest =>
      match escaped? c with
      | none => none
      | some c => (parseStringBody none rest).map (consChar c)
  | none, c :: rest =>
      if c = '"' then some ([], rest)
      else if c.toNat < 32 ∨ c = '\\' then none
      else (parseStringBody none rest).map (consChar c)
  | none, [] => none

/-- An integer numeral: no superfluous zero, no fraction, no exponent. -/
def parseNumeral (text : List Char) : Option (Nat × List Char) :=
  let numeral := text.takeWhile Decimal.isDigit
  let rest := text.dropWhile Decimal.isDigit
  match numeral with
  | [] => none
  | first :: more =>
      if first = '0' ∧ more ≠ [] then none
      else match rest with
        | '.' :: _ => none
        | 'e' :: _ => none
        | 'E' :: _ => none
        | rest => (Decimal.readDigits 0 numeral).map fun n => (n, rest)

mutual

/-- One value and the text after it.  Arrays and objects are opened only while
`budget` is above one. -/
def parseValue (fuel budget : Nat) (text : List Char) : Option (Json × List Char) :=
  match fuel with
  | 0 => none
  | fuel + 1 =>
      match skipSpace text with
      | 'n' :: 'u' :: 'l' :: 'l' :: rest => some (.null, rest)
      | 't' :: 'r' :: 'u' :: 'e' :: rest => some (.bool true, rest)
      | 'f' :: 'a' :: 'l' :: 's' :: 'e' :: rest => some (.bool false, rest)
      | '"' :: rest =>
          (parseStringBody none rest).map fun (body, rest) => (.str (String.ofList body), rest)
      | '-' :: rest =>
          -- minus zero is a floating-point number
          match parseNumeral rest with
          | none => none
          | some (0, _) => none
          | some (n + 1, rest) => some (.num (Int.negSucc n), rest)
      | '[' :: rest =>
          if budget ≤ 1 then none
          else match skipSpace rest with
            | ']' :: rest => some (.arr [], rest)
            | rest => (parseItems fuel (budget - 1) rest).map fun (items, rest) =>
                (.arr items, rest)
      | '{' :: rest =>
          if budget ≤ 1 then none
          else match skipSpace rest with
            | '}' :: rest => some (.obj [], rest)
            | rest => (parseFields fuel (budget - 1) rest).map fun (fields, rest) =>
                (mkObj fields, rest)
      | rest => (parseNumeral rest).map fun (n, rest) => (.num (Int.ofNat n), rest)

/-- One or more items up to the closing bracket. -/
def parseItems (fuel budget : Nat) (text : List Char) :
    Option (List Json × List Char) :=
  match fuel with
  | 0 => none
  | fuel + 1 =>
      match parseValue fuel budget text with
      | none => none
      | some (item, rest) =>
          match skipSpace rest with
          | ']' :: rest => some ([item], rest)
          | ',' :: rest => (parseItems fuel budget rest).map fun (items, rest) =>
              (item :: items, rest)
          | _ => none

/-- One or more fields up to the closing brace. -/
def parseFields (fuel budget : Nat) (text : List Char) :
    Option (List (String × Json) × List Char) :=
  match fuel with
  | 0 => none
  | fuel + 1 =>
      match skipSpace text with
      | '"' :: rest =>
          match parseStringBody none rest with
          | none => none
          | some (key, rest) =>
              match skipSpace rest with
              | ':' :: rest =>
                  match parseValue fuel budget rest with
                  | none => none
                  | some (value, rest) =>
                      match skipSpace rest with
                      | '}' :: rest => some ([(String.ofList key, value)], rest)
                      | ',' :: rest =>
                          (parseFields fuel budget rest).map fun (fields, rest) =>
                            ((String.ofList key, value) :: fields, rest)
                      | _ => none
              | _ => none
      | _ => none

end

/-- Nesting of 127 levels is the deepest that is read. -/
def recursionLimit : Nat := 128

/-- A whole text: one value with nothing but whitespace around it. -/
def parse (text : List Char) : Option Json :=
  match parseValue (2 * text.length + 2) recursionLimit text with
  | some (value, rest) => if skipSpace rest = [] then some value else none
  | none => none

end Json
