/-
The capture envelope: a JSON object read through typed getters, with the header
and identifier syntax that its normalisation looks at.
-/
import ChipTrace.Lib.Bytes
import ChipTrace.Lib.Json.Text
import ChipTrace.Lib.Text

namespace ChipTrace

def captureSchemaVersion : String := "chiptrace.capture.v2"

/-- The fields of a JSON object. -/
abbrev JsonMap := List (String × Json)

namespace JsonMap

abbrev get (object : JsonMap) (key : String) : Option Json := OrdMap.lookup key object

abbrev insert (object : JsonMap) (key : String) (value : Json) : JsonMap :=
  OrdMap.insert key value object

abbrev remove (object : JsonMap) (key : String) : JsonMap := OrdMap.erase key object

variable {object : JsonMap} {key other : String} {value : Json}

theorem get_insert : (object.insert key value).get other =
    if other = key then some value else object.get other :=
  OrdMap.lookup_insert key other value object

theorem get_insert_self : (object.insert key value).get key = some value :=
  OrdMap.lookup_insert_self key value object

theorem get_insert_of_ne (hne : other ≠ key) :
    (object.insert key value).get other = object.get other :=
  OrdMap.lookup_insert_of_ne hne value object

theorem insert_eq_self (hsorted : OrdMap.Sorted object) (hget : object.get key = some value) :
    object.insert key value = object := OrdMap.insert_eq_self hsorted hget

theorem get_remove_self (hsorted : OrdMap.Sorted object) : (object.remove key).get key = none :=
  OrdMap.lookup_erase_self hsorted

theorem get_remove_of_ne (hne : other ≠ key) :
    (object.remove key).get other = object.get other := OrdMap.lookup_erase_of_ne hne object

def containsKey (object : JsonMap) (key : String) : Bool := (object.get key).isSome

/-- Keep the value of a key that is there, else store this one. -/
def orInsert (object : JsonMap) (key : String) (value : Json) : JsonMap :=
  if object.containsKey key then object else object.insert key value

theorem get_orInsert : (object.orInsert key value).get other =
    if other = key then some ((object.get key).getD value) else object.get other := by
  rw [orInsert, containsKey]
  cases hget : object.get key with
  | none =>
      rw [Option.isSome_none, if_neg (by simp), get_insert]
      rfl
  | some stored =>
      rw [Option.isSome_some, if_pos rfl]
      split_ifs with hkey
      · rw [hkey, hget, Option.getD_some]
      · rfl

theorem get_orInsert_of_ne (hne : other ≠ key) :
    (object.orInsert key value).get other = object.get other := by
  rw [get_orInsert, if_neg hne]

/-- Storing a missing field changes the object. -/
theorem orInsert_eq_self : object.orInsert key value = object ↔ object.containsKey key = true := by
  rw [orInsert]
  constructor
  · intro h
    by_contra hmissing
    rw [if_neg hmissing] at h
    have hget : object.get key = some value := by
      rw [← h]
      exact get_insert_self
    exact hmissing (by rw [containsKey, hget]; rfl)
  · intro h
    rw [if_pos h]

def str? (object : JsonMap) (key : String) : Option String := (object.get key).bind Json.asStr

def u64? (object : JsonMap) (key : String) : Option Nat := (object.get key).bind Json.asU64

def i64? (object : JsonMap) (key : String) : Option Int := (object.get key).bind Json.asI64

def bool? (object : JsonMap) (key : String) : Option Bool := (object.get key).bind Json.asBool

def array? (object : JsonMap) (key : String) : Option (List Json) :=
  (object.get key).bind Json.asArray

def object? (object : JsonMap) (key : String) : Option JsonMap :=
  (object.get key).bind Json.asObject

/-- The text of a key when it is not blank. -/
def filled? (object : JsonMap) (key : String) : Option String :=
  (object.str? key).filter fun value => !Text.isBlank value

end JsonMap

/-- Why an envelope is refused: the JSON reader's own error, a message, a message
that quotes the unsupported value of a field, or a message put in front of another
error. -/
inductive CaptureError where
  | json
  | message (text : String)
  | unsupported (field value : String)
  | context (text : String) (cause : CaptureError)
  deriving DecidableEq, Repr

/-- A check of an envelope. -/
abbrev Checked := Except CaptureError Unit

def bail {α : Type} (text : String) : Except CaptureError α := .error (.message text)

def bailIf (refused : Bool) (text : String) : Checked := if refused then bail text else .ok ()

def okOr {α : Type} (value : Option α) (text : String) : Except CaptureError α :=
  match value with
  | some value => .ok value
  | none => bail text

@[simp] theorem bailIf_eq_ok {refused : Bool} {text : String} :
    bailIf refused text = .ok () ↔ refused = false := by
  cases refused <;> simp [bailIf, bail]

@[simp] theorem okOr_eq_ok {α : Type} {value : Option α} {text : String} {result : α} :
    okOr value text = .ok result ↔ value = some result := by
  cases value <;> simp [okOr, bail]

def requireFilled (object : JsonMap) (field text : String) : Checked :=
  bailIf (object.filled? field).isNone text

def parseText (text : String) : Option Json := Json.parse text.toList

def readJson (text : String) : Except CaptureError Json :=
  match parseText text with
  | some value => .ok value
  | none => .error .json

/-- Put a message in front of an error. -/
def withContext {α : Type} (result : Except CaptureError α) (text : String) :
    Except CaptureError α :=
  match result with
  | .ok value => .ok value
  | .error cause => .error (.context text cause)

def textBytes (text : String) : Bytes := Bytes.encode text.toList

def parseBytes (raw : Bytes) : Option Json := (Bytes.decode? raw).bind Json.parse

/-- The bytes that a value is written as. -/
def jsonBytes (value : Json) : Bytes := Bytes.encode (Json.print value)

section Syntax

def isAsciiAlphanumeric (c : Char) : Bool :=
  Decimal.isDigit c || ('a' ≤ c && c ≤ 'z') || ('A' ≤ c && c ≤ 'Z')

/-- `^cap-[A-Za-z0-9._:-]+$` -/
def isCaptureId (id : String) : Bool :=
  match id.toList with
  | 'c' :: 'a' :: 'p' :: '-' :: rest =>
      !rest.isEmpty && rest.all fun c =>
        isAsciiAlphanumeric c || c == '.' || c == '_' || c == ':' || c == '-'
  | _ => false

def isHexDigit (c : Char) : Bool :=
  Decimal.isDigit c || ('a' ≤ c && c ≤ 'f') || ('A' ≤ c && c ≤ 'F')

/-- `[0-9a-fA-F]{n}`, with the text behind it. -/
def takeHex (n : Nat) (text : List Char) : Option (String × List Char) :=
  if n ≤ text.length && (text.take n).all isHexDigit then
    some (String.ofList (text.take n), text.drop n)
  else none

def takeDash : List Char → Option (List Char)
  | '-' :: rest => some rest
  | _ => none

structure TraceParent where
  version : String
  trace : String
  parent : String
  flags : String
  deriving DecidableEq

/-- `(?:-.+)?$` -/
def endsTraceParent : List Char → Bool
  | [] => true
  | '-' :: rest => !rest.isEmpty && !rest.contains '\n'
  | _ => false

/-- The named groups of a `traceparent` header. -/
def TraceParent.captures (text : String) : Option TraceParent := do
  let (version, rest) ← takeHex 2 text.toList
  let (trace, rest) ← takeHex 32 (← takeDash rest)
  let (parent, rest) ← takeHex 16 (← takeDash rest)
  let (flags, rest) ← takeHex 2 (← takeDash rest)
  if endsTraceParent rest then some ⟨version, trace, parent, flags⟩ else none

end Syntax

section Headers

def sensitiveHeaders : List String :=
  ["api-key", "authorization", "cookie", "proxy-authorization", "set-cookie", "x-api-key",
    "x-auth-token"]

def isSensitive (name : String) : Bool := sensitiveHeaders.contains (Text.asciiLower name)

def equalsIgnoreCase (left right : String) : Bool :=
  Text.asciiLower left == Text.asciiLower right

/-- The first text among the headers of this name in any case. -/
def headerValue (headers : JsonMap) (name : String) : Option String :=
  headers.findSome? fun (key, value) =>
    if equalsIgnoreCase key name then value.asStr else none

/-- Headers without the credentials carry the same value for any other name. -/
theorem headerValue_filter {headers : JsonMap} {name : String}
    (hpublic : isSensitive name = false) :
    headerValue (headers.filter fun field => !isSensitive field.1) name =
      headerValue headers name := by
  induction headers with
  | nil => rfl
  | cons field rest ih =>
      obtain ⟨key, value⟩ := field
      simp only [headerValue] at ih ⊢
      by_cases hkey : isSensitive key = true
      · have hother : equalsIgnoreCase key name = false := by
          rw [equalsIgnoreCase, beq_eq_false_iff_ne]
          intro hsame
          rw [isSensitive, hsame] at hkey
          rw [isSensitive, hkey] at hpublic
          cases hpublic
        rw [List.filter_cons_of_neg (by simpa using hkey), ih, List.findSome?_cons, hother]
        rfl
      · rw [List.filter_cons_of_pos (by simpa using hkey), List.findSome?_cons,
          List.findSome?_cons, ih]

end Headers

/-- The value inside a captured body's wrapper, or the body itself. -/
def extractBody (value : Option Json) : Option Json :=
  match value with
  | none => none
  | some value =>
      match (value.get? "kind").bind Json.asStr with
      | some "json" | some "text" | some "binary" | some "sse" => value.get? "value"
      | _ => some value

def validateOptionalString (object : JsonMap) (field : String) : Checked :=
  bailIf ((object.get field).any fun value => !value.isNull && !value.isString)
    s!"{field} must be a string or null"

theorem validateOptionalString_congr {object other : JsonMap} {field : String}
    (h : object.get field = other.get field) :
    validateOptionalString object field = validateOptionalString other field := by
  rw [validateOptionalString, h, validateOptionalString]

end ChipTrace
