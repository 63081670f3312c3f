/-
A page of a Turn file: the file is read once, every line of it is checked, and the byte ranges of
the selected lines are kept.
-/
import ChipTrace.Lib.ByteLines
import ChipTrace.Lib.Json.Basic

namespace ChipTrace.Turns

section Reading

/-- How the reads of a file split it. -/
structure Reads (content : Bytes) where
  chunks : List Bytes
  flatten_eq : chunks.flatten = content
  ne_nil : ∀ chunk ∈ chunks, chunk ≠ []

/-- A reader of a file that checks what it reads: `chunks` is what the next reads give. -/
structure CheckedReader where
  chunks : List Bytes
  digested : Bytes := []
  bytes : Nat := 0
  limit : Nat
  utf8 : Bytes := []

def notUtf8 : String := "JSON evidence must be valid UTF-8"

def CheckedReader.read (reader : CheckedReader) : Except String (Bytes × CheckedReader) :=
  let chunk := reader.chunks.headD []
  let bytes := reader.bytes + chunk.length
  let next := { reader with
    chunks := reader.chunks.tail
    digested := reader.digested ++ chunk
    bytes := bytes }
  if reader.limit < bytes then .error "JSON evidence grew"
  else
    match Bytes.utf8Check (reader.utf8 ++ chunk) with
    | .valid => .ok (chunk, { next with utf8 := [] })
    | .unfinished rest =>
        if chunk = [] then .error notUtf8 else .ok (chunk, { next with utf8 := rest })
    | .invalid => .error notUtf8

structure BufReader where
  buffer : Bytes := []
  inner : CheckedReader

def BufReader.fillBuf (reader : BufReader) : Except String BufReader :=
  if reader.buffer = [] then do
    let (chunk, inner) ← reader.inner.read
    pure ⟨chunk, inner⟩
  else pure reader

def BufReader.consume (reader : BufReader) (count : Nat) : BufReader :=
  { reader with buffer := reader.buffer.drop count }

structure JsonLine where
  inner : BufReader
  bytes : Nat := 0
  newline : Bool := false

/-- A read into a buffer of some length. -/
def JsonLine.read (line : JsonLine) (length : Nat) : Except String (Bytes × JsonLine) :=
  if line.newline || decide (length = 0) then .ok ([], line)
  else do
    let inner ← line.inner.fillBuf
    let count := min length inner.buffer.length
    match (inner.buffer.take count).findIdx? (· == 10) with
    | some index =>
        pure (inner.buffer.take (index + 1),
          ⟨inner.consume (index + 1), line.bytes + (index + 1), true⟩)
    | none => pure (inner.buffer.take count, ⟨inner.consume count, line.bytes + count, false⟩)

/-- The reads of a parser that asks for `wants` and one more byte, up to the end of the line. -/
def JsonLine.readAll (wants : Bytes → Nat) :
    Nat → Bytes → JsonLine → Except String (Bytes × JsonLine)
  | 0, text, line => .ok (text, line)
  | fuel + 1, text, line => do
      let (more, line) ← line.read (wants text + 1)
      if more = [] then pure (text, line) else readAll wants fuel (text ++ more) line

end Reading

section Pages

structure Row where
  start : Nat
  bytes : Nat
  deriving DecidableEq

def Row.toJson (row : Row) : Json :=
  Json.mkObj [("start", .num row.start), ("bytes", .num row.bytes)]

structure TurnPage where
  offset : Nat
  limit : Nat
  records : Nat
  bytes : Nat
  sha256 : String
  rows : List Row

def TurnPage.toJson (page : TurnPage) : Json :=
  Json.mkObj [
    ("schema_version", .str "chiptrace.turn-page-metadata.v1"),
    ("session_delivery_claimed", .bool false),
    ("offset", .num page.offset),
    ("limit", .num page.limit),
    ("evidence", Json.mkObj [("records", .num page.records), ("bytes", .num page.bytes),
      ("sha256", .str page.sha256)]),
    ("rows", .arr (page.rows.map Row.toJson))]

structure Scan where
  reader : BufReader
  records : Nat := 0
  position : Nat := 0
  rows : List Row := []

variable (accepts : Bytes → Bool) (wants : Bytes → Nat) (sha256 : Bytes → String)
variable (offset limit : Nat)

def Scan.readRecord (scan : Scan) : Except String Scan := do
  let (text, line) ← JsonLine.readAll wants (scan.reader.inner.limit + 1) [] ⟨scan.reader, 0, false⟩
  if !accepts text then .error "validate Turn JSONL record"
  else
    let row : Row := ⟨scan.position, line.bytes - (if line.newline then 1 else 0)⟩
    pure {
      reader := line.inner
      records := scan.records + 1
      position := scan.position + line.bytes
      rows :=
        if offset ≤ scan.records && decide (scan.records - offset < limit) then scan.rows ++ [row]
        else scan.rows }

/-- One record after another, at most `fuel`, as long as there are bytes. -/
def Scan.run : Nat → Scan → Except String Scan
  | 0, scan => .ok scan
  | fuel + 1, scan => do
      let reader ← scan.reader.fillBuf
      if reader.buffer = [] then pure { scan with reader := reader }
      else
        let scan ← Scan.readRecord accepts wants offset limit { scan with reader := reader }
        Scan.run fuel scan

variable {content : Bytes}

def turnPage (reads : Reads content) (maxBytes : Nat) : Except String TurnPage := do
  if limit = 0 || decide (100 < limit) || maxBytes = 0 then
    .error "Turn page limits must be positive; at most 100 rows may be selected"
  else if maxBytes < content.length then .error "JSON evidence exceeds byte limit"
  else
    let scan ← Scan.run accepts wants offset limit (content.length + 1)
      { reader := { inner := { chunks := reads.chunks, limit := content.length } } }
    let read := scan.reader.inner
    if read.bytes ≠ content.length then .error "JSON evidence changed during inspection"
    else if scan.position ≠ read.bytes then .error "Turn JSONL byte count is inconsistent"
    else pure ⟨offset, limit, scan.records, read.bytes, sha256 read.digested, scan.rows⟩

def turnPageMetadata (reads : Reads content) (maxBytes : Nat) : Except String Json :=
  (turnPage accepts wants sha256 offset limit reads maxBytes).map TurnPage.toJson

end Pages

end ChipTrace.Turns
