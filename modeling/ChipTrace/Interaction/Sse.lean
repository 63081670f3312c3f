/-
The reader of captured event streams: lines are collected into events, and an
event ends at a blank line or at a boundary recovered from what follows it.
-/
import ChipTrace.Lib.Json.Basic
import ChipTrace.Lib.Json.Text
import ChipTrace.Lib.Lines

namespace ChipTrace.ModelInteraction

structure SseEvent where
  index : Nat
  event : Option (List Char)
  dataRaw : List Char
  data : Option Json
  byteStart : Nat
  byteEnd : Nat
  deriving DecidableEq

/-- What the reader holds between two lines. -/
structure SseReader where
  events : List SseEvent := []
  eventName : Option (List Char) := none
  dataLines : List (List Char) := []
  eventStart : Option Nat := none
  eventEnd : Nat := 0
  done : Bool := false
  malformed : Nat := 0
  recoveredBoundaries : Nat := 0
  byteOffset : Nat := 0
  deriving DecidableEq

structure SseParseResult where
  events : List SseEvent
  done : Bool
  malformed : Nat
  recoveredBoundaries : Nat
  deriving DecidableEq

def doneMarker : List Char := ['[', 'D', 'O', 'N', 'E', ']']

def eventField : List Char := ['e', 'v', 'e', 'n', 't']

def dataField : List Char := ['d', 'a', 't', 'a']

/-- The data lines of an event as one text. -/
def joinLines (lines : List (List Char)) : List Char := ['\n'].intercalate lines

def isContainer (value : Json) : Bool := value.isObject || value.asArray.isSome

section Reader

variable (fromStr : List Char → Option Json)

/-- Ends the pending event; an event without data is dropped. The flag tells whether the
data could be read. -/
def SseReader.flush (reader : SseReader) : SseReader × Bool :=
  let reset := { reader with
    dataLines := [], eventName := none, eventStart := none, eventEnd := 0 }
  if reader.dataLines = [] then (reset, false)
  else
    let dataRaw := joinLines reader.dataLines
    if Text.trimChars dataRaw = doneMarker then ({ reset with done := true }, true)
    else
      let data := fromStr dataRaw
      let event : SseEvent :=
        { index := reader.events.length
          event := reader.eventName
          dataRaw := dataRaw
          data := data
          byteStart := reader.eventStart.getD 0
          byteEnd := reader.eventEnd }
      ({ reset with
          events := reader.events ++ [event]
          malformed := reader.malformed + (if data.isSome then 0 else 1) },
        data.isSome)

/-- Ends the pending event at a boundary that no blank line marks. -/
def SseReader.recover (reader : SseReader) : SseReader :=
  let (flushed, valid) := reader.flush fromStr
  if valid then { flushed with recoveredBoundaries := flushed.recoveredBoundaries + 1 }
  else flushed

/-- The text is a whole JSON object or array. -/
def isComplete (text : List Char) : Bool := (fromStr text).any isContainer

/-- A line of the stream that ends at the byte `lineEnd`. -/
def SseReader.line (reader : SseReader) (lineStart lineEnd : Nat) (line : List Char) :
    SseReader :=
  if line = [] then (SseReader.flush fromStr { reader with eventEnd := lineEnd }).1
  else if (eventField ++ [':']).isPrefixOf line then
    let before := if reader.dataLines ≠ [] then reader.recover fromStr else reader
    { before with
        eventStart := some lineStart
        eventEnd := lineEnd
        eventName := some (Text.trimChars (line.drop 6)) }
  else if (dataField ++ [':']).isPrefixOf line then
    let pendingIsComplete :=
      reader.dataLines ≠ [] && isComplete fromStr (joinLines reader.dataLines)
    let next := Text.trimStart (line.drop 5)
    let nextIsComplete := next = doneMarker || isComplete fromStr next
    let before := if pendingIsComplete && nextIsComplete then reader.recover fromStr else reader
    { before with
        eventStart := some (before.eventStart.getD lineStart)
        eventEnd := lineEnd
        dataLines := before.dataLines ++ [next] }
  else if reader.eventStart.isSome then { reader with eventEnd := lineEnd }
  else reader

def SseReader.readLine (reader : SseReader) (rawLine : List Char) : SseReader :=
  let lineStart := reader.byteOffset
  let lineEnd := lineStart + Text.byteLength rawLine
  SseReader.line fromStr { reader with byteOffset := lineEnd } lineStart lineEnd
    (Text.lineOf rawLine)

def parseSse (raw : List Char) : SseParseResult :=
  let reader := (Text.splitInclusive raw).foldl (SseReader.readLine fromStr) {}
  let last := (reader.flush fromStr).1
  { events := last.events
    done := last.done
    malformed := last.malformed
    recoveredBoundaries := last.recoveredBoundaries }

end Reader

end ChipTrace.ModelInteraction
