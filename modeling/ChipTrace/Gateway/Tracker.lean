/-
The boundaries of a Responses stream: where its terminal events end, as the gateway sees them
chunk by chunk and as they stand in the whole stream.
-/
import ChipTrace.Lib.Bytes
import ChipTrace.Lib.Text

namespace ChipTrace.Gateway

section Text

/-- The characters that trimming and `\s` match. -/
def isJsSpace (c : Char) : Bool :=
  (Text.isWhitespace c && c.toNat != 0x85) || c.toNat == 0xFEFF

def trimStart (chars : List Char) : List Char := chars.dropWhile isJsSpace

def trim (chars : List Char) : List Char := (trimStart chars).rdropWhile isJsSpace

/-- The rest of a text after this prefix. -/
def afterPrefix (text : String) (chars : List Char) : Option (List Char) :=
  if text.toList.isPrefixOf chars then some (chars.drop text.length) else none

def responsesTerminalEvents : List String :=
  ["error", "response.cancelled", "response.canceled", "response.completed", "response.failed",
    "response.incomplete"]

/-- The type of data that starts as an object with a type, else nothing. -/
def dataType (data : List Char) : List Char :=
  let value := do
    let inner ← afterPrefix "\x7b" data
    let colon ← afterPrefix "\"type\"" (trimStart inner)
    let quoted ← afterPrefix ":" (trimStart colon)
    let text ← afterPrefix "\"" (trimStart quoted)
    let value := text.takeWhile (· != '"')
    if value.isEmpty || value.length == text.length then none else some value
  value.getD []

end Text

section Lines

/-- How many bytes of a line are looked at. -/
def sseLinePrefixLimit : Nat := 1024

variable (decode : Bytes → List Char)

/-- The text of a line, without the carriage return at its end. -/
def lineText (line : Bytes) : List Char :=
  let text := decode line
  if text.getLast? = some '\r' then text.dropLast else text

/-- The data of a line. -/
def lineData (line : Bytes) : Option (List Char) :=
  (afterPrefix "data:" (lineText decode line)).map trimStart

/-- The event that is named after a line. -/
def nextEventType (eventType : List Char) (line : Bytes) : List Char :=
  if lineText decode line = [] then []
  else ((afterPrefix "event:" (lineText decode line)).map trim).getD eventType

/-- The terminal event that a line ends, if it ends one. -/
def terminalOf (eventType : List Char) (line : Bytes) : Option (List Char) :=
  if (afterPrefix "event:" (lineText decode line)).isSome then none
  else
    (lineData decode line).bind fun data =>
      let eventType := if eventType = [] then dataType data else eventType
      if responsesTerminalEvents.contains (String.ofList eventType) then some eventType else none

end Lines

structure ResponsesSseBoundaryTracker where
  eventType : List Char := []
  linePrefix : Bytes := []
  lineTruncated : Bool := false
  totalBytes : Nat := 0
  lineStartOffset : Nat := 0
  lineEndOffset : Nat := 0
  protocolTerminalEvent : Option (List Char) := none
  protocolTerminalByteOffset : Option Nat := none
  framingDoneObserved : Bool := false
  framingDoneByteOffset : Option Nat := none
  deriving DecidableEq

structure StreamState where
  protocolTerminalObserved : Bool
  protocolTerminalEvent : Option (List Char)
  protocolTerminalByteOffset : Option Nat
  framingDoneObserved : Bool
  framingDoneByteOffset : Option Nat
  responseBytesObserved : Nat
  responseBoundaryObserved : Bool
  deriving DecidableEq

namespace ResponsesSseBoundaryTracker

variable (decode : Bytes → List Char)

def appendLinePrefix (tracker : ResponsesSseBoundaryTracker) (bytes : Bytes) :
    ResponsesSseBoundaryTracker :=
  let remaining := sseLinePrefixLimit - tracker.linePrefix.length
  { tracker with
    linePrefix := tracker.linePrefix ++ bytes.take remaining
    lineTruncated := tracker.lineTruncated || decide (remaining < bytes.length) }

/-- What a data line says about the end of the stream. -/
def readData (tracker : ResponsesSseBoundaryTracker) (data : List Char) (lineEndOffset : Nat) :
    ResponsesSseBoundaryTracker :=
  let framed :=
    if trim data = "[DONE]".toList then
      { tracker with framingDoneObserved := true, framingDoneByteOffset := some lineEndOffset }
    else tracker
  let eventType := if tracker.eventType = [] then dataType data else tracker.eventType
  if responsesTerminalEvents.contains (String.ofList eventType) then
    { framed with
      protocolTerminalEvent := some eventType
      protocolTerminalByteOffset := some lineEndOffset }
  else framed

def finishLine (tracker : ResponsesSseBoundaryTracker) (lineEndOffset : Nat) :
    ResponsesSseBoundaryTracker :=
  let line := lineText decode tracker.linePrefix
  let read :=
    if line = [] then { tracker with eventType := [] }
    else
      match afterPrefix "event:" line with
      | some name => { tracker with eventType := trim name }
      | none =>
          match afterPrefix "data:" line with
          | some data => tracker.readData (trimStart data) lineEndOffset
          | none => tracker
  { read with linePrefix := [], lineTruncated := false }

/-- The part of a chunk that belongs to one line. -/
def readPart (tracker : ResponsesSseBoundaryTracker) (lineStart lineEnd : Nat) (part : Bytes) :
    ResponsesSseBoundaryTracker :=
  let started :=
    if tracker.linePrefix = [] then { tracker with lineStartOffset := lineStart } else tracker
  { started.appendLinePrefix part with lineEndOffset := lineEnd }

/-- The loop over the lines of a chunk, with the part of a line that was found so far and the
offset where it starts. -/
def readLines (tracker : ResponsesSseBoundaryTracker) (start : Nat) (part : Bytes) :
    Bytes → ResponsesSseBoundaryTracker
  | [] => if part = [] then tracker else tracker.readPart start (start + part.length) part
  | byte :: rest =>
      let next := start + part.length + 1
      if byte = 10 then
        readLines ((tracker.readPart start next part).finishLine decode next) next [] rest
      else readLines tracker start (part ++ [byte]) rest

/-- Nothing but the place of an empty line changes with an empty chunk. -/
def observe (tracker : ResponsesSseBoundaryTracker) (chunk : Bytes) :
    ResponsesSseBoundaryTracker :=
  let counted := { tracker with totalBytes := tracker.totalBytes + chunk.length }
  let read := counted.readLines decode tracker.totalBytes [] chunk
  if chunk = [] && read.linePrefix = [] then
    { read with lineStartOffset := tracker.totalBytes, lineEndOffset := tracker.totalBytes }
  else read

def snapshot (tracker : ResponsesSseBoundaryTracker) : StreamState where
  protocolTerminalObserved := tracker.protocolTerminalEvent.isSome
  protocolTerminalEvent := tracker.protocolTerminalEvent
  protocolTerminalByteOffset := tracker.protocolTerminalByteOffset
  framingDoneObserved := tracker.framingDoneObserved
  framingDoneByteOffset := tracker.framingDoneByteOffset
  responseBytesObserved := tracker.totalBytes
  responseBoundaryObserved :=
    tracker.protocolTerminalEvent.isSome || tracker.framingDoneObserved

end ResponsesSseBoundaryTracker

section Scan

variable (decode : Bytes → List Char)

/-- A stream read byte by byte: what is kept of its line, and where its last terminal ended. -/
structure Scan where
  eventType : List Char
  line : Bytes
  offset : Nat
  terminal : Option Nat

def Scan.start : Scan := ⟨[], [], 0, none⟩

def Scan.feed (scan : Scan) (byte : UInt8) : Scan :=
  if byte = 10 then
    { eventType := nextEventType decode scan.eventType scan.line
      line := []
      offset := scan.offset + 1
      terminal :=
        if (terminalOf decode scan.eventType scan.line).isSome then some (scan.offset + 1)
        else scan.terminal }
  else { scan with
    line := (scan.line ++ [byte]).take sseLinePrefixLimit, offset := scan.offset + 1 }

def Scan.feedAll (scan : Scan) (bytes : Bytes) : Scan := bytes.foldl (Scan.feed decode) scan

/-- A tracker that has kept and found what the scan has. -/
structure Reads (tracker : ResponsesSseBoundaryTracker) (scan : Scan) : Prop where
  eventType : tracker.eventType = scan.eventType
  line : tracker.linePrefix = scan.line
  terminal : tracker.protocolTerminalByteOffset = scan.terminal
  event : tracker.protocolTerminalEvent.isSome = tracker.protocolTerminalByteOffset.isSome
  short : scan.line.length ≤ sseLinePrefixLimit

theorem reads_start : Reads {} Scan.start := ⟨rfl, rfl, rfl, rfl, Nat.zero_le _⟩

end Scan

section Chunks

variable {decode : Bytes → List Char} {tracker : ResponsesSseBoundaryTracker} {scan : Scan}

theorem take_take_append (limit : Nat) (kept more : Bytes) :
    (kept.take limit ++ more).take limit = (kept ++ more).take limit := by
  simp only [List.take_append, List.take_take, Nat.min_self, List.length_take]
  congr 2
  omega

theorem Scan.feedAll_append (scan : Scan) (first last : Bytes) :
    scan.feedAll decode (first ++ last) = (scan.feedAll decode first).feedAll decode last :=
  List.foldl_append

theorem Scan.feed_offset (scan : Scan) (byte : UInt8) :
    (scan.feed decode byte).offset = scan.offset + 1 := by
  rw [Scan.feed]
  split_ifs <;> rfl

theorem Scan.feedAll_offset (scan : Scan) (bytes : Bytes) :
    (scan.feedAll decode bytes).offset = scan.offset + bytes.length := by
  induction bytes generalizing scan with
  | nil => rfl
  | cons byte rest ih =>
      have hrest := ih (scan.feed decode byte)
      rw [Scan.feed_offset] at hrest
      rw [List.length_cons]
      change ((scan.feed decode byte).feedAll decode rest).offset = _
      omega

/-- Within a line only what is kept of it grows. -/
theorem Scan.feedAll_line {scan : Scan} (hshort : scan.line.length ≤ sseLinePrefixLimit)
    {part : Bytes} (hpart : 10 ∉ part) :
    scan.feedAll decode part =
      { scan with
        line := (scan.line ++ part).take sseLinePrefixLimit
        offset := scan.offset + part.length } := by
  induction part generalizing scan with
  | nil =>
      rw [List.append_nil, List.take_of_length_le hshort]
      rfl
  | cons byte rest ih =>
      have hbyte : byte ≠ 10 := fun heq => hpart (heq ▸ List.mem_cons_self)
      have hrest : 10 ∉ rest := fun hmem => hpart (List.mem_cons_of_mem byte hmem)
      have hfed : scan.feed decode byte =
          { scan with
            line := (scan.line ++ [byte]).take sseLinePrefixLimit
            offset := scan.offset + 1 } := by
        rw [Scan.feed, if_neg hbyte]
      have hle : ((scan.line ++ [byte]).take sseLinePrefixLimit).length ≤ sseLinePrefixLimit :=
        List.length_take_le _ _
      change (scan.feed decode byte).feedAll decode rest = _
      rw [hfed, ih hle hrest]
      have hline : ((scan.line ++ [byte]).take sseLinePrefixLimit ++ rest).take
          sseLinePrefixLimit = (scan.line ++ byte :: rest).take sseLinePrefixLimit := by
        rw [take_take_append, ← List.append_cons]
      simp only [hline, List.length_cons]
      congr 1
      omega

theorem Reads.part (hreads : Reads tracker scan) {part : Bytes} (hpart : 10 ∉ part)
    (lineStart lineEnd : Nat) :
    Reads (tracker.readPart lineStart lineEnd part) (scan.feedAll decode part) := by
  rw [Scan.feedAll_line hreads.short hpart]
  have hkept : tracker.linePrefix ++ part.take (sseLinePrefixLimit - tracker.linePrefix.length) =
      (scan.line ++ part).take sseLinePrefixLimit := by
    rw [hreads.line, List.take_append, List.take_of_length_le hreads.short]
  rw [ResponsesSseBoundaryTracker.readPart]
  split_ifs
  · exact ⟨hreads.eventType, hkept, hreads.terminal, hreads.event, List.length_take_le _ _⟩
  · exact ⟨hreads.eventType, hkept, hreads.terminal, hreads.event, List.length_take_le _ _⟩

theorem isSome_ite_some {condition : Prop} [Decidable condition] (value : List Char) :
    (if condition then some value else none).isSome = decide condition := by
  split_ifs with hcondition
  · rw [decide_eq_true hcondition]
    rfl
  · rw [decide_eq_false hcondition]
    rfl

theorem readData_eventType (tracker : ResponsesSseBoundaryTracker) (data : List Char)
    (lineEnd : Nat) : (tracker.readData data lineEnd).eventType = tracker.eventType := by
  rw [ResponsesSseBoundaryTracker.readData]
  split_ifs <;> rfl

theorem readData_terminal (tracker : ResponsesSseBoundaryTracker) (data : List Char)
    (lineEnd : Nat) :
    (tracker.readData data lineEnd).protocolTerminalByteOffset =
      if responsesTerminalEvents.contains
          (String.ofList (if tracker.eventType = [] then dataType data else tracker.eventType)) then
        some lineEnd
      else tracker.protocolTerminalByteOffset := by
  rw [ResponsesSseBoundaryTracker.readData]
  split_ifs <;> rfl

theorem readData_event
    (hevent : tracker.protocolTerminalEvent.isSome = tracker.protocolTerminalByteOffset.isSome)
    (data : List Char) (lineEnd : Nat) :
    (tracker.readData data lineEnd).protocolTerminalEvent.isSome =
      (tracker.readData data lineEnd).protocolTerminalByteOffset.isSome := by
  rw [ResponsesSseBoundaryTracker.readData]
  split_ifs
  all_goals first | rfl | exact hevent

/-- The end of a line is read as the scan reads its newline. -/
theorem Reads.finishLine (decode : Bytes → List Char) (hreads : Reads tracker scan) {lineEnd : Nat}
    (hend : lineEnd = scan.offset + 1) :
    Reads (tracker.finishLine decode lineEnd) (scan.feed decode 10) := by
  have hfed : scan.feed decode 10 =
      { eventType := nextEventType decode scan.eventType scan.line
        line := []
        offset := scan.offset + 1
        terminal :=
          if (terminalOf decode scan.eventType scan.line).isSome then some (scan.offset + 1)
          else scan.terminal } := by
    rw [Scan.feed, if_pos rfl]
  rw [hfed, ResponsesSseBoundaryTracker.finishLine]
  simp only [nextEventType, terminalOf, lineData, ← hreads.line, ← hreads.eventType]
  by_cases hempty : lineText decode tracker.linePrefix = []
  · have hname : afterPrefix "event:" ([] : List Char) = none := rfl
    have hdata : afterPrefix "data:" ([] : List Char) = none := rfl
    simp only [hempty, if_true, hname, hdata, Option.isSome_none, Option.map_none,
      Option.bind_none, Bool.false_eq_true, if_false]
    exact ⟨rfl, rfl, hreads.terminal, hreads.event, Nat.zero_le _⟩
  · simp only [hempty, if_false]
    cases hname : afterPrefix "event:" (lineText decode tracker.linePrefix) with
    | some name =>
        simp only [Option.isSome_some, if_true, Option.isSome_none, Bool.false_eq_true, if_false]
        exact ⟨rfl, rfl, hreads.terminal, hreads.event, Nat.zero_le _⟩
    | none =>
        simp only [Option.isSome_none, Bool.false_eq_true, if_false, Option.map_none,
          Option.getD_none]
        cases hdata : afterPrefix "data:" (lineText decode tracker.linePrefix) with
        | none => exact ⟨rfl, rfl, hreads.terminal, hreads.event, Nat.zero_le _⟩
        | some data =>
            simp only [Option.map_some, Option.bind_some, isSome_ite_some, decide_eq_true_eq]
            refine ⟨readData_eventType _ _ _, rfl, ?_, ?_, Nat.zero_le _⟩
            · rw [readData_terminal, hend, hreads.terminal]
            · exact readData_event hreads.event _ _

theorem Reads.readLines (decode : Bytes → List Char) (hreads : Reads tracker scan)
    {part : Bytes} (hpart : 10 ∉ part) (rest : Bytes) {start : Nat} (hstart : scan.offset = start) :
    Reads (tracker.readLines decode start part rest) (scan.feedAll decode (part ++ rest)) := by
  induction rest generalizing tracker scan part start with
  | nil =>
      rw [List.append_nil, ResponsesSseBoundaryTracker.readLines]
      split_ifs with hnil
      · rw [hnil]
        exact hreads
      · exact hreads.part hpart _ _
  | cons byte rest ih =>
      rw [ResponsesSseBoundaryTracker.readLines]
      split_ifs with hbyte
      · have hoffset : (scan.feedAll decode part).offset = start + part.length := by
          rw [Scan.feedAll_offset, hstart]
        have hline := (hreads.part hpart start (start + part.length + 1)).finishLine
          decode (congrArg (· + 1) hoffset.symm)
        have hnext := ih hline List.not_mem_nil (by rw [Scan.feed_offset, hoffset])
        rw [hbyte, List.append_cons, Scan.feedAll_append, Scan.feedAll_append]
        exact hnext
      · have hmore : (10 : UInt8) ∉ part ++ [byte] := by
          simp only [List.mem_append, List.mem_singleton, not_or]
          exact ⟨hpart, fun heq => hbyte heq.symm⟩
        have hnext := ih hreads hmore hstart
        rw [List.append_assoc, List.singleton_append] at hnext
        exact hnext

/-- Reading a chunk is reading its bytes. -/
theorem Reads.observe (hreads : Reads tracker scan) (hoffset : scan.offset = tracker.totalBytes)
    (chunk : Bytes) :
    Reads (tracker.observe decode chunk) (scan.feedAll decode chunk) := by
  have hcounted : Reads { tracker with totalBytes := tracker.totalBytes + chunk.length } scan :=
    ⟨hreads.eventType, hreads.line, hreads.terminal, hreads.event, hreads.short⟩
  have hread := hcounted.readLines decode List.not_mem_nil chunk hoffset
  rw [List.nil_append] at hread
  rw [ResponsesSseBoundaryTracker.observe]
  split_ifs
  · exact ⟨hread.eventType, hread.line, hread.terminal, hread.event, hread.short⟩
  · exact hread

theorem totalBytes_finishLine (tracker : ResponsesSseBoundaryTracker) (lineEnd : Nat) :
    (tracker.finishLine decode lineEnd).totalBytes = tracker.totalBytes := by
  rw [ResponsesSseBoundaryTracker.finishLine]
  simp only
  split_ifs
  · rfl
  · split
    · rfl
    · split
      · rw [ResponsesSseBoundaryTracker.readData]
        split_ifs <;> rfl
      · rfl

theorem totalBytes_readPart (tracker : ResponsesSseBoundaryTracker) (lineStart lineEnd : Nat)
    (part : Bytes) : (tracker.readPart lineStart lineEnd part).totalBytes = tracker.totalBytes := by
  rw [ResponsesSseBoundaryTracker.readPart]
  split_ifs <;> rfl

theorem totalBytes_readLines (tracker : ResponsesSseBoundaryTracker) (start : Nat)
    (part rest : Bytes) :
    (tracker.readLines decode start part rest).totalBytes = tracker.totalBytes := by
  induction rest generalizing tracker start part with
  | nil =>
      rw [ResponsesSseBoundaryTracker.readLines]
      split_ifs
      · rfl
      · exact totalBytes_readPart _ _ _ _
  | cons byte rest ih =>
      rw [ResponsesSseBoundaryTracker.readLines]
      split_ifs
      · rw [ih, totalBytes_finishLine, totalBytes_readPart]
      · exact ih _ _ _

theorem totalBytes_observe (tracker : ResponsesSseBoundaryTracker) (chunk : Bytes) :
    (tracker.observe decode chunk).totalBytes = tracker.totalBytes + chunk.length := by
  rw [ResponsesSseBoundaryTracker.observe]
  split_ifs
  · exact totalBytes_readLines _ _ _ _
  · exact totalBytes_readLines _ _ _ _

end Chunks

section Streams

variable (decode : Bytes → List Char)

def endedLine (line : Bytes) : Bytes := line ++ [10]

/-- The event that is named after these lines. -/
def eventTypeAfter (lines : List Bytes) : List Char :=
  lines.foldl (fun eventType line => nextEventType decode eventType
    (line.take sseLinePrefixLimit)) []

/-- A terminal event ends with the byte before this offset of the stream. -/
def TerminalEndsAt (stream : Bytes) (offset : Nat) : Prop :=
  ∃ (lines : List Bytes) (line rest : Bytes), (∀ other ∈ lines, 10 ∉ other) ∧ 10 ∉ line ∧
    stream = lines.flatMap endedLine ++ endedLine line ++ rest ∧
    offset = (lines.flatMap endedLine ++ endedLine line).length ∧
    (terminalOf decode (eventTypeAfter decode lines) (line.take sseLinePrefixLimit)).isSome = true

variable {decode}

/-- The scan of whole lines and the start of another one. -/
theorem feedAll_lines (decode : Bytes → List Char) (lines : List Bytes)
    (hlines : ∀ other ∈ lines, 10 ∉ other) {line : Bytes} (hline : 10 ∉ line) :
    ∃ terminal, Scan.start.feedAll decode (lines.flatMap endedLine ++ line) =
      ⟨eventTypeAfter decode lines, line.take sseLinePrefixLimit,
        (lines.flatMap endedLine ++ line).length, terminal⟩ := by
  induction lines using List.reverseRecOn generalizing line with
  | nil =>
      refine ⟨none, ?_⟩
      rw [List.flatMap_nil, List.nil_append, Scan.feedAll_line (Nat.zero_le _) hline]
      simp [Scan.start, eventTypeAfter]
  | append_singleton lines last ih =>
      have hearlier : ∀ other ∈ lines, 10 ∉ other := fun other hother =>
        hlines other (List.mem_append_left _ hother)
      obtain ⟨terminal, hfed⟩ := ih hearlier (hlines last (by simp))
      have hnewline : (lines ++ [last]).flatMap endedLine =
          lines.flatMap endedLine ++ last ++ [10] := by
        simp [endedLine]
      have hended : Scan.feedAll decode ⟨eventTypeAfter decode lines,
          last.take sseLinePrefixLimit, (lines.flatMap endedLine ++ last).length, terminal⟩ [10] =
          { eventType := nextEventType decode (eventTypeAfter decode lines)
              (last.take sseLinePrefixLimit)
            line := []
            offset := (lines.flatMap endedLine ++ last).length + 1
            terminal :=
              if (terminalOf decode (eventTypeAfter decode lines)
                  (last.take sseLinePrefixLimit)).isSome then
                some ((lines.flatMap endedLine ++ last).length + 1)
              else terminal } := by
        change Scan.feed decode _ 10 = _
        rw [Scan.feed, if_pos rfl]
      rw [hnewline, Scan.feedAll_append, Scan.feedAll_append, hfed, hended,
        Scan.feedAll_line (Nat.zero_le _) hline, List.nil_append]
      have heventType : eventTypeAfter decode (lines ++ [last]) =
          nextEventType decode (eventTypeAfter decode lines) (last.take sseLinePrefixLimit) := by
        rw [eventTypeAfter, eventTypeAfter, List.foldl_append]
        rfl
      rw [heventType]
      refine ⟨_, congrArg (fun offset => Scan.mk _ _ offset _) ?_⟩
      simp only [List.length_append, List.length_singleton]

theorem exists_lines (stream : Bytes) :
    ∃ (lines : List Bytes) (line : Bytes), (∀ other ∈ lines, 10 ∉ other) ∧ 10 ∉ line ∧
      stream = lines.flatMap endedLine ++ line := by
  induction stream using List.reverseRecOn with
  | nil => exact ⟨[], [], by simp⟩
  | append_singleton stream byte ih =>
      obtain ⟨lines, line, hlines, hline, rfl⟩ := ih
      by_cases hbyte : byte = 10
      · subst hbyte
        refine ⟨lines ++ [line], [], ?_, List.not_mem_nil, by simp [endedLine]⟩
        intro other hother
        rcases List.mem_append.mp hother with hearlier | hlast
        · exact hlines other hearlier
        · rw [List.mem_singleton.mp hlast]
          exact hline
      · refine ⟨lines, line ++ [byte], hlines, ?_, by simp⟩
        simp only [List.mem_append, List.mem_singleton, not_or]
        exact ⟨hline, fun heq => hbyte heq.symm⟩

theorem terminalEndsAt_le {stream : Bytes} {offset : Nat}
    (hends : TerminalEndsAt decode stream offset) : offset ≤ stream.length := by
  obtain ⟨lines, line, rest, _, _, rfl, rfl, _⟩ := hends
  exact (List.prefix_append _ rest).length_le

theorem TerminalEndsAt.append {stream : Bytes} {offset : Nat}
    (hends : TerminalEndsAt decode stream offset) (more : Bytes) :
    TerminalEndsAt decode (stream ++ more) offset := by
  obtain ⟨lines, line, rest, hlines, hline, rfl, rfl, hterminal⟩ := hends
  exact ⟨lines, line, rest ++ more, hlines, hline, by rw [List.append_assoc], rfl, hterminal⟩

/-- A terminal event that ends within the start of a stream ends there. -/
theorem TerminalEndsAt.of_append {stream more : Bytes} {offset : Nat}
    (hends : TerminalEndsAt decode (stream ++ more) offset) (hle : offset ≤ stream.length) :
    TerminalEndsAt decode stream offset := by
  obtain ⟨lines, line, rest, hlines, hline, hstream, rfl, hterminal⟩ := hends
  obtain ⟨before, hbefore⟩ : lines.flatMap endedLine ++ endedLine line <+: stream :=
    List.prefix_of_prefix_length_le ⟨rest, hstream.symm⟩ (List.prefix_append stream more) hle
  exact ⟨lines, line, before, hlines, hline, hbefore.symm, rfl, hterminal⟩

/-- One more byte ends a terminal event when it is the newline of one. -/
theorem terminalEndsAt_snoc {stream : Bytes} {byte : UInt8} {offset : Nat} :
    TerminalEndsAt decode (stream ++ [byte]) offset ↔
      TerminalEndsAt decode stream offset ∨ (byte = 10 ∧ offset = stream.length + 1 ∧
        (terminalOf decode (Scan.start.feedAll decode stream).eventType
          (Scan.start.feedAll decode stream).line).isSome = true) := by
  constructor
  · intro hends
    rcases Nat.lt_or_ge stream.length offset with hlt | hle
    · obtain ⟨lines, line, rest, hlines, hline, hstream, hoffset, hterminal⟩ := hends
      have hlength := congrArg List.length hstream
      simp only [List.length_append, List.length_singleton] at hlength hoffset
      have hrest : rest = [] := List.eq_nil_of_length_eq_zero (by omega)
      rw [hrest, List.append_nil, endedLine, ← List.append_assoc] at hstream
      obtain ⟨hbefore, hbyte⟩ := List.append_inj' hstream rfl
      obtain ⟨terminal, hfed⟩ := feedAll_lines decode lines hlines hline
      refine Or.inr ⟨List.singleton_inj.mp hbyte, by omega, ?_⟩
      rw [hbefore, hfed]
      exact hterminal
    · exact Or.inl (hends.of_append hle)
  · rintro (hends | ⟨rfl, rfl, hterminal⟩)
    · exact hends.append [byte]
    · obtain ⟨lines, line, hlines, hline, rfl⟩ := exists_lines stream
      obtain ⟨terminal, hfed⟩ := feedAll_lines decode lines hlines hline
      rw [hfed] at hterminal
      refine ⟨lines, line, [], hlines, hline, ?_, ?_, hterminal⟩
      · rw [List.append_nil, endedLine, List.append_assoc]
      · simp only [endedLine, List.length_append, List.length_singleton, Nat.add_assoc]

/-- The scan has the end of the last terminal event. -/
theorem scan_terminal (decode : Bytes → List Char) (stream : Bytes) :
    (∀ offset, (Scan.start.feedAll decode stream).terminal = some offset →
      TerminalEndsAt decode stream offset) ∧
    ∀ offset, TerminalEndsAt decode stream offset →
      ∃ last, (Scan.start.feedAll decode stream).terminal = some last ∧ offset ≤ last := by
  induction stream using List.reverseRecOn with
  | nil =>
      refine ⟨fun offset hnone => absurd hnone (Option.some_ne_none offset).symm, ?_⟩
      rintro offset ⟨lines, line, rest, _, _, hstream, _⟩
      simp [endedLine] at hstream
  | append_singleton stream byte ih =>
      have hoffset : (Scan.start.feedAll decode stream).offset = stream.length := by
        rw [Scan.feedAll_offset, Scan.start, Nat.zero_add]
      have hfed : Scan.start.feedAll decode (stream ++ [byte]) =
          (Scan.start.feedAll decode stream).feed decode byte := Scan.feedAll_append _ _ _
      rw [hfed, Scan.feed]
      by_cases hbyte : byte = 10
      · rw [if_pos hbyte, hoffset]
        by_cases hterminal : (terminalOf decode (Scan.start.feedAll decode stream).eventType
            (Scan.start.feedAll decode stream).line).isSome = true
        · simp only [hterminal, if_true, Option.some.injEq]
          constructor
          · rintro offset rfl
            exact terminalEndsAt_snoc.mpr (Or.inr ⟨hbyte, rfl, hterminal⟩)
          · intro offset hends
            refine ⟨stream.length + 1, rfl, ?_⟩
            have hle := terminalEndsAt_le hends
            rwa [List.length_append, List.length_singleton] at hle
        · simp only [hterminal, Bool.false_eq_true, if_false]
          refine ⟨fun offset hlast => (ih.1 offset hlast).append [byte], fun offset hends => ?_⟩
          rcases terminalEndsAt_snoc.mp hends with hearlier | ⟨_, _, hended⟩
          · exact ih.2 offset hearlier
          · exact absurd hended hterminal
      · rw [if_neg hbyte]
        refine ⟨fun offset hlast => (ih.1 offset hlast).append [byte], fun offset hends => ?_⟩
        rcases terminalEndsAt_snoc.mp hends with hearlier | ⟨hnewline, _⟩
        · exact ih.2 offset hearlier
        · exact absurd hnewline hbyte

end Streams

end ChipTrace.Gateway
