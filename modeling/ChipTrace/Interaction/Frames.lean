/-
The event stream grammar, and what the reader makes of a stream that follows it.
-/
import ChipTrace.Interaction.Sse

namespace ChipTrace.ModelInteraction

section Grammar

/-- A line of an event stream. The other lines are comments and the fields whose name is
neither `event` nor `data`, such as `id` and `retry`. -/
inductive Field where
  | event (value : List Char)
  | data (value : List Char)
  | other (text : List Char)
  deriving DecidableEq

def Field.text : Field → List Char
  | .event value => eventField ++ ':' :: value
  | .data value => dataField ++ ':' :: value
  | .other text => text

def Field.isEvent : Field → Bool
  | .event _ => true
  | _ => false

def Field.isData : Field → Bool
  | .data _ => true
  | _ => false

def Field.WellFormed (field : Field) : Prop :=
  Text.OneLine field.text ∧
    match field with
    | .other text =>
        text ≠ [] ∧ text.takeWhile (· ≠ ':') ≠ eventField ∧
          text.takeWhile (· ≠ ':') ≠ dataField
    | _ => True

instance (field : Field) : Decidable field.WellFormed := by
  unfold Field.WellFormed
  cases field <;> infer_instance

structure Line where
  field : Field
  crlf : Bool
  deriving DecidableEq

def Line.print (line : Line) : List Char := line.field.text ++ Text.lineEnd line.crlf

/-- The lines of one event and the blank line after them, where the writer has not left it
out. -/
structure Block where
  lines : List Line
  closing : Option Bool
  deriving DecidableEq

def Block.print (block : Block) : List Char :=
  block.lines.flatMap Line.print ++ (block.closing.map Text.lineEnd).getD []

def serialize (blocks : List Block) : List Char := blocks.flatMap Block.print

/-- An event as its reader sees it. -/
structure Frame where
  event : Option (List Char)
  dataRaw : List Char
  data : Option Json
  deriving DecidableEq

def SseEvent.frame (event : SseEvent) : Frame := ⟨event.event, event.dataRaw, event.data⟩

def namesOf (lines : List Line) : List (List Char) :=
  lines.filterMap fun line =>
    match line.field with
    | .event value => some (Text.trimChars value)
    | _ => none

def dataOf (lines : List Line) : List (List Char) :=
  lines.filterMap fun line =>
    match line.field with
    | .data value => some (Text.trimStart value)
    | _ => none

/-- The last event line names the event. -/
def Block.name (block : Block) : Option (List Char) := (namesOf block.lines).getLast?

def Block.data (block : Block) : List Char := joinLines (dataOf block.lines)

variable (fromStr : List Char → Option Json)

def Block.frame (block : Block) : Frame := ⟨block.name, block.data, fromStr block.data⟩

/-- A field value starts after one optional space. -/
def afterSpace (value : List Char) : List Char :=
  if value.head? = some ' ' then value.tail else value

/-- The event as the grammar reads the block, whatever the order of its lines. -/
def Block.written (block : Block) : Frame :=
  let names := block.lines.filterMap fun line =>
    match line.field with
    | .event value => some (afterSpace value)
    | _ => none
  let data := joinLines (block.lines.filterMap fun line =>
    match line.field with
    | .data value => some (afterSpace value)
    | _ => none)
  ⟨names.getLast?, data, fromStr data⟩

/-- No value has white space around it besides the optional space. -/
def Block.Trimmed (block : Block) : Prop :=
  ∀ line ∈ block.lines,
    match line.field with
    | .event value => Text.trimChars value = afterSpace value
    | .data value => Text.trimStart value = afterSpace value
    | .other _ => True

/-- The block says that the stream is done. -/
def Block.IsMarker (block : Block) : Prop :=
  ∃ line, dataOf block.lines = [line] ∧ Text.trimChars line = doneMarker

/-- The block has data and its data is JSON. -/
def Block.HasJson (block : Block) : Prop :=
  dataOf block.lines ≠ [] ∧ (fromStr block.data).isSome

/-- The block names its event before the data. -/
def Block.NameFirst (block : Block) : Prop :=
  block.lines.Pairwise fun earlier later =>
    earlier.field.isData = true → later.field.isEvent = false

/-- The data is one line with an object or an array, or the marker. -/
def Block.OnOneLine (block : Block) : Prop :=
  ∃ line, dataOf block.lines = [line] ∧ (line = doneMarker ∨ isComplete fromStr line = true)

/-- The end of a block shows: by its blank line, by the name of the next event, or by whole
objects and arrays on both sides. -/
def Shows (block next : Block) : Prop :=
  block.closing.isSome = true ∨ namesOf next.lines ≠ [] ∨
    isComplete fromStr block.data = true ∧ next.OnOneLine fromStr

end Grammar

/-- What the reader relies on of the JSON parser: only white space may follow a whole object
or array, a blank text is no value, and neither is the marker. -/
structure SerdeJson (fromStr : List Char → Option Json) : Prop where
  closed : ∀ text tail, isComplete fromStr text = true →
    (fromStr (text ++ tail)).isSome = true → ∀ c ∈ tail, Json.isSpace c = true
  nonblank : ∀ text, (fromStr text).isSome = true → ∃ c ∈ text, Json.isSpace c = false
  marker : ∀ text, (fromStr text).isSome = true → Text.trimChars text ≠ doneMarker

/-- Without further white space the reader's event is the one written. -/
theorem Block.frame_eq_written {fromStr : List Char → Option Json} {block : Block}
    (htrimmed : block.Trimmed) : block.frame fromStr = block.written fromStr := by
  have hnames : namesOf block.lines = block.lines.filterMap fun line =>
      match line.field with
      | .event value => some (afterSpace value)
      | _ => none := by
    apply List.filterMap_congr
    intro line hline
    have hvalue := htrimmed line hline
    cases hfield : line.field with
    | event value => simpa [hfield] using hvalue
    | data value => rfl
    | other text => rfl
  have hdata : dataOf block.lines = block.lines.filterMap fun line =>
      match line.field with
      | .data value => some (afterSpace value)
      | _ => none := by
    apply List.filterMap_congr
    intro line hline
    have hvalue := htrimmed line hline
    cases hfield : line.field with
    | event value => rfl
    | data value => simpa [hfield] using hvalue
    | other text => rfl
  rw [Block.frame, Block.written, Block.name, Block.data, hnames, hdata]

theorem SerdeJson.nonblank_of_next {fromStr : List Char → Option Json} (hjson : SerdeJson fromStr)
    {next : List Char} (hnext : next = doneMarker ∨ isComplete fromStr next = true) :
    ∃ c ∈ next, Json.isSpace c = false := by
  cases hnext with
  | inl hmarker =>
      rw [hmarker]
      exact ⟨'D', by decide, by decide⟩
  | inr hcomplete =>
      apply hjson.nonblank next
      rw [isComplete, Option.any_eq_true] at hcomplete
      obtain ⟨value, hvalue, _⟩ := hcomplete
      rw [hvalue]
      rfl

theorem joinLines_append {earlier : List (List Char)} (hne : earlier ≠ []) (next : List Char)
    (later : List (List Char)) :
    ∃ tail, joinLines (earlier ++ next :: later) =
      joinLines earlier ++ '\n' :: (next ++ tail) := by
  induction earlier with
  | nil => exact absurd rfl hne
  | cons first more ih =>
      cases more with
      | nil =>
          cases later with
          | nil => exact ⟨[], by simp [joinLines, List.intercalate]⟩
          | cons second rest =>
              refine ⟨'\n' :: joinLines (second :: rest), ?_⟩
              simp [joinLines, List.intercalate]
      | cons second rest =>
          obtain ⟨tail, htail⟩ := ih (List.cons_ne_nil second rest)
          refine ⟨tail, ?_⟩
          simp only [joinLines, List.intercalate, List.cons_append, List.intersperse_cons_cons,
            List.flatten_cons] at htail ⊢
          rw [htail]
          simp

/-- Inside the data of one event no line looks like the start of the next event. -/
theorem not_split {fromStr : List Char → Option Json} (hjson : SerdeJson fromStr) {block : Block}
    (hcontent : block.HasJson fromStr ∨ block.IsMarker) {earlier later : List (List Char)}
    {next : List Char} (hdata : dataOf block.lines = earlier ++ next :: later)
    (hpending : earlier ≠ [] ∧ isComplete fromStr (joinLines earlier) = true) :
    ¬ (next = doneMarker ∨ isComplete fromStr next = true) := by
  intro hnext
  cases hcontent with
  | inl hvalue =>
      obtain ⟨tail, htail⟩ := joinLines_append hpending.1 next later
      have hparse := hvalue.2
      rw [Block.data, hdata, htail] at hparse
      have hspace := hjson.closed _ _ hpending.2 hparse
      obtain ⟨c, hmem, hc⟩ := hjson.nonblank_of_next hnext
      have hcspace := hspace c (by simp [hmem])
      rw [hc] at hcspace
      cases hcspace
  | inr hmarker =>
      obtain ⟨line, hline, _⟩ := hmarker
      have hlength := congrArg List.length (hline.symm.trans hdata)
      have hpos := List.length_pos_iff.mpr hpending.1
      simp only [List.length_append, List.length_cons, List.length_nil] at hlength
      omega

end ChipTrace.ModelInteraction
