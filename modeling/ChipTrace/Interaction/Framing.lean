/-
Reading a stream that follows the grammar gives the events that were written.
-/
import ChipTrace.Interaction.Frames
import ChipTrace.Interaction.Ranges

namespace ChipTrace.ModelInteraction

variable {fromStr : List Char → Option Json}

/-- The reader has made these events, none of them malformed, and holds this name and these
data lines. -/
structure Holds (reader : SseReader) (frames : List Frame) (done : Bool)
    (name : Option (List Char)) (lines : List (List Char)) : Prop where
  frames : reader.events.map SseEvent.frame = frames
  done : reader.done = done
  malformed : reader.malformed = 0
  name : reader.eventName = name
  lines : reader.dataLines = lines

/-- The events after a block. -/
def Block.framesAfter (fromStr : List Char → Option Json) (frames : List Frame) (block : Block) :
    List Frame :=
  if Text.trimChars block.data = doneMarker then frames else frames ++ [block.frame fromStr]

def Block.doneAfter (done : Bool) (block : Block) : Bool :=
  if Text.trimChars block.data = doneMarker then true else done

/-- The block ends up as an event or as the end of the stream. -/
def Block.Sound (fromStr : List Char → Option Json) (block : Block) : Prop :=
  block.HasJson fromStr ∨ block.IsMarker

theorem Block.Sound.data_ne_nil {block : Block} (hsound : block.Sound fromStr) :
    dataOf block.lines ≠ [] := by
  cases hsound with
  | inl hdata => exact hdata.1
  | inr hmarker =>
      obtain ⟨line, hline, _⟩ := hmarker
      rw [hline]
      exact List.cons_ne_nil line []

theorem Block.IsMarker.trim_data {block : Block} (hmarker : block.IsMarker) :
    Text.trimChars block.data = doneMarker := by
  obtain ⟨line, hline, htrim⟩ := hmarker
  simpa [Block.data, hline, joinLines, List.intercalate] using htrim

section Flush

variable {reader : SseReader} {frames : List Frame} {done : Bool} {name : Option (List Char)}

theorem Holds.flush_idle (hholds : Holds reader frames done name []) :
    Holds (reader.flush fromStr).1 frames done none [] := by
  rw [SseReader.flush, if_pos hholds.lines]
  exact ⟨hholds.frames, hholds.done, hholds.malformed, rfl, rfl⟩

theorem Holds.flush_block {block : Block} (hsound : block.Sound fromStr)
    (hholds : Holds reader frames done block.name (dataOf block.lines)) :
    Holds (reader.flush fromStr).1 (block.framesAfter fromStr frames) (block.doneAfter done)
      none [] := by
  have hne : reader.dataLines ≠ [] := by
    rw [hholds.lines]
    exact hsound.data_ne_nil
  have hraw : joinLines reader.dataLines = block.data := by
    rw [hholds.lines]
    rfl
  rw [SseReader.flush, if_neg hne]
  simp only [hraw]
  by_cases hmarker : Text.trimChars block.data = doneMarker
  · rw [if_pos hmarker, Block.framesAfter, if_pos hmarker, Block.doneAfter, if_pos hmarker]
    exact ⟨hholds.frames, rfl, hholds.malformed, rfl, rfl⟩
  · have hvalue : (fromStr block.data).isSome = true := by
      cases hsound with
      | inl hdata => exact hdata.2
      | inr hmark => exact absurd hmark.trim_data hmarker
    rw [if_neg hmarker, Block.framesAfter, if_neg hmarker, Block.doneAfter, if_neg hmarker]
    constructor
    · simp [hholds.frames, hholds.name, SseEvent.frame, Block.frame]
    · exact hholds.done
    · simp [hholds.malformed, hvalue]
    · rfl
    · rfl

/-- A recovered boundary leaves the reader as a blank line does. -/
theorem Holds.recover (hholds : Holds (reader.flush fromStr).1 frames done none []) :
    Holds (reader.recover fromStr) frames done none [] := by
  rw [SseReader.recover]
  dsimp only
  split_ifs
  · exact ⟨hholds.frames, hholds.done, hholds.malformed, hholds.name, hholds.lines⟩
  · exact hholds

end Flush

section Lines

variable {reader : SseReader} {frames : List Frame} {done : Bool} {name : Option (List Char)}
  {lines : List (List Char)} {lineStart lineEnd : Nat}

theorem Holds.offset {offset : Nat} (hholds : Holds reader frames done name lines) :
    Holds { reader with byteOffset := offset } frames done name lines :=
  ⟨hholds.frames, hholds.done, hholds.malformed, hholds.name, hholds.lines⟩

theorem line_event (value : List Char) :
    reader.line fromStr lineStart lineEnd (Field.event value).text =
      { (if reader.dataLines ≠ [] then reader.recover fromStr else reader) with
        eventStart := some lineStart
        eventEnd := lineEnd
        eventName := some (Text.trimChars value) } := rfl

theorem line_data (value : List Char) :
    reader.line fromStr lineStart lineEnd (Field.data value).text =
      (let before :=
        if (reader.dataLines ≠ [] && isComplete fromStr (joinLines reader.dataLines)) &&
            (Text.trimStart value = doneMarker || isComplete fromStr (Text.trimStart value)) then
          reader.recover fromStr
        else reader
      { before with
        eventStart := some (before.eventStart.getD lineStart)
        eventEnd := lineEnd
        dataLines := before.dataLines ++ [Text.trimStart value] }) := rfl

theorem not_isPrefixOf {name text : List Char} (hplain : ':' ∉ name)
    (hname : text.takeWhile (· ≠ ':') ≠ name) : (name ++ [':']).isPrefixOf text = false := by
  rw [Bool.eq_false_iff]
  intro hprefix
  obtain ⟨rest, rfl⟩ := List.isPrefixOf_iff_prefix.mp hprefix
  apply hname
  have hall : ∀ c ∈ name, (decide (c ≠ ':')) = true := by
    intro c hc
    apply decide_eq_true
    rintro rfl
    exact hplain hc
  rw [List.append_assoc, List.takeWhile_append_of_pos hall]
  simp

theorem line_other {text : List Char} (hfield : (Field.other text).WellFormed) :
    reader.line fromStr lineStart lineEnd (Field.other text).text =
      if reader.eventStart.isSome then { reader with eventEnd := lineEnd } else reader := by
  obtain ⟨_, hne, hevent, hdata⟩ := hfield
  have hnoEvent : (eventField ++ [':']).isPrefixOf text = false :=
    not_isPrefixOf (by decide) hevent
  have hnoData : (dataField ++ [':']).isPrefixOf text = false :=
    not_isPrefixOf (by decide) hdata
  rw [SseReader.line, Field.text, if_neg hne, hnoEvent, hnoData, if_neg Bool.false_ne_true,
    if_neg Bool.false_ne_true]

theorem Holds.line_other (hholds : Holds reader frames done name lines) {text : List Char}
    (hfield : (Field.other text).WellFormed) :
    Holds (reader.line fromStr lineStart lineEnd (Field.other text).text) frames done name
      lines := by
  rw [ModelInteraction.line_other hfield]
  split_ifs
  · exact ⟨hholds.frames, hholds.done, hholds.malformed, hholds.name, hholds.lines⟩
  · exact hholds

theorem Holds.line_name (hholds : Holds reader frames done name []) (value : List Char) :
    Holds (reader.line fromStr lineStart lineEnd (Field.event value).text) frames done
      (some (Text.trimChars value)) [] := by
  rw [line_event, if_neg (not_not.mpr hholds.lines)]
  exact ⟨hholds.frames, hholds.done, hholds.malformed, rfl, hholds.lines⟩

/-- The name of the next event ends a block whose blank line is missing. -/
theorem Holds.line_next (hne : reader.dataLines ≠ [])
    (hholds : Holds (reader.recover fromStr) frames done none []) (value : List Char) :
    Holds (reader.line fromStr lineStart lineEnd (Field.event value).text) frames done
      (some (Text.trimChars value)) [] := by
  rw [line_event, if_pos hne]
  exact ⟨hholds.frames, hholds.done, hholds.malformed, rfl, hholds.lines⟩

theorem Holds.line_data (hholds : Holds reader frames done name lines) {value : List Char}
    (hsame : lines ≠ [] ∧ isComplete fromStr (joinLines lines) = true →
      ¬ (Text.trimStart value = doneMarker ∨ isComplete fromStr (Text.trimStart value) = true)) :
    Holds (reader.line fromStr lineStart lineEnd (Field.data value).text) frames done name
      (lines ++ [Text.trimStart value]) := by
  have hkeep : ¬ ((reader.dataLines ≠ [] && isComplete fromStr (joinLines reader.dataLines)) &&
      (Text.trimStart value = doneMarker || isComplete fromStr (Text.trimStart value))) = true := by
    rw [hholds.lines]
    simpa using hsame
  rw [ModelInteraction.line_data, if_neg hkeep]
  exact ⟨hholds.frames, hholds.done, hholds.malformed, hholds.name, by simp [hholds.lines]⟩

/-- A second whole value ends a block whose blank line is missing. -/
theorem Holds.line_complete {value : List Char}
    (hpending : reader.dataLines ≠ [] ∧
      isComplete fromStr (joinLines reader.dataLines) = true)
    (hnext : Text.trimStart value = doneMarker ∨
      isComplete fromStr (Text.trimStart value) = true)
    (hholds : Holds (reader.recover fromStr) frames done none []) :
    Holds (reader.line fromStr lineStart lineEnd (Field.data value).text) frames done none
      [Text.trimStart value] := by
  have hsplit : ((reader.dataLines ≠ [] && isComplete fromStr (joinLines reader.dataLines)) &&
      (Text.trimStart value = doneMarker || isComplete fromStr (Text.trimStart value))) = true := by
    simpa using And.intro hpending hnext
  rw [ModelInteraction.line_data, if_pos hsplit]
  exact ⟨hholds.frames, hholds.done, hholds.malformed, hholds.name, by simp [hholds.lines]⟩

end Lines

section Blocks

variable {frames : List Frame} {done : Bool}

def settledFrames (fromStr : List Char → Option Json) (frames : List Frame) :
    Option Block → List Frame
  | none => frames
  | some block => block.framesAfter fromStr frames

def settledDone (done : Bool) : Option Block → Bool
  | none => done
  | some block => block.doneAfter done

/-- The reader holds the lines of a block that is not closed yet, or nothing. -/
def Pending (fromStr : List Char → Option Json) (reader : SseReader) (frames : List Frame)
    (done : Bool) : Option Block → Prop
  | none => Holds reader frames done none []
  | some block =>
      block.Sound fromStr ∧ Holds reader frames done block.name (dataOf block.lines)

theorem Pending.flush {reader : SseReader} {pending : Option Block}
    (h : Pending fromStr reader frames done pending) :
    Holds (reader.flush fromStr).1 (settledFrames fromStr frames pending)
      (settledDone done pending) none [] := by
  cases pending with
  | none => exact Holds.flush_idle h
  | some block => exact h.2.flush_block h.1

/-- The state of the reader inside a block, after the lines `earlier` of it. -/
def Inside (fromStr : List Char → Option Json) (reader : SseReader) (frames : List Frame)
    (done : Bool) (pending : Option Block) (earlier : List Line) : Prop :=
  if namesOf earlier = [] ∧ dataOf earlier = [] then Pending fromStr reader frames done pending
  else
    Holds reader (settledFrames fromStr frames pending) (settledDone done pending)
      (namesOf earlier).getLast? (dataOf earlier)

@[simp] theorem namesOf_append (left right : List Line) :
    namesOf (left ++ right) = namesOf left ++ namesOf right := List.filterMap_append

@[simp] theorem dataOf_append (left right : List Line) :
    dataOf (left ++ right) = dataOf left ++ dataOf right := List.filterMap_append

theorem Pending.line_other {reader : SseReader} {pending : Option Block} {text : List Char}
    {lineStart lineEnd : Nat} (hfield : (Field.other text).WellFormed)
    (h : Pending fromStr reader frames done pending) :
    Pending fromStr (reader.line fromStr lineStart lineEnd (Field.other text).text) frames done
      pending := by
  cases pending with
  | none => exact Holds.line_other h hfield
  | some block => exact ⟨h.1, h.2.line_other hfield⟩

/-- The name of an event settles what came before it. -/
theorem Pending.line_event {reader : SseReader} {pending : Option Block} {lineStart lineEnd : Nat}
    (h : Pending fromStr reader frames done pending) (value : List Char) :
    Holds (reader.line fromStr lineStart lineEnd (Field.event value).text)
      (settledFrames fromStr frames pending) (settledDone done pending)
      (some (Text.trimChars value)) [] := by
  cases pending with
  | none => exact Holds.line_name h value
  | some block =>
      apply Holds.line_next
      · rw [h.2.lines]
        exact h.1.data_ne_nil
      · exact (Pending.flush h).recover

/-- Data without a name settles what came before it when the end of that shows. -/
theorem Pending.line_data {reader : SseReader} {pending : Option Block} {lineStart lineEnd : Nat}
    {value : List Char} (h : Pending fromStr reader frames done pending)
    (hshows : ∀ block ∈ pending, isComplete fromStr block.data = true ∧
      (Text.trimStart value = doneMarker ∨ isComplete fromStr (Text.trimStart value) = true)) :
    Holds (reader.line fromStr lineStart lineEnd (Field.data value).text)
      (settledFrames fromStr frames pending) (settledDone done pending) none
      [Text.trimStart value] := by
  cases pending with
  | none => exact Holds.line_data h fun hne => absurd rfl hne.1
  | some block =>
      obtain ⟨hpending, hnext⟩ := hshows block rfl
      apply Holds.line_complete _ hnext (Pending.flush h).recover
      rw [h.2.lines]
      exact ⟨h.1.data_ne_nil, hpending⟩

variable {pending : Option Block} {block : Block}

/-- One line of a block. -/
theorem Inside.line (hjson : SerdeJson fromStr) (hsound : block.Sound fromStr)
    (hfirst : block.NameFirst)
    (hshows : ∀ previous ∈ pending, previous.closing = none ∧ Shows fromStr previous block)
    {earlier later : List Line} {line : Line} (hlines : block.lines = earlier ++ line :: later)
    (hfield : line.field.WellFormed) {reader : SseReader} {lineStart lineEnd : Nat}
    (h : Inside fromStr reader frames done pending earlier) :
    Inside fromStr (reader.line fromStr lineStart lineEnd line.field.text) frames done pending
      (earlier ++ [line]) := by
  obtain ⟨field, crlf⟩ := line
  rw [Block.NameFirst, hlines, List.pairwise_append] at hfirst
  obtain ⟨_, hlater, hacross⟩ := hfirst
  rw [List.pairwise_cons] at hlater
  cases field with
  | other text =>
      have hnames : namesOf (earlier ++ [⟨.other text, crlf⟩]) = namesOf earlier := by
        simp [namesOf]
      have hdata : dataOf (earlier ++ [⟨.other text, crlf⟩]) = dataOf earlier := by
        simp [dataOf]
      rw [Inside, hnames, hdata]
      rw [Inside] at h
      split_ifs with hnone
      · rw [if_pos hnone] at h
        exact h.line_other hfield
      · rw [if_neg hnone] at h
        exact h.line_other hfield
  | event value =>
      -- No data line stands before an event line of the block.
      have hnoData : dataOf earlier = [] := by
        rw [dataOf, List.filterMap_eq_nil_iff]
        intro before hbefore
        cases hfieldBefore : before.field with
        | data text =>
            have hnot := hacross before hbefore _ List.mem_cons_self
              (by rw [hfieldBefore]; rfl)
            cases hnot
        | event text => rfl
        | other text => rfl
      have hnames : namesOf (earlier ++ [⟨.event value, crlf⟩]) =
          namesOf earlier ++ [Text.trimChars value] := by simp [namesOf]
      have hdata : dataOf (earlier ++ [⟨.event value, crlf⟩]) = [] := by
        rw [dataOf_append, hnoData]
        rfl
      rw [Inside, hnames, hdata, if_neg (by simp), List.getLast?_concat]
      rw [Inside, hnoData] at h
      split_ifs at h with hnone
      · exact h.line_event value
      · exact h.line_name value
  | data value =>
      have hnames : namesOf (earlier ++ [⟨.data value, crlf⟩]) = namesOf earlier := by
        simp [namesOf]
      have hdata : dataOf (earlier ++ [⟨.data value, crlf⟩]) =
          dataOf earlier ++ [Text.trimStart value] := by simp [dataOf]
      have hwhole : dataOf block.lines =
          dataOf earlier ++ Text.trimStart value :: dataOf later := by
        rw [hlines, dataOf_append]
        rfl
      rw [Inside, hnames, hdata, if_neg (by simp)]
      rw [Inside] at h
      split_ifs at h with hnone
      · rw [hnone.1, hnone.2, List.nil_append]
        apply h.line_data
        intro previous hprevious
        obtain ⟨hopen, hshow⟩ := hshows previous hprevious
        -- The names of the block would stand before this line.
        have hnoNames : namesOf block.lines = [] := by
          rw [hlines, namesOf_append, hnone.1, List.nil_append, namesOf,
            List.filterMap_eq_nil_iff]
          intro after hafter
          cases hfieldAfter : after.field with
          | event text =>
              cases hafter with
              | head => cases hfieldAfter
              | tail _ hafter =>
                  have hnot := hlater.1 after hafter rfl
                  rw [hfieldAfter] at hnot
                  cases hnot
          | data text => rfl
          | other text => rfl
        rcases hshow with hclosed | hnamed | ⟨hcomplete, single, hsingle, hnext⟩
        · rw [hopen] at hclosed
          cases hclosed
        · exact absurd hnoNames hnamed
        · have hline : Text.trimStart value = single := by
            rw [hwhole, hnone.2, List.nil_append] at hsingle
            exact (List.cons.inj hsingle).1
          rw [hline]
          exact ⟨hcomplete, hnext⟩
      · exact h.line_data fun hpending => not_split hjson hsound hwhole hpending

end Blocks

section Streams

/-- The reader after the lines of a text. -/
def readText (fromStr : List Char → Option Json) (reader : SseReader) (text : List Char) :
    SseReader :=
  (Text.splitInclusive text).foldl (SseReader.readLine fromStr) reader

variable {frames : List Frame} {done : Bool} {pending : Option Block} {block : Block}

theorem readText_line {text : List Char} (htext : Text.OneLine text) (crlf : Bool)
    (rest : List Char) (reader : SseReader) :
    ∃ lineEnd, readText fromStr reader (text ++ Text.lineEnd crlf ++ rest) =
      readText fromStr (SseReader.line fromStr { reader with byteOffset := lineEnd }
        reader.byteOffset lineEnd text) rest := by
  refine ⟨reader.byteOffset + Text.byteLength (text ++ Text.lineEnd crlf), ?_⟩
  rw [readText, Text.splitInclusive_lineEnd htext, List.foldl_cons, SseReader.readLine,
    Text.lineOf_lineEnd htext]
  rfl

theorem Inside.offset {reader : SseReader} {earlier : List Line} {offset : Nat}
    (h : Inside fromStr reader frames done pending earlier) :
    Inside fromStr { reader with byteOffset := offset } frames done pending earlier := by
  rw [Inside] at h ⊢
  split_ifs at h ⊢
  · cases pending with
    | none => exact Holds.offset h
    | some block => exact ⟨h.1, h.2.offset⟩
  · exact h.offset

/-- The lines of a block, after some of them are read. -/
theorem readText_lines (hjson : SerdeJson fromStr) (hsound : block.Sound fromStr)
    (hfirst : block.NameFirst) (hfields : ∀ line ∈ block.lines, line.field.WellFormed)
    (hshows : ∀ previous ∈ pending, previous.closing = none ∧ Shows fromStr previous block)
    (rest : List Char) (later : List Line) :
    ∀ (earlier : List Line) (reader : SseReader), block.lines = earlier ++ later →
      Inside fromStr reader frames done pending earlier →
      ∃ reader', readText fromStr reader (later.flatMap Line.print ++ rest) =
          readText fromStr reader' rest ∧
        Inside fromStr reader' frames done pending block.lines := by
  induction later with
  | nil =>
      intro earlier reader hlines h
      rw [List.append_nil] at hlines
      rw [hlines]
      exact ⟨reader, rfl, h⟩
  | cons line later ih =>
      intro earlier reader hlines h
      have hfield : line.field.WellFormed := hfields line (by simp [hlines])
      obtain ⟨lineEnd, hread⟩ := @readText_line fromStr _ hfield.1 line.crlf
        (later.flatMap Line.print ++ rest) reader
      have hnext : Inside fromStr
          (SseReader.line fromStr { reader with byteOffset := lineEnd } reader.byteOffset lineEnd
            line.field.text) frames done pending (earlier ++ [line]) :=
        h.offset.line hjson hsound hfirst hshows hlines hfield
      obtain ⟨reader', hrest, hinside⟩ := ih (earlier ++ [line]) _ (by simp [hlines]) hnext
      refine ⟨reader', ?_, hinside⟩
      rw [List.flatMap_cons, List.append_assoc, Line.print, hread]
      exact hrest

/-- A block that is left open stays pending. -/
def stillOpen (block : Block) : Option Block :=
  if block.closing.isSome then none else some block

/-- A whole block with the blank line after it. -/
theorem readText_block (hjson : SerdeJson fromStr) (hsound : block.Sound fromStr)
    (hfirst : block.NameFirst) (hfields : ∀ line ∈ block.lines, line.field.WellFormed)
    (hshows : ∀ previous ∈ pending, previous.closing = none ∧ Shows fromStr previous block)
    (rest : List Char) {reader : SseReader} (h : Pending fromStr reader frames done pending) :
    ∃ reader' frames' done', readText fromStr reader (block.print ++ rest) =
        readText fromStr reader' rest ∧
      Pending fromStr reader' frames' done' (stillOpen block) ∧
      settledFrames fromStr frames' (stillOpen block) =
        block.framesAfter fromStr (settledFrames fromStr frames pending) ∧
      settledDone done' (stillOpen block) = block.doneAfter (settledDone done pending) := by
  have hstart : Inside fromStr reader frames done pending [] := by
    rw [Inside, if_pos ⟨rfl, rfl⟩]
    exact h
  obtain ⟨reader', hread, hinside⟩ := readText_lines hjson hsound hfirst hfields hshows
    ((block.closing.map Text.lineEnd).getD [] ++ rest) block.lines [] reader rfl hstart
  have hdata : dataOf block.lines ≠ [] := hsound.data_ne_nil
  rw [Inside, if_neg fun hnone => hdata hnone.2] at hinside
  rw [Block.print, List.append_assoc, hread]
  cases hclosing : block.closing with
  | none =>
      refine ⟨reader', settledFrames fromStr frames pending, settledDone done pending, ?_, ?_⟩
      · rfl
      · rw [stillOpen, hclosing, if_neg (by simp)]
        exact ⟨⟨hsound, hinside⟩, rfl, rfl⟩
  | some crlf =>
      obtain ⟨lineEnd, hblank⟩ := @readText_line fromStr []
        (fun c hc => absurd hc List.not_mem_nil) crlf rest reader'
      refine ⟨_, block.framesAfter fromStr (settledFrames fromStr frames pending),
        block.doneAfter (settledDone done pending), hblank, ?_⟩
      rw [stillOpen, hclosing, if_pos (by simp)]
      refine ⟨?_, rfl, rfl⟩
      apply Holds.flush_block hsound
      exact ⟨hinside.frames, hinside.done, hinside.malformed, hinside.name, hinside.lines⟩

/-- The block follows the grammar, with its data and its name where the reader expects
them. -/
structure Block.Conforms (fromStr : List Char → Option Json) (block : Block) : Prop where
  fields : ∀ line ∈ block.lines, line.field.WellFormed
  sound : block.Sound fromStr
  nameFirst : block.NameFirst

theorem stillOpen_eq_some {previous : Block} (h : previous ∈ stillOpen block) :
    previous = block ∧ block.closing = none := by
  rw [stillOpen] at h
  split_ifs at h with hclosing
  · cases h
  · obtain rfl := Option.some.inj h
    exact ⟨rfl, by simpa using hclosing⟩

theorem readText_serialize (hjson : SerdeJson fromStr) (blocks : List Block) :
    ∀ (pending : Option Block) (reader : SseReader) (frames : List Frame) (done : Bool),
      Pending fromStr reader frames done pending →
      (∀ previous ∈ pending, previous.closing = none) →
      (∀ block ∈ blocks, block.Conforms fromStr) →
      (pending.toList ++ blocks).IsChain (Shows fromStr) →
      ∃ pending' frames' done',
        Pending fromStr (readText fromStr reader (serialize blocks)) frames' done' pending' ∧
          settledFrames fromStr frames' pending' =
            blocks.foldl (Block.framesAfter fromStr) (settledFrames fromStr frames pending) ∧
          settledDone done' pending' = blocks.foldl Block.doneAfter (settledDone done pending) := by
  induction blocks with
  | nil =>
      intro pending reader frames done h _ _ _
      exact ⟨pending, frames, done, h, rfl, rfl⟩
  | cons block blocks ih =>
      intro pending reader frames done h hopen hconform hchain
      obtain ⟨hfields, hsound, hfirst⟩ := hconform block List.mem_cons_self
      have hshows : ∀ previous ∈ pending,
          previous.closing = none ∧ Shows fromStr previous block := by
        rintro previous rfl
        exact ⟨hopen previous rfl, (List.isChain_cons_cons.mp hchain).1⟩
      have htail : (block :: blocks).IsChain (Shows fromStr) := by
        cases pending with
        | none => exact hchain
        | some previous => exact (List.isChain_cons_cons.mp hchain).2
      obtain ⟨reader', frames', done', hread, hpending, hframes, hdone⟩ :=
        readText_block hjson hsound hfirst hfields hshows (serialize blocks) h
      have hrest : ((stillOpen block).toList ++ blocks).IsChain (Shows fromStr) := by
        rw [stillOpen]
        split_ifs
        · exact htail.of_cons
        · exact htail
      have hopen' : ∀ previous ∈ stillOpen block, previous.closing = none := by
        intro previous hprevious
        obtain ⟨rfl, hclosing⟩ := stillOpen_eq_some hprevious
        exact hclosing
      have hmore := ih (stillOpen block) reader' frames' done' hpending hopen'
        (fun other hother => hconform other (List.mem_cons_of_mem block hother)) hrest
      rw [serialize, List.flatMap_cons, ← serialize, hread, List.foldl_cons, List.foldl_cons,
        ← hframes, ← hdone]
      exact hmore

theorem foldl_framesAfter (blocks : List Block) (frames : List Frame) :
    blocks.foldl (Block.framesAfter fromStr) frames =
      frames ++ (blocks.filter fun block => Text.trimChars block.data ≠ doneMarker).map
        (Block.frame fromStr) := by
  induction blocks generalizing frames with
  | nil => simp
  | cons block blocks ih =>
      rw [List.foldl_cons, ih, Block.framesAfter]
      split_ifs with hmarker
      · simp [hmarker]
      · simp [hmarker]

theorem foldl_doneAfter (blocks : List Block) (done : Bool) :
    blocks.foldl Block.doneAfter done =
      (done || blocks.any fun block => Text.trimChars block.data = doneMarker) := by
  induction blocks generalizing done with
  | nil => simp
  | cons block blocks ih =>
      rw [List.foldl_cons, ih, Block.doneAfter]
      split_ifs with hmarker
      · simp [hmarker]
      · simp [hmarker]

/-- The blocks of a stream are read back as they were written. -/
theorem parseSse_serialize (hjson : SerdeJson fromStr) {blocks : List Block}
    (hconform : ∀ block ∈ blocks, block.Conforms fromStr)
    (hchain : blocks.IsChain (Shows fromStr)) :
    (parseSse fromStr (serialize blocks)).events.map SseEvent.frame =
        (blocks.filter fun block => Text.trimChars block.data ≠ doneMarker).map
          (Block.frame fromStr) ∧
      (parseSse fromStr (serialize blocks)).malformed = 0 ∧
      (parseSse fromStr (serialize blocks)).done =
        blocks.any fun block => Text.trimChars block.data = doneMarker := by
  obtain ⟨pending, frames, done, hpending, hframes, hdone⟩ :=
    readText_serialize hjson blocks none {} [] false ⟨rfl, rfl, rfl, rfl, rfl⟩ nofun hconform
      hchain
  have hflush := hpending.flush
  rw [hframes, settledFrames, foldl_framesAfter, List.nil_append, hdone, settledDone,
    foldl_doneAfter, Bool.false_or] at hflush
  exact ⟨hflush.frames, hflush.malformed, hflush.done⟩

/-- A stream that follows the grammar is read back, and the byte ranges of any stream are in
bounds, in order and disjoint. -/
theorem parseSse_exact (hjson : SerdeJson fromStr) :
    (∀ blocks : List Block, (∀ block ∈ blocks, block.Conforms fromStr) →
      blocks.IsChain (Shows fromStr) →
        (parseSse fromStr (serialize blocks)).events.map SseEvent.frame =
            (blocks.filter fun block => Text.trimChars block.data ≠ doneMarker).map
              (Block.frame fromStr) ∧
          (parseSse fromStr (serialize blocks)).malformed = 0 ∧
          (parseSse fromStr (serialize blocks)).done =
            blocks.any fun block => Text.trimChars block.data = doneMarker) ∧
      ∀ raw : List Char, Ordered (parseSse fromStr raw).events (Text.byteLength raw) :=
  ⟨fun _ hconform hchain => parseSse_serialize hjson hconform hchain, parseSse_ordered⟩

end Streams

namespace Samples

/-- The JSON parser on the texts of the samples. -/
def tableStr (text : List Char) : Option Json :=
  if text = ['{', '}'] then some (.obj [])
  else if text = ['1'] then some (.num 1)
  else none

theorem serdeJson : SerdeJson tableStr := by
  have hcases : ∀ text, (tableStr text).isSome = true →
      text = ['{', '}'] ∨ text = ['1'] := by
    intro text hsome
    rw [tableStr] at hsome
    split_ifs at hsome with hobject hnumber
    · exact Or.inl hobject
    · exact Or.inr hnumber
    · cases hsome
  constructor
  · intro text tail hcomplete hsome c hc
    have hobject : text = ['{', '}'] := by
      rw [isComplete, tableStr] at hcomplete
      split_ifs at hcomplete with hobject hnumber
      · exact hobject
      · cases hcomplete
      · cases hcomplete
    have htail : tail = [] := by
      subst hobject
      cases hcases _ hsome with
      | inl h => simpa using h
      | inr h => simp at h
    rw [htail] at hc
    cases hc
  · intro text hsome
    cases hcases text hsome with
    | inl h => exact ⟨'{', by rw [h]; decide, by decide⟩
    | inr h => exact ⟨'1', by rw [h]; decide, by decide⟩
  · intro text hsome
    cases hcases text hsome with
    | inl h => rw [h]; decide
    | inr h => rw [h]; decide

/-- A named event, its data and a comment, on lines of both kinds. -/
def named : Block where
  lines := [⟨.event [' ', 'p', 'i', 'n', 'g'], false⟩,
    ⟨.other [':', ' ', 'c', 'o', 'm', 'm', 'e', 'n', 't'], true⟩, ⟨.data [' ', '{', '}'], true⟩]
  closing := none

def unnamed : Block where
  lines := [⟨.data [' ', '{', '}'], false⟩]
  closing := some false

theorem named_conforms : named.Conforms tableStr where
  fields := by decide +kernel
  sound := Or.inl ⟨by decide +kernel, by decide +kernel⟩
  nameFirst := by
    unfold Block.NameFirst
    decide +kernel

theorem unnamed_conforms : unnamed.Conforms tableStr where
  fields := by decide +kernel
  sound := Or.inl ⟨by decide +kernel, by decide +kernel⟩
  nameFirst := by
    unfold Block.NameFirst
    decide +kernel

/-- The same fields with the name after the data. -/
def nameLast : Block where
  lines := [⟨.data [' ', '{', '}'], false⟩, ⟨.event [' ', 'p', 'i', 'n', 'g'], false⟩]
  closing := some false

def number (closing : Option Bool) : Block where
  lines := [⟨.data [' ', '1'], false⟩]
  closing := closing

end Samples

/-- A named event without a blank line and the event after it are both found. -/
theorem parseSse_exact_unclosed :
    (parseSse Samples.tableStr
        (serialize [Samples.unnamed, Samples.named, Samples.unnamed])).events.map SseEvent.frame =
      [⟨none, ['{', '}'], some (.obj [])⟩, ⟨some ['p', 'i', 'n', 'g'], ['{', '}'], some (.obj [])⟩,
        ⟨none, ['{', '}'], some (.obj [])⟩] := by
  have hexact := (parseSse_exact Samples.serdeJson).1
    [Samples.unnamed, Samples.named, Samples.unnamed]
    (by
      intro block hblock
      have hcases : block = Samples.unnamed ∨ block = Samples.named := by
        simp only [List.mem_cons, List.not_mem_nil, or_false] at hblock
        tauto
      cases hcases with
      | inl h =>
          rw [h]
          exact Samples.unnamed_conforms
      | inr h =>
          rw [h]
          exact Samples.named_conforms)
    (by
      refine List.IsChain.cons_cons (Or.inl rfl) (List.IsChain.cons_cons ?_ (.singleton _))
      refine Or.inr (Or.inr ⟨by decide +kernel, ['{', '}'], by decide +kernel, ?_⟩)
      exact Or.inr (by decide +kernel))
  rw [hexact.1]
  decide +kernel

/-- The reader does not follow the grammar everywhere: it loses a name that comes after the
data, and it joins numbers that no blank line separates. -/
theorem not_parseSse_grammar :
    ¬ ((∀ blocks : List Block,
          (∀ block ∈ blocks, (∀ line ∈ block.lines, line.field.WellFormed) ∧
            block.HasJson Samples.tableStr ∧ block.closing.isSome = true) →
          (parseSse Samples.tableStr (serialize blocks)).events.map SseEvent.frame =
            blocks.map (Block.written Samples.tableStr)) ∨
        ∀ blocks : List Block,
          (∀ block ∈ blocks, (∀ line ∈ block.lines, line.field.WellFormed) ∧
            block.HasJson Samples.tableStr ∧ (dataOf block.lines).length = 1) →
          (parseSse Samples.tableStr (serialize blocks)).events.map SseEvent.frame =
            blocks.map (Block.written Samples.tableStr)) := by
  intro h
  cases h with
  | inl horder =>
      have hlost := horder [Samples.nameLast] (by
        intro block hblock
        rw [List.mem_singleton.mp hblock]
        exact ⟨by decide +kernel, ⟨by decide +kernel, by decide +kernel⟩, rfl⟩)
      revert hlost
      decide +kernel
  | inr hjoin =>
      have hlost := hjoin [Samples.number none, Samples.number (some false)] (by
        intro block hblock
        have hcases : block = Samples.number none ∨ block = Samples.number (some false) := by
          simpa using hblock
        cases hcases with
        | inl h =>
            rw [h]
            exact ⟨by decide +kernel, ⟨by decide +kernel, by decide +kernel⟩, rfl⟩
        | inr h =>
            rw [h]
            exact ⟨by decide +kernel, ⟨by decide +kernel, by decide +kernel⟩, rfl⟩)
      revert hlost
      decide +kernel

end ChipTrace.ModelInteraction
