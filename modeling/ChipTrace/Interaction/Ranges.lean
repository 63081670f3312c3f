/-
The byte ranges of the events of a stream, whatever the stream holds.
-/
import ChipTrace.Interaction.Sse

namespace ChipTrace.ModelInteraction

variable {fromStr : List Char → Option Json}

/-- The ranges are not empty, they follow each other and end within the first `bound` bytes. -/
structure Ordered (events : List SseEvent) (bound : Nat) : Prop where
  pairwise : events.Pairwise fun earlier later => earlier.byteEnd ≤ later.byteStart
  bounded : ∀ event ∈ events, event.byteStart < event.byteEnd ∧ event.byteEnd ≤ bound

/-- The reader has read `offset` bytes: the events end before the pending event starts. -/
structure Spans (reader : SseReader) (offset : Nat) : Prop where
  ordered : Ordered reader.events (reader.eventStart.getD offset)
  pending : ∀ start ∈ reader.eventStart, start < reader.eventEnd ∧ reader.eventEnd ≤ offset
  started : reader.dataLines ≠ [] → reader.eventStart.isSome = true

theorem Ordered.mono {events : List SseEvent} {bound larger : Nat} (h : Ordered events bound)
    (hle : bound ≤ larger) : Ordered events larger :=
  ⟨h.pairwise, fun event hevent => ⟨(h.bounded event hevent).1,
    (h.bounded event hevent).2.trans hle⟩⟩

theorem Ordered.concat {events : List SseEvent} {event : SseEvent}
    (h : Ordered events event.byteStart) (hne : event.byteStart < event.byteEnd) :
    Ordered (events ++ [event]) event.byteEnd := by
  constructor
  · apply List.pairwise_append.mpr
    refine ⟨h.pairwise, List.pairwise_singleton _ _, ?_⟩
    intro earlier hearlier later hlater
    rw [List.mem_singleton.mp hlater]
    exact (h.bounded earlier hearlier).2
  · intro other hother
    rw [List.mem_append, List.mem_singleton] at hother
    cases hother with
    | inl hearlier => exact (h.mono hne.le).bounded other hearlier
    | inr hlast =>
        rw [hlast]
        exact ⟨hne, le_rfl⟩

theorem Spans.limit_le {reader : SseReader} {offset : Nat} (h : Spans reader offset) :
    reader.eventStart.getD offset ≤ offset := by
  cases hstart : reader.eventStart with
  | none => exact le_rfl
  | some start =>
      have hpending := h.pending start hstart
      exact hpending.1.le.trans hpending.2

theorem Spans.ordered_offset {reader : SseReader} {offset : Nat} (h : Spans reader offset) :
    Ordered reader.events offset := h.ordered.mono h.limit_le

/-- After an event has ended, the events are within what has been read. -/
theorem Spans.of_settled {reader : SseReader} {offset : Nat} (h : Ordered reader.events offset)
    (hstart : reader.eventStart = none) (hdata : reader.dataLines = []) :
    Spans reader offset := by
  constructor
  · rw [hstart]
    exact h
  · intro start hmem
    rw [hstart] at hmem
    cases hmem
  · intro hne
    exact absurd hdata hne

theorem Spans.flush {reader : SseReader} {offset : Nat} (h : Spans reader offset) :
    Spans (reader.flush fromStr).1 offset := by
  rw [SseReader.flush]
  by_cases hempty : reader.dataLines = []
  · rw [if_pos hempty]
    exact Spans.of_settled h.ordered_offset rfl rfl
  rw [if_neg hempty]
  by_cases hmarker : Text.trimChars (joinLines reader.dataLines) = doneMarker
  · simp only [if_pos hmarker]
    exact Spans.of_settled h.ordered_offset rfl rfl
  · simp only [if_neg hmarker]
    apply Spans.of_settled _ rfl rfl
    obtain ⟨start, hstart⟩ := Option.isSome_iff_exists.mp (h.started hempty)
    have hpending := h.pending start hstart
    have hordered := h.ordered
    rw [hstart, Option.getD_some] at hordered
    dsimp only
    rw [hstart, Option.getD_some]
    apply Ordered.mono _ hpending.2
    apply Ordered.concat
    · exact hordered
    · exact hpending.1

theorem Spans.recover {reader : SseReader} {offset : Nat} (h : Spans reader offset) :
    Spans (reader.recover fromStr) offset := by
  have hflush := @Spans.flush fromStr reader offset h
  rw [SseReader.recover]
  dsimp only
  split_ifs
  · exact ⟨hflush.ordered, hflush.pending, hflush.started⟩
  · exact hflush

/-- One line of the stream, whatever it holds. -/
theorem Spans.line {reader : SseReader} {lineStart lineEnd : Nat} (h : Spans reader lineStart)
    (hlt : lineStart < lineEnd) (text : List Char) :
    Spans (reader.line fromStr lineStart lineEnd text) lineEnd := by
  have hextended : Spans { reader with eventEnd := lineEnd } lineEnd := by
    constructor
    · apply h.ordered.mono
      cases reader.eventStart with
      | none => exact hlt.le
      | some start => exact le_rfl
    · intro start hstart
      have hpending := h.pending start hstart
      exact ⟨(hpending.1.trans_le hpending.2).trans hlt, le_rfl⟩
    · exact h.started
  have hrecover : ∀ (choice : Prop) [Decidable choice],
      Spans (if choice then reader.recover fromStr else reader) lineStart := by
    intro choice _
    split_ifs
    · exact h.recover
    · exact h
  rw [SseReader.line]
  by_cases hblank : text = []
  · rw [if_pos hblank]
    exact hextended.flush
  rw [if_neg hblank]
  by_cases hevent : (eventField ++ [':']).isPrefixOf text = true
  · rw [if_pos hevent]
    constructor
    · exact (hrecover (reader.dataLines ≠ [])).ordered_offset
    · rintro start ⟨rfl⟩
      exact ⟨hlt, le_rfl⟩
    · exact fun _ => rfl
  rw [if_neg hevent]
  by_cases hdata : (dataField ++ [':']).isPrefixOf text = true
  · rw [if_pos hdata]
    constructor
    · exact (hrecover _).ordered
    · rintro start ⟨rfl⟩
      exact ⟨(hrecover _).limit_le.trans_lt hlt, le_rfl⟩
    · exact fun _ => rfl
  rw [if_neg hdata]
  by_cases hinside : reader.eventStart.isSome = true
  · rw [if_pos hinside]
    exact hextended
  · have hstart : reader.eventStart = none := by simpa using hinside
    rw [if_neg hinside]
    constructor
    · rw [hstart]
      exact h.ordered_offset.mono hlt.le
    · intro start hmem
      rw [hstart] at hmem
      cases hmem
    · exact h.started

theorem flush_byteOffset (reader : SseReader) :
    (reader.flush fromStr).1.byteOffset = reader.byteOffset := by
  rw [SseReader.flush]
  dsimp only
  split_ifs <;> rfl

theorem recover_byteOffset (reader : SseReader) :
    (reader.recover fromStr).byteOffset = reader.byteOffset := by
  have hflush := @flush_byteOffset fromStr reader
  rw [SseReader.recover]
  dsimp only
  split_ifs
  · exact hflush
  · exact hflush

theorem line_byteOffset (reader : SseReader) (lineStart lineEnd : Nat) (text : List Char) :
    (reader.line fromStr lineStart lineEnd text).byteOffset = reader.byteOffset := by
  have hrecover : ∀ (choice : Prop) [Decidable choice],
      (if choice then reader.recover fromStr else reader).byteOffset = reader.byteOffset := by
    intro choice _
    split_ifs
    · exact recover_byteOffset reader
    · rfl
  rw [SseReader.line]
  by_cases hblank : text = []
  · rw [if_pos hblank]
    exact flush_byteOffset _
  rw [if_neg hblank]
  by_cases hevent : (eventField ++ [':']).isPrefixOf text = true
  · rw [if_pos hevent]
    exact hrecover _
  rw [if_neg hevent]
  by_cases hdata : (dataField ++ [':']).isPrefixOf text = true
  · rw [if_pos hdata]
    exact hrecover _
  rw [if_neg hdata]
  split_ifs <;> rfl

theorem Spans.foldl_readLine (pieces : List (List Char)) :
    ∀ reader : SseReader, Spans reader reader.byteOffset → (∀ piece ∈ pieces, piece ≠ []) →
      Spans (pieces.foldl (SseReader.readLine fromStr) reader)
        (reader.byteOffset + Text.byteLength pieces.flatten) := by
  induction pieces with
  | nil =>
      intro reader h _
      exact h
  | cons piece pieces ih =>
      intro reader h hne
      have hpos := Text.byteLength_pos (hne piece List.mem_cons_self)
      have hread : Spans (reader.readLine fromStr piece)
          (reader.byteOffset + Text.byteLength piece) := by
        apply Spans.line _ (Nat.lt_add_of_pos_right hpos)
        exact ⟨h.ordered, h.pending, h.started⟩
      have hoffset : (reader.readLine fromStr piece).byteOffset =
          reader.byteOffset + Text.byteLength piece := line_byteOffset _ _ _ _
      have hmore := ih (reader.readLine fromStr piece) (by rwa [hoffset])
        fun other hother => hne other (List.mem_cons_of_mem piece hother)
      rw [hoffset] at hmore
      rw [List.flatten_cons, Text.byteLength_append, ← Nat.add_assoc]
      exact hmore

/-- The ranges of any stream are in bounds, in order and disjoint. -/
theorem parseSse_ordered (raw : List Char) :
    Ordered (parseSse fromStr raw).events (Text.byteLength raw) := by
  have hstart : Spans {} 0 := Spans.of_settled ⟨List.Pairwise.nil, nofun⟩ rfl rfl
  have hread := @Spans.foldl_readLine fromStr (Text.splitInclusive raw) {} hstart
    fun piece hmem => Text.ne_nil_of_mem_splitInclusive hmem
  rw [Text.flatten_splitInclusive, Nat.zero_add] at hread
  exact hread.flush.ordered_offset

end ChipTrace.ModelInteraction
