/-
The rows of the pages tile a Turn file, however its reads split it.
-/
import ChipTrace.Turns.Pages
import Mathlib.Algebra.GroupWithZero.Nat

namespace ChipTrace.Turns

section Reading

variable {content consumed : Bytes} {reader : BufReader}

/-- The reader has given out the start of the content; what it has read is valid up to the bytes of
an unfinished character. -/
structure Holds (content consumed : Bytes) (reader : BufReader) : Prop where
  buffered : consumed ++ reader.buffer = reader.inner.digested
  pending : reader.inner.digested ++ reader.inner.chunks.flatten = content
  ne_nil : ∀ chunk ∈ reader.inner.chunks, chunk ≠ []
  bytes : reader.inner.bytes = reader.inner.digested.length
  limit : reader.inner.limit = content.length
  utf8 : ∃ text, reader.inner.digested = Bytes.encode text ++ reader.inner.utf8

theorem holds_start (reads : Reads content) :
    Holds content [] { inner := { chunks := reads.chunks, limit := content.length } } where
  buffered := rfl
  pending := reads.flatten_eq
  ne_nil := reads.ne_nil
  bytes := rfl
  limit := rfl
  utf8 := ⟨[], rfl⟩

theorem Holds.consume (h : Holds content consumed reader) (count : Nat) :
    Holds content (consumed ++ reader.buffer.take count) (reader.consume count) where
  buffered := by
    rw [BufReader.consume, List.append_assoc, List.take_append_drop]
    exact h.buffered
  pending := h.pending
  ne_nil := h.ne_nil
  bytes := h.bytes
  limit := h.limit
  utf8 := h.utf8

theorem Holds.length_le (h : Holds content consumed reader) :
    reader.inner.bytes + (reader.inner.chunks.headD []).length ≤ reader.inner.limit := by
  rw [h.limit, h.bytes, ← h.pending, List.length_append]
  cases reader.inner.chunks with
  | nil => exact Nat.le_add_right _ _
  | cons chunk rest =>
      rw [List.headD_cons, List.flatten_cons, List.length_append]
      omega

theorem headD_append_tail {chunks : List Bytes} :
    chunks.headD [] ++ chunks.tail.flatten = chunks.flatten := by
  cases chunks with
  | nil => rfl
  | cons chunk rest => rfl

/-- What the reader has after a read of the file. -/
theorem Holds.readFile (h : Holds content consumed reader) (hempty : reader.buffer = [])
    {rest : Bytes} (hrest : ∃ text, reader.inner.digested ++ reader.inner.chunks.headD [] =
      Bytes.encode text ++ rest) :
    Holds content consumed ⟨reader.inner.chunks.headD [], { reader.inner with
      chunks := reader.inner.chunks.tail
      digested := reader.inner.digested ++ reader.inner.chunks.headD []
      bytes := reader.inner.bytes + (reader.inner.chunks.headD []).length
      utf8 := rest }⟩ where
  buffered := by
    rw [← h.buffered, hempty, List.append_nil]
  pending := by
    rw [List.append_assoc, headD_append_tail]
    exact h.pending
  ne_nil := fun chunk hchunk => h.ne_nil chunk (List.mem_of_mem_tail hchunk)
  bytes := by
    rw [h.bytes, List.length_append]
  limit := h.limit
  utf8 := hrest

/-- A reader with nothing buffered that reads nothing has given out the content. -/
theorem Holds.atEnd (h : Holds content consumed reader) (hempty : reader.buffer = [])
    (hend : reader.inner.chunks.headD [] = []) :
    consumed = content ∧ reader.inner.digested = content := by
  have hchunks : reader.inner.chunks = [] := by
    cases hchunks : reader.inner.chunks with
    | nil => rfl
    | cons chunk rest =>
        rw [hchunks] at hend
        exact absurd hend (h.ne_nil chunk (hchunks ▸ List.mem_cons_self))
  have hdigested := h.pending
  rw [hchunks, List.flatten_nil, List.append_nil] at hdigested
  have hconsumed := h.buffered
  rw [hempty, List.append_nil] at hconsumed
  exact ⟨hconsumed.trans hdigested, hdigested⟩

/-- A reader that has given out the content has read it. -/
theorem Holds.complete (h : Holds content content reader) : reader.inner.digested = content := by
  have hpending := congrArg List.length h.pending
  have hbuffered := congrArg List.length h.buffered
  rw [List.length_append] at hpending hbuffered
  have hempty : reader.buffer = [] := List.eq_nil_of_length_eq_zero (by omega)
  rw [← h.buffered, hempty, List.append_nil]

theorem Holds.read (h : Holds content consumed reader) (hempty : reader.buffer = []) :
    (∃ chunk inner, reader.inner.read = .ok (chunk, inner) ∧ Holds content consumed ⟨chunk, inner⟩ ∧
      (chunk = [] → consumed = content ∧ content.Valid)) ∨
    ((∃ message, reader.inner.read = .error message) ∧ ¬ content.Valid) := by
  obtain ⟨text, htext⟩ := h.utf8
  have hcheck := Bytes.utf8Check_describes (reader.inner.utf8 ++ reader.inner.chunks.headD [])
  rw [CheckedReader.read, if_neg (Nat.not_lt.mpr h.length_le)]
  split
  · next hvalid =>
      rw [hvalid] at hcheck
      obtain ⟨more, hmore⟩ := hcheck
      have hread : reader.inner.digested ++ reader.inner.chunks.headD [] =
          Bytes.encode (text ++ more) := by
        rw [htext, List.append_assoc, ← hmore, Bytes.encode_append]
      refine Or.inl ⟨_, _, rfl, h.readFile hempty ⟨text ++ more, ?_⟩, fun hend => ?_⟩
      · rw [hread, List.append_nil]
      · obtain ⟨hconsumed, hdigested⟩ := h.atEnd hempty hend
        refine ⟨hconsumed, text ++ more, ?_⟩
        rw [← hread, hend, List.append_nil, hdigested]
  · next rest hunfinished =>
      rw [hunfinished] at hcheck
      obtain ⟨⟨more, hmore⟩, hrest⟩ := hcheck
      have hread : reader.inner.digested ++ reader.inner.chunks.headD [] =
          Bytes.encode (text ++ more) ++ rest := by
        rw [htext, List.append_assoc, hmore, Bytes.encode_append, List.append_assoc]
      split
      · next hend =>
          refine Or.inr ⟨⟨_, rfl⟩, fun hvalid => hrest ?_⟩
          rw [← (h.atEnd hempty hend).2, ← List.append_nil reader.inner.digested, ← hend,
            hread] at hvalid
          exact Bytes.valid_encode_append.mp hvalid
      · next hmoreBytes =>
          exact Or.inl ⟨_, _, rfl, h.readFile hempty ⟨text ++ more, hread⟩,
            fun hend => absurd hend hmoreBytes⟩
  · next hinvalid =>
      rw [hinvalid] at hcheck
      refine Or.inr ⟨⟨_, rfl⟩, fun hvalid => ?_⟩
      rw [← h.pending, htext, ← headD_append_tail, List.append_assoc,
        Bytes.valid_encode_append, ← List.append_assoc] at hvalid
      exact hcheck _ hvalid

theorem Holds.fillBuf (h : Holds content consumed reader) :
    (∃ next, reader.fillBuf = .ok next ∧ Holds content consumed next ∧
      (next.buffer = [] → consumed = content ∧ content.Valid)) ∨
    ((∃ message, reader.fillBuf = .error message) ∧ ¬ content.Valid) := by
  rw [BufReader.fillBuf]
  by_cases hempty : reader.buffer = []
  · rw [if_pos hempty]
    rcases h.read hempty with ⟨chunk, inner, hread, hnext, hend⟩ | ⟨⟨message, hread⟩, hinvalid⟩
    · rw [hread]
      exact Or.inl ⟨⟨chunk, inner⟩, rfl, hnext, hend⟩
    · rw [hread]
      exact Or.inr ⟨⟨message, rfl⟩, hinvalid⟩
  · rw [if_neg hempty]
    exact Or.inl ⟨reader, rfl, h, fun hnil => absurd hnil hempty⟩

end Reading

section Line

variable {content start soFar togo more : Bytes} {line : JsonLine}

/-- Bytes that are a line with its newline, or the last line without one. -/
def IsPiece (piece more : Bytes) : Prop :=
  (∃ text, 10 ∉ text ∧ piece = text ++ [10]) ∨ (10 ∉ piece ∧ more = [])

/-- Part of a line is read, and `togo` is the rest of it. -/
structure Reading (content start soFar togo more : Bytes) (line : JsonLine) : Prop where
  holds : Holds content (start ++ soFar) line.inner
  content_eq : content = start ++ (soFar ++ togo) ++ more
  piece : IsPiece (soFar ++ togo) more
  bytes : line.bytes = soFar.length
  newline : line.newline = true ↔ 10 ∈ soFar

/-- Nothing of a line comes behind its newline. -/
theorem IsPiece.eq_nil (h : IsPiece (soFar ++ togo) more) (hmem : 10 ∈ soFar) : togo = [] := by
  rcases h with ⟨text, htext, heq⟩ | ⟨hnot, _⟩
  · by_contra hne
    obtain ⟨rest, last, rfl⟩ := (List.eq_nil_or_concat togo).resolve_left hne
    rw [List.concat_eq_append, ← List.append_assoc] at heq
    have hsame := (List.append_inj' heq rfl).1
    exact htext (hsame ▸ List.mem_append_left rest hmem)
  · exact absurd (List.mem_append_left togo hmem) hnot

theorem IsPiece.rest (h : IsPiece (soFar ++ togo) more) (hnot : 10 ∉ soFar) :
    IsPiece togo more := by
  rcases h with ⟨text, htext, heq⟩ | ⟨hnone, hmore⟩
  · rcases List.eq_nil_or_concat togo with rfl | ⟨left, last, rfl⟩
    · rw [List.append_nil] at heq
      exact absurd (heq ▸ List.mem_append_right text (List.mem_singleton_self 10)) hnot
    · rw [List.concat_eq_append, ← List.append_assoc] at heq
      obtain ⟨hsame, hlast⟩ := List.append_inj' heq rfl
      refine Or.inl ⟨left, fun hmem => htext (hsame ▸ List.mem_append_right soFar hmem), ?_⟩
      rw [List.concat_eq_append, hlast]
  · exact Or.inr ⟨fun hmem => hnone (List.mem_append_right soFar hmem), hmore⟩

/-- What is taken up to the first newline is the line. -/
theorem IsPiece.takes_newline (h : IsPiece togo more) {text rest : Bytes} (htext : 10 ∉ text)
    (heq : togo ++ more = (text ++ [10]) ++ rest) : togo = text ++ [10] := by
  rcases h with ⟨other, hother, rfl⟩ | ⟨hnone, rfl⟩
  · rw [List.append_assoc, List.append_assoc] at heq
    rw [Bytes.first_line_inj hother htext heq]
  · rw [List.append_nil] at heq
    refine absurd ?_ hnone
    rw [heq]
    exact List.mem_append_left rest (List.mem_append_right text (List.mem_singleton_self 10))

/-- What is taken without a newline is part of the line. -/
theorem IsPiece.takes_part (h : IsPiece togo more) {taken rest : Bytes} (htaken : 10 ∉ taken)
    (heq : togo ++ more = taken ++ rest) : ∃ left, togo = taken ++ left := by
  rcases List.append_eq_append_iff.mp heq with ⟨gap, hgap, hmore⟩ | ⟨gap, hgap, _⟩
  · rcases h with ⟨text, _, rfl⟩ | ⟨_, rfl⟩
    · refine absurd ?_ htaken
      rw [hgap]
      exact List.mem_append_left gap (List.mem_append_right text (List.mem_singleton_self 10))
    · have hnil := (List.append_eq_nil_iff.mp hmore.symm).1
      exact ⟨[], by rw [hgap, hnil, List.append_nil, List.append_nil]⟩
  · exact ⟨gap, hgap⟩

variable {inner : BufReader}

theorem Reading.rest_eq (h : Reading content start soFar togo more line)
    (hinner : Holds content (start ++ soFar) inner) :
    togo ++ more = inner.buffer ++ inner.inner.chunks.flatten := by
  have hcontent := hinner.pending
  rw [← hinner.buffered, h.content_eq] at hcontent
  simp only [List.append_assoc, List.append_cancel_left_eq] at hcontent
  exact hcontent.symm

/-- The line ends where its newline is taken. -/
theorem Reading.takeLine (h : Reading content start soFar togo more line) (hnot : 10 ∉ soFar)
    (hinner : Holds content (start ++ soFar) inner) {index : Nat}
    (hlt : index < inner.buffer.length) (htext : 10 ∉ inner.buffer.take index)
    (htake : inner.buffer.take (index + 1) = inner.buffer.take index ++ [10]) :
    togo = inner.buffer.take (index + 1) ∧
      Reading content start (soFar ++ inner.buffer.take (index + 1)) [] more
        ⟨inner.consume (index + 1), line.bytes + (index + 1), true⟩ := by
  have hrest : togo ++ more = (inner.buffer.take index ++ [10]) ++
      (inner.buffer.drop (index + 1) ++ inner.inner.chunks.flatten) := by
    rw [← htake, ← List.append_assoc, List.take_append_drop]
    exact h.rest_eq hinner
  have htogo : togo = inner.buffer.take (index + 1) := by
    rw [htake]
    exact (h.piece.rest hnot).takes_newline htext hrest
  refine ⟨htogo, ?_⟩
  exact {
    holds := by
      rw [← List.append_assoc]
      exact hinner.consume (index + 1)
    content_eq := by
      rw [List.append_nil, ← htogo]
      exact h.content_eq
    piece := by
      rw [List.append_nil, ← htogo]
      exact h.piece
    bytes := by
      rw [List.length_append, List.length_take, Nat.min_eq_left hlt, h.bytes]
    newline := by
      rw [htake]
      simp }

/-- The line goes on when no newline is taken. -/
theorem Reading.takePart (h : Reading content start soFar togo more line) (hnot : 10 ∉ soFar)
    (hinner : Holds content (start ++ soFar) inner) {count : Nat}
    (hle : count ≤ inner.buffer.length) (hnone : 10 ∉ inner.buffer.take count) :
    ∃ left, togo = inner.buffer.take count ++ left ∧
      Reading content start (soFar ++ inner.buffer.take count) left more
        ⟨inner.consume count, line.bytes + count, false⟩ := by
  have hrest : togo ++ more = inner.buffer.take count ++
      (inner.buffer.drop count ++ inner.inner.chunks.flatten) := by
    rw [← List.append_assoc, List.take_append_drop]
    exact h.rest_eq hinner
  obtain ⟨left, hleft⟩ := (h.piece.rest hnot).takes_part hnone hrest
  refine ⟨left, hleft, ?_⟩
  exact {
    holds := by
      rw [← List.append_assoc]
      exact hinner.consume count
    content_eq := by
      rw [List.append_assoc soFar, ← hleft]
      exact h.content_eq
    piece := by
      rw [List.append_assoc, ← hleft]
      exact h.piece
    bytes := by
      rw [List.length_append, List.length_take, Nat.min_eq_left hle, h.bytes]
    newline := by
      rw [List.mem_append]
      constructor
      · intro hfalse
        cases hfalse
      · intro hmem
        exact absurd hmem (not_or.mpr ⟨hnot, hnone⟩) }

/-- The next bytes of a line after a read, or invalid content. -/
theorem Reading.read (h : Reading content start soFar togo more line) {length : Nat}
    (hlength : 0 < length) :
    (∃ taken left next, line.read length = .ok (taken, next) ∧ togo = taken ++ left ∧
      (taken = [] → togo = []) ∧ Reading content start (soFar ++ taken) left more next) ∨
    ((∃ message, line.read length = .error message) ∧ ¬ content.Valid) := by
  rw [JsonLine.read]
  by_cases hnewline : line.newline = true
  · have hnil := h.piece.eq_nil (h.newline.mp hnewline)
    rw [hnewline, Bool.true_or, if_pos rfl]
    refine Or.inl ⟨[], [], line, rfl, hnil, fun _ => hnil, ?_⟩
    rw [List.append_nil, ← hnil]
    exact h
  · have hnot : 10 ∉ soFar := fun hmem => hnewline (h.newline.mpr hmem)
    rw [Bool.eq_false_iff.mpr hnewline, Bool.false_or, if_neg (by simpa using Nat.ne_of_gt hlength)]
    rcases h.holds.fillBuf with ⟨inner, hfill, hinner, hend⟩ | ⟨⟨message, hfill⟩, hinvalid⟩
    · rw [hfill, Except.ok_bind]
      have hle := Nat.min_le_right length inner.buffer.length
      simp only
      cases hindex : (inner.buffer.take (min length inner.buffer.length)).findIdx? (· == 10) with
      | some index =>
          obtain ⟨hlt, htext, htake⟩ := Bytes.take_findIdx? hindex
          rw [List.length_take, Nat.min_eq_left hle] at hlt
          rw [List.take_take, Nat.min_eq_left hlt.le] at htext
          rw [List.take_take, List.take_take, Nat.min_eq_left hlt, Nat.min_eq_left hlt.le] at htake
          obtain ⟨htogo, hnext⟩ := h.takeLine hnot hinner (hlt.trans_le hle) htext htake
          exact Or.inl ⟨_, [], _, rfl, by rw [List.append_nil]; exact htogo,
            fun hnil => htogo.trans hnil, hnext⟩
      | none =>
          have hnone : 10 ∉ inner.buffer.take (min length inner.buffer.length) := by
            intro hmem
            cases List.findIdx?_eq_none_iff.mp hindex 10 hmem
          obtain ⟨left, hleft, hnext⟩ := h.takePart hnot hinner hle hnone
          refine Or.inl ⟨_, left, _, rfl, hleft, fun hnil => ?_, hnext⟩
          have hempty : inner.buffer = [] := by
            have hzero := congrArg List.length hnil
            rw [List.length_take, List.length_nil] at hzero
            exact List.eq_nil_of_length_eq_zero (by omega)
          have hgiven := congrArg List.length (hend hempty).1
          have hwhole := congrArg List.length h.content_eq
          simp only [List.length_append] at hgiven hwhole
          exact List.eq_nil_of_length_eq_zero (by omega)
    · rw [hfill]
      exact Or.inr ⟨⟨message, rfl⟩, hinvalid⟩

/-- However its reads go, a line is read to its end, or the content is not valid. -/
theorem Reading.readAll (wants : Bytes → Nat) {fuel : Nat}
    (h : Reading content start soFar togo more line) (hfuel : togo.length < fuel) :
    (∃ next, JsonLine.readAll wants fuel soFar line = .ok (soFar ++ togo, next) ∧
      Reading content start (soFar ++ togo) [] more next) ∨
    ((∃ message, JsonLine.readAll wants fuel soFar line = .error message) ∧ ¬ content.Valid) := by
  induction fuel generalizing soFar togo line with
  | zero => exact absurd hfuel (Nat.not_lt_zero _)
  | succ fuel ih =>
      rw [JsonLine.readAll]
      rcases h.read (Nat.succ_pos (wants soFar)) with
        ⟨taken, left, next, hread, rfl, hend, hnext⟩ | ⟨⟨message, hread⟩, hinvalid⟩
      · rw [hread, Except.ok_bind]
        simp only
        split
        · next hnil =>
            have htogo := hend hnil
            rw [htogo, List.append_nil]
            obtain ⟨rfl, rfl⟩ := List.append_eq_nil_iff.mp htogo
            rw [List.append_nil] at hnext
            exact Or.inl ⟨next, rfl, hnext⟩
        · next htaken =>
            have htakenPos := List.length_pos_iff.mpr htaken
            rw [List.length_append] at hfuel
            rw [← List.append_assoc]
            exact ih hnext (by omega)
      · rw [hread]
        exact Or.inr ⟨⟨message, rfl⟩, hinvalid⟩

end Line

section Rows

def rowOf (start : Nat) (piece : Bytes) : Row :=
  ⟨start, piece.length - (if 10 ∈ piece then 1 else 0)⟩

/-- The byte ranges of lines, without their newlines. -/
def rowsOf : Nat → List Bytes → List Row
  | _, [] => []
  | start, piece :: rest => rowOf start piece :: rowsOf (start + piece.length) rest

theorem rowsOf_concat (start : Nat) (done : List Bytes) (piece : Bytes) :
    rowsOf start (done ++ [piece]) =
      rowsOf start done ++ [rowOf (start + done.flatten.length) piece] := by
  induction done generalizing start with
  | nil => rfl
  | cons first rest ih =>
      rw [List.cons_append, rowsOf, rowsOf, ih, List.cons_append, List.flatten_cons,
        List.length_append, Nat.add_assoc]

theorem length_rowsOf (start : Nat) (done : List Bytes) :
    (rowsOf start done).length = done.length := by
  induction done generalizing start with
  | nil => rfl
  | cons first rest ih => rw [rowsOf, List.length_cons, List.length_cons, ih]

def pageOf (offset limit : Nat) (rows : List Row) : List Row := (rows.drop offset).take limit

/-- A row is on the page by its index. -/
theorem pageOf_concat (offset limit : Nat) (rows : List Row) (row : Row) :
    pageOf offset limit (rows ++ [row]) =
      if offset ≤ rows.length && decide (rows.length - offset < limit) then
        pageOf offset limit rows ++ [row]
      else pageOf offset limit rows := by
  rw [pageOf, pageOf]
  by_cases hoffset : offset ≤ rows.length
  · rw [List.drop_append_of_le_length hoffset]
    by_cases hlimit : rows.length - offset < limit
    · rw [if_pos (by simp [hoffset, hlimit]), List.take_of_length_le, List.take_of_length_le]
      · rw [List.length_drop]
        omega
      · rw [List.length_append, List.length_drop, List.length_singleton]
        omega
    · rw [if_neg (by simp [hlimit]), List.take_append_of_le_length]
      rw [List.length_drop]
      omega
  · rw [if_neg (by simp [hoffset]), List.drop_eq_nil_of_le, List.drop_eq_nil_of_le]
    · omega
    · rw [List.length_append, List.length_singleton]
      omega

end Rows

section Scans

variable {accepts : Bytes → Bool} {wants : Bytes → Nat} {offset limit : Nat}
  {content : Bytes} {done : List Bytes} {scan : Scan}

/-- The scan has read the first lines of the content. -/
structure Scanned (offset limit : Nat) (content : Bytes) (done : List Bytes) (scan : Scan) :
    Prop where
  holds : Holds content done.flatten scan.reader
  records : scan.records = done.length
  position : scan.position = done.flatten.length
  rows : scan.rows = pageOf offset limit (rowsOf 0 done)

theorem Scanned.readRecord (accepts : Bytes → Bool) (wants : Bytes → Nat)
    (h : Scanned offset limit content done scan) {piece more : Bytes}
    (hcontent : content = done.flatten ++ piece ++ more) (hpiece : IsPiece piece more) :
    (∃ next, scan.readRecord accepts wants offset limit = .ok next ∧
      Scanned offset limit content (done ++ [piece]) next ∧ accepts piece = true) ∨
    ((∃ message, scan.readRecord accepts wants offset limit = .error message) ∧
      ¬ (content.Valid ∧ accepts piece = true)) := by
  have hstart : Reading content done.flatten [] piece more ⟨scan.reader, 0, false⟩ := {
    holds := by
      rw [List.append_nil]
      exact h.holds
    content_eq := hcontent
    piece := hpiece
    bytes := rfl
    newline := by simp }
  have hfuel : piece.length < scan.reader.inner.limit + 1 := by
    have hlength := congrArg List.length hcontent
    rw [h.holds.limit]
    simp only [List.length_append] at hlength
    omega
  rw [Scan.readRecord]
  rcases hstart.readAll wants hfuel with ⟨line, hread, hline⟩ | ⟨⟨message, hread⟩, hinvalid⟩
  · rw [List.nil_append] at hread hline
    rw [hread, Except.ok_bind]
    simp only
    by_cases haccepts : accepts piece = true
    · rw [haccepts, Bool.not_true, if_neg Bool.false_ne_true]
      refine Or.inl ⟨_, rfl, ?_, rfl⟩
      have hrow : (⟨scan.position, line.bytes - (if line.newline then 1 else 0)⟩ : Row) =
          rowOf done.flatten.length piece := by
        rw [rowOf, hline.bytes, h.position]
        simp only [hline.newline]
      exact {
        holds := by
          rw [List.flatten_append, List.flatten_singleton]
          exact hline.holds
        records := by
          rw [List.length_append, List.length_singleton, h.records]
        position := by
          rw [List.flatten_append, List.flatten_singleton, List.length_append, hline.bytes,
            h.position]
        rows := by
          rw [hrow, rowsOf_concat, Nat.zero_add, pageOf_concat, length_rowsOf, h.records, h.rows] }
    · rw [Bool.eq_false_iff.mpr haccepts, Bool.not_false, if_pos rfl]
      exact Or.inr ⟨⟨_, rfl⟩, fun hboth => Bool.false_ne_true hboth.2⟩
  · rw [hread]
    exact Or.inr ⟨⟨message, rfl⟩, fun hboth => hinvalid hboth.1⟩

/-- After the last line, the scan sees the end of the content or that it is not valid. -/
theorem Scanned.atEnd (accepts : Bytes → Bool) (wants : Bytes → Nat) (fuel : Nat)
    (h : Scanned offset limit content done scan) (hcontent : content = done.flatten) :
    (∃ last, Scan.run accepts wants offset limit (fuel + 1) scan = .ok last ∧
      Scanned offset limit content done last ∧ content.Valid) ∨
    ((∃ message, Scan.run accepts wants offset limit (fuel + 1) scan = .error message) ∧
      ¬ content.Valid) := by
  rw [Scan.run]
  rcases h.holds.fillBuf with ⟨reader, hfill, hreader, hend⟩ | ⟨⟨message, hfill⟩, hinvalid⟩
  · have hempty : reader.buffer = [] := by
      have hpending := congrArg List.length hreader.pending
      have hbuffered := congrArg List.length hreader.buffered
      have hlength := congrArg List.length hcontent
      rw [List.length_append] at hpending hbuffered
      exact List.eq_nil_of_length_eq_zero (by omega)
    rw [hfill, Except.ok_bind, if_pos hempty]
    exact Or.inl ⟨_, rfl, ⟨hreader, h.records, h.position, h.rows⟩, (hend hempty).2⟩
  · rw [hfill]
    exact Or.inr ⟨⟨message, rfl⟩, hinvalid⟩

/-- While there are lines, the scan reads the next one. -/
theorem Scanned.next (accepts : Bytes → Bool) (wants : Bytes → Nat) (fuel : Nat)
    (h : Scanned offset limit content done scan) {piece more : Bytes} (hne : piece ≠ [])
    (hcontent : content = done.flatten ++ piece ++ more) (hpiece : IsPiece piece more) :
    (∃ next, Scan.run accepts wants offset limit (fuel + 1) scan =
        Scan.run accepts wants offset limit fuel next ∧
      Scanned offset limit content (done ++ [piece]) next ∧ accepts piece = true) ∨
    ((∃ message, Scan.run accepts wants offset limit (fuel + 1) scan = .error message) ∧
      ¬ (content.Valid ∧ accepts piece = true)) := by
  rw [Scan.run]
  rcases h.holds.fillBuf with ⟨reader, hfill, hreader, hend⟩ | ⟨⟨message, hfill⟩, hinvalid⟩
  · have hbuffer : reader.buffer ≠ [] := by
      intro hempty
      have hlength := congrArg List.length hcontent
      rw [← (hend hempty).1] at hlength
      simp only [List.length_append] at hlength
      exact hne (List.eq_nil_of_length_eq_zero (by omega))
    have hfilled : Scanned offset limit content done { scan with reader := reader } :=
      ⟨hreader, h.records, h.position, h.rows⟩
    rw [hfill, Except.ok_bind, if_neg hbuffer]
    rcases hfilled.readRecord accepts wants hcontent hpiece with
      ⟨next, hread, hnext, haccepts⟩ | ⟨⟨message, hread⟩, hnot⟩
    · rw [hread, Except.ok_bind]
      exact Or.inl ⟨next, rfl, hnext, haccepts⟩
    · rw [hread]
      exact Or.inr ⟨⟨message, rfl⟩, hnot⟩
  · rw [hfill]
    exact Or.inr ⟨⟨message, rfl⟩, fun hboth => hinvalid hboth.1⟩

/-- The scan reads every line, or one is not accepted, or the content is not valid. -/
theorem Scanned.run (accepts : Bytes → Bool) (wants : Bytes → Nat) (togo : Bytes) {fuel : Nat}
    (h : Scanned offset limit content done scan) (hcontent : content = done.flatten ++ togo)
    (hfuel : togo.length < fuel) :
    (∃ last, Scan.run accepts wants offset limit fuel scan = .ok last ∧
      Scanned offset limit content (done ++ Bytes.pieces togo) last ∧ content.Valid ∧
      ∀ piece ∈ Bytes.pieces togo, accepts piece = true) ∨
    ((∃ message, Scan.run accepts wants offset limit fuel scan = .error message) ∧
      ¬ (content.Valid ∧ ∀ piece ∈ Bytes.pieces togo, accepts piece = true)) := by
  induction togo using Bytes.pieces_induction generalizing done scan fuel with
  | hnil =>
      obtain ⟨fuel, rfl⟩ := Nat.exists_eq_succ_of_ne_zero (Nat.ne_zero_of_lt hfuel)
      rw [List.append_nil] at hcontent
      rw [Bytes.pieces, List.append_nil]
      rcases h.atEnd accepts wants fuel hcontent with
        ⟨last, hrun, hlast, hvalid⟩ | ⟨hrun, hinvalid⟩
      · exact Or.inl ⟨last, hrun, hlast, hvalid, List.forall_mem_nil _⟩
      · exact Or.inr ⟨hrun, fun hboth => hinvalid hboth.1⟩
  | hlast line hline hne =>
      obtain ⟨fuel, rfl⟩ := Nat.exists_eq_succ_of_ne_zero (Nat.ne_zero_of_lt hfuel)
      rw [Bytes.pieces_last hline hne, List.forall_mem_singleton]
      have hparts : content = done.flatten ++ line ++ [] := by rw [hcontent, List.append_nil]
      rcases h.next accepts wants fuel hne hparts (Or.inr ⟨hline, rfl⟩) with
        ⟨next, hrun, hnext, haccepts⟩ | hfailed
      · have hend : content = (done ++ [line]).flatten := by
          rw [hcontent, List.flatten_append, List.flatten_singleton]
        obtain ⟨fuel, rfl⟩ : ∃ left, fuel = left + 1 :=
          Nat.exists_eq_succ_of_ne_zero (by have := List.length_pos_iff.mpr hne; omega)
        rw [hrun]
        rcases hnext.atEnd accepts wants fuel hend with
          ⟨last, hlast, hscanned, hvalid⟩ | ⟨hlast, hinvalid⟩
        · exact Or.inl ⟨last, hlast, hscanned, hvalid, haccepts⟩
        · exact Or.inr ⟨hlast, fun hboth => hinvalid hboth.1⟩
      · exact Or.inr hfailed
  | hline line rest hline ih =>
      obtain ⟨fuel, rfl⟩ := Nat.exists_eq_succ_of_ne_zero (Nat.ne_zero_of_lt hfuel)
      rw [Bytes.pieces_line hline, List.forall_mem_cons]
      have hparts : content = done.flatten ++ (line ++ [10]) ++ rest := by
        rw [hcontent, List.append_assoc, List.append_assoc, List.singleton_append]
      have hne : line ++ [10] ≠ [] := List.append_ne_nil_of_right_ne_nil line (List.cons_ne_nil _ _)
      rcases h.next accepts wants fuel hne hparts (Or.inl ⟨line, hline, rfl⟩) with
        ⟨next, hrun, hnext, haccepts⟩ | ⟨hrun, hnot⟩
      · have hrest : content = (done ++ [line ++ [10]]).flatten ++ rest := by
          rw [hparts, List.flatten_append, List.flatten_singleton]
        have hless : rest.length < fuel := by
          rw [List.length_append, List.length_cons] at hfuel
          omega
        rw [hrun]
        rcases ih hnext hrest hless with ⟨last, hlast, hscanned, hvalid, hall⟩ | ⟨hlast, hnot⟩
        · rw [List.append_assoc, List.singleton_append] at hscanned
          exact Or.inl ⟨last, hlast, hscanned, hvalid, haccepts, hall⟩
        · exact Or.inr ⟨hlast, fun hboth => hnot ⟨hboth.1, hboth.2.2⟩⟩
      · exact Or.inr ⟨hrun, fun hboth => hnot ⟨hboth.1, hboth.2.1⟩⟩

/-- Every line of the file is one record: valid text that the parser accepts as one value. -/
def EveryLine (accepts : Bytes → Bool) (content : Bytes) : Prop :=
  ∀ piece ∈ Bytes.pieces content, piece.Valid ∧ accepts piece = true

theorem everyLine_iff (accepts : Bytes → Bool) (content : Bytes) :
    EveryLine accepts content ↔
      content.Valid ∧ ∀ piece ∈ Bytes.pieces content, accepts piece = true := by
  rw [EveryLine, Bytes.valid_iff_pieces]
  exact forall₂_and

/-- The requests that the reader serves: the guards of the page and of the file's size. -/
def Served (limit maxBytes : Nat) (content : Bytes) : Prop :=
  0 < limit ∧ limit ≤ 100 ∧ 0 < maxBytes ∧ content.length ≤ maxBytes

theorem turnPage_spec (accepts : Bytes → Bool) (wants : Bytes → Nat) (sha256 : Bytes → String)
    (offset limit maxBytes : Nat) (reads : Reads content) :
    (turnPage accepts wants sha256 offset limit reads maxBytes = .ok
        ⟨offset, limit, (Bytes.pieces content).length, content.length, sha256 content,
          pageOf offset limit (rowsOf 0 (Bytes.pieces content))⟩ ∧
      Served limit maxBytes content ∧ EveryLine accepts content) ∨
    ((∃ message, turnPage accepts wants sha256 offset limit reads maxBytes = .error message) ∧
      ¬ (Served limit maxBytes content ∧ EveryLine accepts content)) := by
  rw [turnPage]
  by_cases hlimits : (limit = 0 || decide (100 < limit) || maxBytes = 0) = true
  · rw [if_pos hlimits]
    simp only [Bool.or_eq_true, decide_eq_true_eq] at hlimits
    refine Or.inr ⟨⟨_, rfl⟩, fun hboth => ?_⟩
    obtain ⟨hpos, hle, hmax, _⟩ := hboth.1
    omega
  · rw [if_neg hlimits]
    simp only [Bool.or_eq_true, decide_eq_true_eq, not_or] at hlimits
    by_cases hsize : maxBytes < content.length
    · rw [if_pos hsize]
      exact Or.inr ⟨⟨_, rfl⟩, fun hboth => absurd hboth.1.2.2.2 (Nat.not_le.mpr hsize)⟩
    · have hserved : Served limit maxBytes content := by
        unfold Served
        omega
      have hstart : Scanned offset limit content []
          { reader := { inner := { chunks := reads.chunks, limit := content.length } } } := {
        holds := holds_start reads
        records := rfl
        position := rfl
        rows := by rw [rowsOf, pageOf, List.drop_nil, List.take_nil] }
      rw [if_neg hsize, everyLine_iff]
      rcases hstart.run accepts wants content rfl (Nat.lt_succ_self _) with
        ⟨last, hrun, hlast, hvalid, hall⟩ | ⟨⟨message, hrun⟩, hnot⟩
      · have hposition := hlast.position
        have hrecords := hlast.records
        have hrows := hlast.rows
        have hholds := hlast.holds
        rw [List.nil_append, Bytes.flatten_pieces] at hposition hholds
        rw [List.nil_append] at hrecords hrows
        have hdigested := hholds.complete
        have hbytes : last.reader.inner.bytes = content.length := by
          rw [hlast.holds.bytes, hdigested]
        rw [hrun, Except.ok_bind, if_neg (not_not.mpr hbytes),
          if_neg (not_not.mpr (hposition.trans hbytes.symm)), hdigested, hbytes, hrecords, hrows]
        exact Or.inl ⟨rfl, hserved, hvalid, hall⟩
      · rw [hrun]
        exact Or.inr ⟨⟨message, rfl⟩, fun hboth => hnot hboth.2⟩

end Scans

section Cover

/-- Rows that cover the content from a position on: no row holds a newline, and behind each row
stands a newline or the end of the content. -/
def Tiles (content : Bytes) : Nat → List Row → Prop
  | position, [] => position = content.length
  | position, row :: rest =>
      row.start = position ∧ 10 ∉ (content.drop row.start).take row.bytes ∧
        ((content[position + row.bytes]? = some 10 ∧
            Tiles content (position + row.bytes + 1) rest) ∨
          (rest = [] ∧ 0 < row.bytes ∧ position + row.bytes = content.length))

theorem rowOf_line (start : Nat) (line : Bytes) :
    rowOf start (line ++ [10]) = ⟨start, line.length⟩ := by
  have hmem : 10 ∈ line ++ [10] := List.mem_append_right line (List.mem_singleton_self 10)
  rw [rowOf, if_pos hmem, List.length_append, List.length_singleton, Nat.add_sub_cancel]

theorem rowOf_last (start : Nat) {line : Bytes} (hline : 10 ∉ line) :
    rowOf start line = ⟨start, line.length⟩ := by
  rw [rowOf, if_neg hline, Nat.sub_zero]

theorem tiles_rowsOf (done togo : Bytes) :
    Tiles (done ++ togo) done.length (rowsOf done.length (Bytes.pieces togo)) := by
  induction togo using Bytes.pieces_induction generalizing done with
  | hnil =>
      rw [List.append_nil]
      rfl
  | hlast line hline hne =>
      rw [Bytes.pieces_last hline hne, rowsOf, rowsOf, rowOf_last done.length hline]
      refine ⟨rfl, ?_, Or.inr ⟨rfl, List.length_pos_iff.mpr hne, List.length_append.symm⟩⟩
      rwa [List.drop_left, List.take_length]
  | hline line rest hline ih =>
      rw [Bytes.pieces_line hline, rowsOf, rowOf_line]
      have hrest := ih (done ++ (line ++ [10]))
      simp only [List.append_assoc, List.singleton_append, List.length_append,
        List.length_singleton] at hrest
      refine ⟨rfl, ?_, Or.inl ⟨?_, ?_⟩⟩
      · rwa [List.drop_left, List.take_left]
      · rw [← List.append_assoc, ← List.length_append, List.getElem?_append_right (Nat.le_refl _),
          Nat.sub_self]
        rfl
      · rw [List.length_append, List.length_singleton, Nat.add_assoc]
        exact hrest

variable (accepts : Bytes → Bool) (wants : Bytes → Nat) (sha256 : Bytes → String)
  {content : Bytes} (maxBytes : Nat)

/-- Pages one after another, each from the offset where the last one ends. -/
def turnPages : Nat → List (Nat × Reads content) → Except String (List TurnPage)
  | _, [] => pure []
  | offset, (limit, reads) :: rest => do
      let page ← turnPage accepts wants sha256 offset limit reads maxBytes
      let pages ← turnPages (offset + limit) rest
      pure (page :: pages)

theorem turnPage_ok {offset limit : Nat} {reads : Reads content} {page : TurnPage}
    (hpage : turnPage accepts wants sha256 offset limit reads maxBytes = .ok page) :
    page = ⟨offset, limit, (Bytes.pieces content).length, content.length, sha256 content,
      pageOf offset limit (rowsOf 0 (Bytes.pieces content))⟩ := by
  rcases turnPage_spec accepts wants sha256 offset limit maxBytes reads with
    ⟨hok, _⟩ | ⟨⟨message, herror⟩, _⟩
  · exact Except.ok.inj (hpage.symm.trans hok)
  · cases hpage.symm.trans herror

theorem turnPages_rows {offset : Nat} {requests : List (Nat × Reads content)}
    {pages : List TurnPage}
    (hpages : turnPages accepts wants sha256 maxBytes offset requests = .ok pages) :
    pages.flatMap TurnPage.rows =
      ((rowsOf 0 (Bytes.pieces content)).drop offset).take (requests.map Prod.fst).sum := by
  induction requests generalizing offset pages with
  | nil =>
      cases hpages
      rw [List.map_nil, List.sum_nil, List.take_zero, List.flatMap_nil]
  | cons request rest ih =>
      obtain ⟨limit, reads⟩ := request
      obtain ⟨page, hpage, hrest⟩ := Except.bind_eq_ok_iff.mp hpages
      obtain ⟨more, hmore, hall⟩ := Except.bind_eq_ok_iff.mp hrest
      cases hall
      rw [List.flatMap_cons, ih hmore, turnPage_ok accepts wants sha256 maxBytes hpage,
        List.map_cons, List.sum_cons, List.take_add, List.drop_drop, pageOf]

/-- A page is served exactly where every line of the file is one record, and the rows of
consecutive pages cover the file. -/
theorem turn_pages_tile (content : Bytes) :
    (∀ offset limit (reads : Reads content),
      (∃ report, turnPageMetadata accepts wants sha256 offset limit reads maxBytes = .ok report) ↔
        Served limit maxBytes content ∧ EveryLine accepts content) ∧
    (∀ offset limit (reads : Reads content) report,
      turnPageMetadata accepts wants sha256 offset limit reads maxBytes = .ok report →
        report = TurnPage.toJson ⟨offset, limit, (Bytes.pieces content).length, content.length,
          sha256 content, pageOf offset limit (rowsOf 0 (Bytes.pieces content))⟩) ∧
    Tiles content 0 (rowsOf 0 (Bytes.pieces content)) ∧
    (∀ (requests : List (Nat × Reads content)) pages,
      turnPages accepts wants sha256 maxBytes 0 requests = .ok pages →
        pages.flatMap TurnPage.rows =
          (rowsOf 0 (Bytes.pieces content)).take (requests.map Prod.fst).sum) := by
  refine ⟨fun offset limit reads => ?_, fun offset limit reads report hreport => ?_, ?_,
    fun requests pages hpages => turnPages_rows accepts wants sha256 maxBytes hpages⟩
  · rw [turnPageMetadata]
    rcases turnPage_spec accepts wants sha256 offset limit maxBytes reads with
      ⟨hok, hboth⟩ | ⟨⟨message, herror⟩, hnot⟩
    · rw [hok]
      exact iff_of_true ⟨_, rfl⟩ hboth
    · rw [herror]
      refine iff_of_false ?_ hnot
      rintro ⟨report, hreport⟩
      cases hreport
  · rw [turnPageMetadata] at hreport
    rcases turnPage_spec accepts wants sha256 offset limit maxBytes reads with
      ⟨hok, _⟩ | ⟨⟨message, herror⟩, _⟩
    · rw [hok] at hreport
      exact (Except.ok.inj hreport).symm
    · rw [herror] at hreport
      cases hreport
  · exact tiles_rowsOf [] content

/-- A page of more than a hundred rows is refused, whatever the file holds. -/
theorem not_every_limit_served :
    ¬ ∀ (accepts : Bytes → Bool) (wants : Bytes → Nat) (sha256 : Bytes → String)
      (offset limit maxBytes : Nat) (content : Bytes) (reads : Reads content),
      (∃ report, turnPageMetadata accepts wants sha256 offset limit reads maxBytes = .ok report) ↔
        EveryLine accepts content := by
  intro hclaim
  obtain ⟨report, hreport⟩ := (hclaim (· == [123, 125, 10]) (fun _ => 8) (fun _ => "") 0 101 1024
    [123, 125, 10] ⟨[[123, 125, 10]], rfl, by decide⟩).mpr (fun piece hpiece => by
      obtain rfl := List.mem_singleton.mp hpiece
      exact ⟨⟨"\x7b\x7d\n".toList, by decide⟩, rfl⟩)
  cases hreport

end Cover

end ChipTrace.Turns
