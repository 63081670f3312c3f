/-
What a reading of the inputs writes: every capture once, and with a task selected the captures
whose trace context names it.
-/
import ChipTrace.Sessions.Assembly

namespace ChipTrace.Assemble

section Links

theorem get_linkCapture {object linked : JsonMap} {task key : String}
    {matchedKeys sources : List String}
    (h : linkCapture object task matchedKeys sources = .ok linked)
    (hcontext : key ≠ "traceContext") (hevidence : key ≠ "fieldEvidence") :
    linked.get key = object.get key := by
  rw [linkCapture, Except.bind_eq_ok_iff] at h
  obtain ⟨context, _, h⟩ := h
  rw [Except.bind_eq_ok_iff] at h
  obtain ⟨evidence, _, h⟩ := h
  rw [← Except.pure_eq_ok_iff.mp h, JsonMap.get_insert_of_ne hevidence,
    JsonMap.get_insert_of_ne hcontext]

/-- A link leaves the id of a capture. -/
theorem stringField_applyExactTaskLink {links : Table String TaskLinkTarget}
    {capture linked : Json} {flag : Bool} {key : String}
    (h : applyExactTaskLink links capture = .ok (linked, flag))
    (hcontext : key ≠ "traceContext") (hevidence : key ≠ "fieldEvidence") :
    stringField linked key = stringField capture key := by
  rw [applyExactTaskLink] at h
  split_ifs at h with hexplicit
  · rw [(Prod.mk.inj (Except.ok.inj h)).1]
  · simp only at h
    split at h
    · rw [(Prod.mk.inj (Except.ok.inj h)).1]
    · split at h
      · rw [Except.bind_eq_ok_iff] at h
        obtain ⟨object, hlink, h⟩ := h
        rw [← (Prod.mk.inj (Except.pure_eq_ok_iff.mp h)).1, stringField, stringField, Json.get?,
          Json.get?]
        have hget := get_linkCapture hlink hcontext hevidence
        rw [JsonMap.get, JsonMap.get] at hget
        rw [hget]
      · cases h
    · cases h

end Links

section Reading

variable {assembler : Assembler} {links : Table String TaskLinkTarget}

/-- A reading of everything that is well kept: no id is written twice. -/
structure Reading.Distinct (reading : Reading) : Prop where
  nodup : (reading.written.map captureIdOf).Nodup
  seen : ∀ capture ∈ reading.written,
    (reading.seenCaptureIds.get? (captureIdOf capture)).isSome = true
  count : reading.inputRecords = reading.written.length

/-- The reading for a task next to that of everything. -/
structure Reading.Selects (task : String) (reading selected : Reading) : Prop where
  seen : selected.seenCaptureIds = reading.seenCaptureIds
  written : selected.written =
    reading.written.filter fun capture => captureMatchesSelection capture (.task task)
  count : selected.inputRecords = selected.written.length

theorem Reading.distinct_start : Reading.Distinct {} where
  nodup := List.nodup_nil
  seen := by simp
  count := rfl

theorem Reading.selects_start (task : String) : Reading.Selects task {} {} where
  seen := rfl
  written := rfl
  count := rfl

theorem readCapture_all {reading next : Reading} {value : Json}
    (h : readCapture links .all reading value = .ok next) :
    ∃ linked flag, applyExactTaskLink links value = .ok (linked, flag) ∧
      next.written = reading.written ++ [linked] ∧
      next.seenCaptureIds = reading.seenCaptureIds ∧
      next.inputRecords = reading.inputRecords + 1 := by
  rw [readCapture, Except.bind_eq_ok_iff] at h
  obtain ⟨⟨linked, flag⟩, hlink, h⟩ := h
  obtain rfl := Except.ok.inj h
  exact ⟨linked, flag, hlink, rfl, rfl, rfl⟩

theorem readCapture_task (task : String) (reading : Reading) {value linked : Json} {flag : Bool}
    (hlink : applyExactTaskLink links value = .ok (linked, flag)) :
    ∃ next, readCapture links (.task task) reading value = .ok next ∧
      next.written = reading.written ++
        [linked].filter (fun capture => captureMatchesSelection capture (.task task)) ∧
      next.seenCaptureIds = reading.seenCaptureIds ∧
      (reading.inputRecords = reading.written.length →
        next.inputRecords = next.written.length) := by
  cases hmatch : captureMatchesSelection linked (.task task) with
  | false =>
      refine ⟨reading, ?_, ?_, rfl, id⟩
      · rw [readCapture, hlink]
        simp only [Except.ok_bind, hmatch]
        rfl
      · simp [hmatch]
  | true =>
      refine ⟨{ reading with
          exactTaskLinksApplied := reading.exactTaskLinksApplied + (if flag then 1 else 0)
          versions := addText reading.versions (stringField linked "version")
          written := reading.written ++ [linked]
          inputRecords := reading.inputRecords + 1 }, ?_, ?_, rfl, ?_⟩
      · rw [readCapture, hlink]
        simp only [Except.ok_bind, hmatch]
        rfl
      · simp [hmatch]
      · intro hcount
        simp [hcount]

theorem captureIdOf_eq {capture : Json} {captureId : String}
    (h : stringField capture "captureId" = some captureId) : captureIdOf capture = captureId := by
  rw [captureIdOf, h]
  rfl

/-- A line of a reading of everything: a telemetry batch that passes, a capture that has been
seen, or a new one. -/
theorem readLine_all {reading next : Reading} {line : InputLine}
    (h : readLine assembler links .all reading line = .ok next) :
    (isTelemetryBatch line.value = true ∧
        checkTelemetryBatch assembler.revalidateTelemetryBatch .all line.value = .ok () ∧
        next = reading) ∨
      (isTelemetryBatch line.value = false ∧ ∃ captureId,
        stringField line.value "captureId" = some captureId ∧
          (reading.seenCaptureIds.get? captureId = some (assembler.sha256 line.text) ∧
              next = { reading with duplicateCaptures := reading.duplicateCaptures + 1 } ∨
            reading.seenCaptureIds.get? captureId = none ∧
              readCapture links .all
                (reading.remember captureId (assembler.sha256 line.text)) line.value =
                  .ok next)) := by
  rw [readLine] at h
  split_ifs at h with hbatch
  · rw [Except.bind_eq_ok_iff] at h
    obtain ⟨⟨⟩, hcheck, h⟩ := h
    exact Or.inl ⟨hbatch, hcheck, (Except.pure_eq_ok_iff.mp h).symm⟩
  · refine Or.inr ⟨by simpa using hbatch, ?_⟩
    split at h
    · cases h
    · rename_i captureId hcapture
      refine ⟨captureId, hcapture, ?_⟩
      simp only at h
      split at h
      · rename_i existing hseen
        split_ifs at h with hdigest
        rw [not_not] at hdigest
        exact Or.inl ⟨hdigest ▸ hseen, (Except.ok.inj h).symm⟩
      · rename_i hseen
        exact Or.inr ⟨hseen, h⟩

theorem Reading.Distinct.readLine {reading next : Reading} {line : InputLine}
    (hdistinct : reading.Distinct) (h : readLine assembler links .all reading line = .ok next) :
    next.Distinct := by
  rcases readLine_all h with ⟨_, _, rfl⟩ | ⟨_, captureId, hcapture, ⟨_, rfl⟩ | ⟨hseen, hread⟩⟩
  · exact hdistinct
  · exact ⟨hdistinct.nodup, hdistinct.seen, hdistinct.count⟩
  · obtain ⟨linked, flag, hlink, hwritten, hids, hcount⟩ := readCapture_all hread
    have hid : captureIdOf linked = captureId := captureIdOf_eq
      ((stringField_applyExactTaskLink hlink (by decide) (by decide)).trans hcapture)
    have hold : ∀ capture ∈ reading.written, captureIdOf capture ≠ captureId := by
      intro capture hmem heq
      have hsome := hdistinct.seen capture hmem
      rw [heq, hseen] at hsome
      cases hsome
    refine ⟨?_, ?_, ?_⟩
    · rw [hwritten, List.map_append, List.nodup_append]
      refine ⟨hdistinct.nodup, List.nodup_singleton _, ?_⟩
      intro a ha b hb
      obtain ⟨capture, hmem, rfl⟩ := List.mem_map.mp ha
      rw [List.map_singleton, List.mem_singleton, hid] at hb
      rw [hb]
      exact hold capture hmem
    · intro capture hmem
      rw [hids, Reading.remember, Table.get?_insert]
      split_ifs with heq
      · rfl
      · rw [hwritten, List.mem_append, List.mem_singleton] at hmem
        cases hmem with
        | inl hmem => exact hdistinct.seen capture hmem
        | inr hmem => exact absurd (hmem ▸ hid) heq
    · rw [hcount, hwritten, Reading.remember, List.length_append, ← hdistinct.count]
      rfl

/-- A line that is read without a selection is read with a task as well, unless it is a batch
of several tasks. -/
theorem Reading.Selects.readLine {task : String} {reading selected next : Reading}
    {line : InputLine} (hselects : reading.Selects task selected)
    (h : readLine assembler links .all reading line = .ok next)
    (hbatch : isTelemetryBatch line.value = true →
      checkTelemetryBatch assembler.revalidateTelemetryBatch (.task task) line.value = .ok ()) :
    ∃ nextSelected, readLine assembler links (.task task) selected line = .ok nextSelected ∧
      next.Selects task nextSelected := by
  rcases readLine_all h with ⟨hline, _, rfl⟩ | ⟨hline, captureId, hcapture, ⟨hseen, rfl⟩ |
    ⟨hseen, hread⟩⟩
  · refine ⟨selected, ?_, hselects⟩
    rw [ChipTrace.Assemble.readLine, if_pos hline, hbatch hline]
    rfl
  · refine ⟨{ selected with duplicateCaptures := selected.duplicateCaptures + 1 }, ?_,
      hselects.seen, hselects.written, hselects.count⟩
    rw [ChipTrace.Assemble.readLine, if_neg (by simp [hline]), hcapture]
    simp only [hselects.seen, hseen]
    rw [if_neg (by simp)]
  · obtain ⟨linked, flag, hlink, hwritten, hids, _⟩ := readCapture_all hread
    obtain ⟨nextSelected, hrun, hkept, hkeptIds, hcount⟩ :=
      readCapture_task task (selected.remember captureId (assembler.sha256 line.text)) hlink
    refine ⟨nextSelected, ?_, ?_, ?_, hcount hselects.count⟩
    · rw [ChipTrace.Assemble.readLine, if_neg (by simp [hline]), hcapture]
      simp only [hselects.seen, hseen]
      exact hrun
    · rw [hkeptIds, hids, Reading.remember, Reading.remember, hselects.seen]
    · rw [hkept, hwritten, List.filter_append, Reading.remember, hselects.written]
      rfl

theorem readLine_task_batch {task : String} {reading next : Reading} {line : InputLine}
    (h : readLine assembler links (.task task) reading line = .ok next)
    (hbatch : isTelemetryBatch line.value = true) :
    checkTelemetryBatch assembler.revalidateTelemetryBatch (.task task) line.value = .ok () := by
  rw [readLine, if_pos hbatch, Except.bind_eq_ok_iff] at h
  exact h.choose_spec.1

section Inputs

variable {config : AssembleConfig} {reading : Reading}

theorem distinct_readInputs (h : readInputs assembler config .all = .ok reading) :
    reading.Distinct := by
  rw [readInputs, Except.bind_eq_ok_iff] at h
  obtain ⟨links, _, hrun⟩ := h
  exact foldlM_ok_preserves Reading.Distinct config.lines
    (fun line _ state next hstate hstep => hstate.readLine hstep) {} Reading.distinct_start hrun

/-- Inputs that are read without a selection are read with a task as well, unless a batch names
several; the captures that are written are those whose trace context names it. -/
theorem readInputs_task (task : String) (h : readInputs assembler config .all = .ok reading)
    (hbatches : ∀ line ∈ config.lines, isTelemetryBatch line.value = true →
      checkTelemetryBatch assembler.revalidateTelemetryBatch (.task task) line.value = .ok ()) :
    ∃ selected, readInputs assembler config (.task task) = .ok selected ∧
      reading.Selects task selected := by
  rw [readInputs, Except.bind_eq_ok_iff] at h
  obtain ⟨links, hlinks, hrun⟩ := h
  have hloop : ∀ (lines : List InputLine) (start finish startSelected : Reading),
      (∀ line ∈ lines, isTelemetryBatch line.value = true →
        checkTelemetryBatch assembler.revalidateTelemetryBatch (.task task) line.value =
          .ok ()) →
      start.Selects task startSelected →
      lines.foldlM (readLine assembler links .all) start = .ok finish →
      ∃ selected, lines.foldlM (readLine assembler links (.task task)) startSelected =
          .ok selected ∧ finish.Selects task selected := by
    intro lines
    induction lines with
    | nil =>
        intro start finish startSelected _ hstart hfinish
        rw [List.foldlM_nil, Except.pure_eq_ok_iff] at hfinish
        exact ⟨startSelected, rfl, hfinish ▸ hstart⟩
    | cons line rest ih =>
        intro start finish startSelected hpass hstart hfinish
        rw [List.foldlM_cons, Except.bind_eq_ok_iff] at hfinish
        obtain ⟨mid, hmid, hrest⟩ := hfinish
        obtain ⟨midSelected, hstep, hselects⟩ :=
          hstart.readLine hmid (hpass line List.mem_cons_self)
        obtain ⟨selected, hend, hfinal⟩ := ih mid finish midSelected
          (fun other hother => hpass other (List.mem_cons_of_mem _ hother)) hselects hrest
        refine ⟨selected, ?_, hfinal⟩
        rw [List.foldlM_cons, hstep]
        exact hend
  obtain ⟨selected, hselected, hselects⟩ :=
    hloop config.lines {} reading {} hbatches (Reading.selects_start task) hrun
  refine ⟨selected, ?_, hselects⟩
  rw [readInputs, hlinks]
  exact hselected

/-- Inputs that are read with a task have no batch that does not pass. -/
theorem batches_of_readInputs_task {task : String}
    (h : readInputs assembler config (.task task) = .ok reading) :
    ∀ line ∈ config.lines, isTelemetryBatch line.value = true →
      checkTelemetryBatch assembler.revalidateTelemetryBatch (.task task) line.value = .ok () := by
  rw [readInputs, Except.bind_eq_ok_iff] at h
  obtain ⟨links, _, hrun⟩ := h
  intro line hline hbatch
  exact foldlM_ok_reaches
    (fun _ => checkTelemetryBatch assembler.revalidateTelemetryBatch (.task task) line.value =
      .ok ()) hline (fun state next hstep => readLine_task_batch hstep hbatch)
    (fun _ _ _ _ hreached _ => hreached) hrun

/-- Every batch that is read without a selection passes its check. -/
theorem batches_of_readInputs_all (h : readInputs assembler config .all = .ok reading) :
    ∀ line ∈ config.lines, isTelemetryBatch line.value = true →
      checkTelemetryBatch assembler.revalidateTelemetryBatch .all line.value = .ok () := by
  rw [readInputs, Except.bind_eq_ok_iff] at h
  obtain ⟨links, _, hrun⟩ := h
  intro line hline hbatch
  refine foldlM_ok_reaches
    (fun _ => checkTelemetryBatch assembler.revalidateTelemetryBatch .all line.value =
      .ok ()) hline (fun state next hstep => ?_) (fun _ _ _ _ hreached _ => hreached) hrun
  rw [readLine, if_pos hbatch, Except.bind_eq_ok_iff] at hstep
  exact hstep.choose_spec.1

end Inputs

end Reading

end ChipTrace.Assemble
