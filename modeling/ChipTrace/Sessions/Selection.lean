/-
An assembly of one task next to the full assembly of the same inputs: it writes the records of
the Sessions of the task exactly when it keeps these Sessions whole, and with them every Session
of their task graphs.
-/
import ChipTrace.Sessions.Reading
import ChipTrace.Sessions.Records

namespace ChipTrace.Assemble

section Belonging

variable {task : String} {capture : Json}

theorem traceText_not_blank {trace : JsonMap} {field : String}
    (h : traceText trace field = some task) : Text.isBlank task = false := by
  rw [traceText, Option.filter_eq_some_iff] at h
  simpa using h.2

theorem traceText_of_identityOf (h : identityOf capture = (task, "task_session_id")) :
    traceText (traceOf capture) "task_session_id" = some task := by
  rw [identityOf, sessionIdentity] at h
  split at h
  · rename_i identity hfound
    obtain ⟨field, _, hvalue⟩ := List.exists_of_findSome?_eq_some hfound
    rw [h, Option.map_eq_some_iff] at hvalue
    obtain ⟨value, htext, hpair⟩ := hvalue
    rw [← (Prod.mk.inj hpair).1, ← (Prod.mk.inj hpair).2]
    exact htext
  · split at h
    · exact absurd (Prod.mk.inj h).2 (by decide)
    · exact absurd (Prod.mk.inj h).2 (by decide)

/-- Nothing belongs to a task without a name. -/
theorem belongsToTask_blank (h : Text.isBlank task = true) :
    belongsToTask task capture = false := by
  rw [belongsToTask, Bool.or_eq_false_iff, Bool.or_eq_false_iff]
  have htext : ∀ field, (traceText (traceOf capture) field == some task) = false := by
    intro field
    rw [beq_eq_false_iff_ne]
    intro heq
    rw [traceText_not_blank heq] at h
    cases h
  refine ⟨⟨?_, htext _⟩, htext _⟩
  rw [beq_eq_false_iff_ne]
  intro heq
  rw [traceText_not_blank (traceText_of_identityOf heq)] at h
  cases h

theorem belongsToTask_of_captured (htask : Text.isBlank task = false)
    (h : capturedTraceText capture "task_session_id" = some task) :
    belongsToTask task capture = true := by
  rw [belongsToTask, identityOf_of_captured h htask]
  simp

theorem captureMatchesSelection_iff :
    captureMatchesSelection capture (.task task) = true ↔
      capturedTraceText capture "task_session_id" = some task := by
  rw [captureMatchesSelection, beq_iff_eq]

end Belonging

section Selection

variable (assembler : Assembler) (partitions : Nat)

/-- A Session belongs to a task if a capture of it does. -/
def groupBelongs (task : String) (group : List Json) : Bool := group.any (belongsToTask task)

/-- The captures of each Session of a partition. -/
def groupsAt (captures : List Json) (index : Nat) : List (List Json) :=
  groupsOf (partitionOf assembler partitions index captures)

/-- The records of a partition. -/
def recordsAt (captures : List Json) (index : Nat) : List Json :=
  match processPartition assembler (partitionOf assembler partitions index captures) with
  | .ok result => result.records
  | .error _ => []

/-- The records that an assembly of all captures writes for the Sessions of a task. -/
def taskRecords (task : String) (captures : List Json) : List Json :=
  (List.range partitions).flatMap fun index =>
    keptOf (groupBelongs task) (groupsAt assembler partitions captures index)
      (recordsAt assembler partitions captures index)

/-- The captured trace context names the task in every capture of its Sessions, a Session whose
record shares the task of one of them is one of them as well, and if there are any, no telemetry
batch of the inputs names two tasks. -/
structure SelectsWhole (task : String) (lines : List InputLine) (captures : List Json) :
    Prop where
  named : ∀ index < partitions, ∀ group ∈ groupsAt assembler partitions captures index,
    groupBelongs task group = true →
      ∀ capture ∈ group, capturedTraceText capture "task_session_id" = some task
  separate : ∀ index < partitions, ∀ group ∈ groupsAt assembler partitions captures index,
    groupBelongs task group = true →
      ∀ other ∈ groupsAt assembler partitions captures index,
        groupTaskKey assembler other = groupTaskKey assembler group →
          groupBelongs task other = true
  unmixed : captures.any (belongsToTask task) = true → ∀ line ∈ lines,
    isTelemetryBatch line.value = true → ∀ identities,
      telemetryBatchIdentities line.value = .ok identities → identities.taskSessionIds.len ≤ 1

variable {assembler partitions}

theorem assembleSessions_ok_iff {config : AssembleConfig} {selector : Selector}
    {reading : Reading} {results : List PartitionResult} :
    assembleSessions assembler config = .ok (selector, reading, results) ↔
      config.partitions ≠ 0 ∧ selectorOf config = .ok selector ∧
        readInputs assembler config selector = .ok reading ∧
        notFound selector reading = none ∧
        (List.range config.partitions).mapM (fun index => processPartition assembler
          (partitionOf assembler config.partitions index reading.written)) = .ok results := by
  rw [assembleSessions]
  by_cases hzero : config.partitions = 0
  · rw [if_pos hzero]
    constructor
    · intro h
      cases h
    · intro h
      exact absurd hzero h.1
  rw [if_neg hzero]
  simp only [Except.bind_eq_ok_iff]
  constructor
  · rintro ⟨other, hselector, inputs, hread, h⟩
    split at h
    · cases h
    · rename_i hfound
      obtain ⟨partition, hrun, h⟩ := Except.bind_eq_ok_iff.mp h
      cases Except.pure_eq_ok_iff.mp h
      exact ⟨hzero, hselector, hread, hfound, hrun⟩
  · rintro ⟨_, hselector, hread, hfound, hrun⟩
    refine ⟨selector, hselector, reading, hread, ?_⟩
    rw [hfound]
    exact Except.bind_eq_ok_iff.mpr ⟨results, hrun, rfl⟩

/-- The records of all partitions, in their order. -/
theorem flatMap_records {captures : List Json} {results : List PartitionResult}
    (h : (List.range partitions).mapM (fun index => processPartition assembler
      (partitionOf assembler partitions index captures)) = .ok results) :
    results.flatMap PartitionResult.records =
      (List.range partitions).flatMap (recordsAt assembler partitions captures) := by
  rw [List.mapM_eq_ok_iff] at h
  generalize List.range partitions = indices at h ⊢
  induction h with
  | nil => rfl
  | @cons index result rest tail hindex _ ih =>
      rw [List.flatMap_cons, List.flatMap_cons, ih, recordsAt, hindex]

theorem exists_result {captures : List Json} {results : List PartitionResult}
    (h : (List.range partitions).mapM (fun index => processPartition assembler
      (partitionOf assembler partitions index captures)) = .ok results) :
    ∀ index < partitions, ∃ result, processPartition assembler
      (partitionOf assembler partitions index captures) = .ok result :=
  fun index hindex => exists_mapM_ok_iff.mp ⟨results, h⟩ index (List.mem_range.mpr hindex)

section Partition

variable {task : String} {captures : List Json} {index : Nat}

theorem partitionOf_filter (keep : Json → Bool) :
    partitionOf assembler partitions index (captures.filter keep) =
      (partitionOf assembler partitions index captures).filter keep := List.filter_comm ..

/-- Among Sessions that are named in every capture, a task selects those that belong to it. -/
theorem groupsAt_selected (htask : Text.isBlank task = false)
    (hnamed : ∀ group ∈ groupsAt assembler partitions captures index,
      groupBelongs task group = true →
        ∀ capture ∈ group, capturedTraceText capture "task_session_id" = some task) :
    groupsAt assembler partitions
        (captures.filter fun capture => captureMatchesSelection capture (.task task)) index =
      (groupsAt assembler partitions captures index).filter (groupBelongs task) := by
  have hmatch : ∀ group ∈ groupsAt assembler partitions captures index, ∀ capture ∈ group,
      captureMatchesSelection capture (.task task) = groupBelongs task group := by
    intro group hgroup capture hcapture
    cases hbelongs : groupBelongs task group with
    | true => exact captureMatchesSelection_iff.mpr (hnamed group hgroup hbelongs capture hcapture)
    | false =>
        by_contra hmatch
        rw [Bool.not_eq_false, captureMatchesSelection_iff] at hmatch
        have hany : groupBelongs task group = true :=
          List.any_eq_true.mpr ⟨capture, hcapture, belongsToTask_of_captured htask hmatch⟩
        rw [hbelongs] at hany
        cases hany
  rw [groupsAt, partitionOf_filter, groupsOf_filter]
  · apply List.filter_congr
    intro group hgroup
    obtain ⟨hne, _⟩ := mem_groupsOf.mp hgroup
    obtain ⟨capture, hcapture⟩ := List.exists_mem_of_ne_nil _ hne
    rw [Bool.eq_iff_iff, List.any_eq_true]
    constructor
    · rintro ⟨other, hother, hkeep⟩
      rw [← hmatch group hgroup other hother]
      exact hkeep
    · intro hbelongs
      exact ⟨capture, hcapture, (hmatch group hgroup capture hcapture).trans hbelongs⟩
  · intro group hgroup a ha b hb
    rw [hmatch group hgroup a ha, hmatch group hgroup b hb]

/-- In a partition whose Sessions are named, the selected records are those of the full
assembly exactly when no task graph is cut. -/
theorem recordsAt_selected {result : PartitionResult} (htask : Text.isBlank task = false)
    (hnamed : ∀ group ∈ groupsAt assembler partitions captures index,
      groupBelongs task group = true →
        ∀ capture ∈ group, capturedTraceText capture "task_session_id" = some task)
    (hfull : processPartition assembler (partitionOf assembler partitions index captures) =
      .ok result) :
    (∃ selected, processPartition assembler (partitionOf assembler partitions index
          (captures.filter fun capture => captureMatchesSelection capture (.task task))) =
            .ok selected ∧
        selected.records =
          keptOf (groupBelongs task) (groupsAt assembler partitions captures index)
            result.records) ↔
      ∀ group ∈ groupsAt assembler partitions captures index, groupBelongs task group = true →
        ∀ other ∈ groupsAt assembler partitions captures index,
          groupTaskKey assembler other = groupTaskKey assembler group →
            groupBelongs task other = true := by
  obtain ⟨assembled, hgroups, hvalid, rfl⟩ := processPartition_ok_iff.mp hfull
  rw [← groupsAt] at hgroups
  have hselected : (groupsOf (partitionOf assembler partitions index (captures.filter fun capture =>
      captureMatchesSelection capture (.task task)))).mapM (assembleGroup assembler) =
        .ok (keptOf (groupBelongs task) (groupsAt assembler partitions captures index)
          assembled) := by
    rw [← groupsAt, groupsAt_selected htask hnamed]
    exact mapM_filter hgroups
  have hrecords : (∃ selected, processPartition assembler (partitionOf assembler partitions index
      (captures.filter fun capture => captureMatchesSelection capture (.task task))) =
        .ok selected ∧ selected.records =
          keptOf (groupBelongs task) (groupsAt assembler partitions captures index)
            (recordsOf (assembled.map AssembledGroup.session))) ↔
      recordsOf (keptOf (groupBelongs task) (groupsAt assembler partitions captures index)
        (assembled.map AssembledGroup.session)) =
          keptOf (groupBelongs task) (groupsAt assembler partitions captures index)
            (recordsOf (assembled.map AssembledGroup.session)) := by
    constructor
    · rintro ⟨selected, hprocess, heq⟩
      obtain ⟨kept, hkept, _, rfl⟩ := processPartition_ok_iff.mp hprocess
      rw [hselected] at hkept
      rw [← heq, ← Except.ok.inj hkept, keptOf_map]
    · intro heq
      refine ⟨_, processPartition_ok_iff.mpr ⟨_, hselected, ?_, rfl⟩, ?_⟩
      · intro record hrecord
        rw [← keptOf_map, heq] at hrecord
        obtain ⟨group, hpair, _⟩ := mem_keptOf.mp hrecord
        exact hvalid record (List.of_mem_zip hpair).2
      · rw [← keptOf_map, heq]
  rw [hrecords]
  rw [List.mapM_eq_ok_iff, List.forall₂_iff_zip] at hgroups
  obtain ⟨hlength, hassembled⟩ := hgroups
  rw [recordsOf_keptOf_iff (by rw [List.length_map, hlength]), List.zip_map_right]
  have hkey : ∀ pair ∈ (groupsAt assembler partitions captures index).zip assembled,
      pair.2.session.taskKey = groupTaskKey assembler pair.1 :=
    fun pair hpair => groupTaskKey_of_assembled (hassembled hpair)
  have hpaired : ∀ group ∈ groupsAt assembler partitions captures index, ∃ record,
      (group, record) ∈ (groupsAt assembler partitions captures index).zip assembled := by
    intro group hgroup
    rw [← List.map_fst_zip hlength.le] at hgroup
    obtain ⟨pair, hpair, rfl⟩ := List.mem_map.mp hgroup
    exact ⟨pair.2, hpair⟩
  rw [List.forall_mem_map]
  constructor
  · intro h group hgroup hbelongs other hother hsame
    obtain ⟨record, hrecord⟩ := hpaired group hgroup
    obtain ⟨next, hnext⟩ := hpaired other hother
    refine h (group, record) hrecord hbelongs (Prod.map id AssembledGroup.session (other, next))
      (List.mem_map_of_mem hnext) ?_
    exact (hkey _ hnext).trans (hsame.trans (hkey _ hrecord).symm)
  · intro h pair hpair hbelongs other hother hsame
    obtain ⟨origin, horigin, rfl⟩ := List.mem_map.mp hother
    apply h pair.1 (List.of_mem_zip hpair).1 hbelongs origin.1 (List.of_mem_zip horigin).1
    exact (hkey _ horigin).symm.trans (hsame.trans (hkey _ hpair))

/-- Every record names the captures of its group. -/
theorem sourceCaptureIds_records {result : PartitionResult}
    (h : processPartition assembler (partitionOf assembler partitions index captures) =
      .ok result) :
    List.Forall₂ (fun group record => sourceCaptureIds record =
        some (.arr ((assembler.sortCaptures group).map fun capture => .str (captureIdOf capture))))
      (groupsAt assembler partitions captures index) result.records := by
  obtain ⟨assembled, hgroups, _, rfl⟩ := processPartition_ok_iff.mp h
  rw [List.mapM_eq_ok_iff] at hgroups
  simp only [recordsOf, attachTaskDags, List.map_map, List.forall₂_map_right_iff]
  exact hgroups.imp fun group assembled hgroup => sourceCaptureIds_of_assembled hgroup _

theorem mem_captures_of_group {group : List Json}
    (h : group ∈ groupsAt assembler partitions captures index) {capture : Json}
    (hcapture : capture ∈ group) : capture ∈ captures :=
  List.mem_of_mem_filter (subset_of_mem_groupsOf h capture hcapture)

/-- A record that is written for a selection of captures as well names selected captures only. -/
theorem selected_of_record {selected : List Json} {other : Nat} {group : List Json}
    {record : Json} (hnodup : (captures.map captureIdOf).Nodup)
    (hsubset : ∀ capture ∈ selected, capture ∈ captures)
    (hgroup : group ∈ groupsAt assembler partitions captures index)
    (hids : sourceCaptureIds record = some (.arr ((assembler.sortCaptures group).map fun capture =>
      .str (captureIdOf capture))))
    (hrecord : record ∈ recordsAt assembler partitions selected other) :
    ∀ capture ∈ group, capture ∈ selected := by
  intro capture hcapture
  rw [recordsAt] at hrecord
  split at hrecord
  · rename_i result hresult
    obtain ⟨hlength, hnames⟩ := List.forall₂_iff_zip.mp (sourceCaptureIds_records hresult)
    rw [← List.map_snd_zip hlength.ge] at hrecord
    obtain ⟨⟨selectedGroup, named⟩, hpair, rfl⟩ := List.mem_map.mp hrecord
    have hsame := Json.arr.inj (Option.some.inj ((hnames hpair).symm.trans hids))
    have hid : Json.str (captureIdOf capture) ∈
        (assembler.sortCaptures selectedGroup).map fun capture => .str (captureIdOf capture) := by
      rw [hsame]
      exact List.mem_map.mpr
        ⟨capture, (assembler.sorted_perm group).mem_iff.mpr hcapture, rfl⟩
    obtain ⟨found, hfound, heq⟩ := List.mem_map.mp hid
    have hselected : found ∈ selected := mem_captures_of_group (List.of_mem_zip hpair).1
      ((assembler.sorted_perm selectedGroup).mem_iff.mp hfound)
    rw [← List.inj_on_of_nodup_map hnodup (hsubset found hselected)
      (mem_captures_of_group hgroup hcapture) (Json.str.inj heq)]
    exact hselected
  · cases hrecord

end Partition

section Inputs

variable {lines : List InputLine} {reading : Reading} {task : String}

/-- With inputs that are read without a selection, the batches that name two tasks are those that
do not pass when a task is selected. -/
theorem unmixed_iff (hread : readInputs assembler ⟨lines, partitions, none, none⟩ .all =
      .ok reading) :
    (∀ line ∈ lines, isTelemetryBatch line.value = true → ∀ identities,
        telemetryBatchIdentities line.value = .ok identities →
          identities.taskSessionIds.len ≤ 1) ↔
      ∀ line ∈ lines, isTelemetryBatch line.value = true →
        checkTelemetryBatch assembler.revalidateTelemetryBatch (.task task) line.value =
          .ok () := by
  have hall := batches_of_readInputs_all hread
  constructor
  · intro h line hline hbatch
    obtain ⟨identities, hidentities, hpasses⟩ :=
      checkTelemetryBatch_task task (hall line hline hbatch)
    exact hpasses.mpr (h line hline hbatch identities hidentities)
  · intro h line hline hbatch identities hidentities
    obtain ⟨found, hfound, hpasses⟩ := checkTelemetryBatch_task task (hall line hline hbatch)
    rw [hidentities] at hfound
    rw [Except.ok.inj hfound]
    exact hpasses.mp (h line hline hbatch)

theorem exists_groupAt (hpartitions : partitions ≠ 0) {captures : List Json} {capture : Json}
    (h : capture ∈ captures) :
    ∃ index < partitions, ∃ group ∈ groupsAt assembler partitions captures index,
      capture ∈ group := by
  refine ⟨partitionIndex assembler (taskPartitionKey capture) partitions,
    Nat.mod_lt _ (Nat.pos_of_ne_zero hpartitions), ?_⟩
  apply exists_group
  exact List.mem_filter.mpr ⟨h, beq_self_eq_true _⟩

theorem isBlank_trim (text : String) : Text.isBlank (Text.trim text) = Text.isBlank text := by
  rw [Text.isBlank, Text.isBlank, Text.trim_trim]

theorem normalizedSelector_some (value name : String) :
    normalizedSelector (some value) name =
      if Text.isBlank value then .error s!"{name} cannot be empty"
      else .ok (some (Text.trim value)) := rfl

theorem selectorOf_task (h : Text.isBlank task = false) :
    selectorOf ⟨lines, partitions, some task, none⟩ = .ok (.task (Text.trim task)) := by
  rw [selectorOf, normalizedSelector_some, h]
  rfl

theorem not_blank_of_selectorOf {selector : Selector}
    (h : selectorOf ⟨lines, partitions, some task, none⟩ = .ok selector) :
    Text.isBlank task = false := by
  by_contra hblank
  rw [Bool.not_eq_false] at hblank
  rw [selectorOf, normalizedSelector_some, hblank] at h
  cases h

/-- An assembly of a task reads what a reading of everything reads, and writes the captures that
the trace context puts in the task. -/
theorem assembleSessions_task {selector : Selector} {selected : Reading}
    {results : List PartitionResult}
    (hread : readInputs assembler ⟨lines, partitions, none, none⟩ .all = .ok reading)
    (h : assembleSessions assembler ⟨lines, partitions, some task, none⟩ =
      .ok (selector, selected, results)) :
    Text.isBlank task = false ∧ notFound (.task (Text.trim task)) selected = none ∧
      (∀ line ∈ lines, isTelemetryBatch line.value = true →
        checkTelemetryBatch assembler.revalidateTelemetryBatch (.task (Text.trim task))
          line.value = .ok ()) ∧
      reading.Selects (Text.trim task) selected := by
  obtain ⟨_, hselector, hinputs, hfound, _⟩ := assembleSessions_ok_iff.mp h
  have htask := not_blank_of_selectorOf hselector
  rw [selectorOf_task htask] at hselector
  rw [← Except.ok.inj hselector] at hinputs hfound
  have hbatches := batches_of_readInputs_task hinputs
  obtain ⟨other, hother, hselects⟩ := readInputs_task (Text.trim task) hread hbatches
  have hsame : other = selected := Except.ok.inj (hother.symm.trans hinputs)
  exact ⟨htask, hfound, hbatches, hsame ▸ hselects⟩

end Inputs

section Main

variable {lines : List InputLine} {reading : Reading} {results : List PartitionResult}
variable {task : String}

/-- Without a Session of the task nothing is written, selected or not. -/
theorem records_of_none (hread : readInputs assembler ⟨lines, partitions, none, none⟩ .all =
      .ok reading)
    (hnone : reading.written.any (belongsToTask (Text.trim task)) = false) :
    writtenRecords assembler ⟨lines, partitions, some task, none⟩ = [] ∧
      taskRecords assembler partitions (Text.trim task) reading.written = [] := by
  have hcaptures : ∀ capture ∈ reading.written, belongsToTask (Text.trim task) capture = false := by
    intro capture hcapture
    exact Bool.eq_false_iff.mpr (List.any_eq_false.mp hnone capture hcapture)
  constructor
  · rw [writtenRecords]
    split
    · rename_i selector selected results h
      obtain ⟨htask, hfound, _, hselects⟩ := assembleSessions_task hread h
      have hwritten : selected.written = [] := by
        rw [hselects.written, List.filter_eq_nil_iff]
        intro capture hcapture hmatch
        have hbelongs := belongsToTask_of_captured (by rw [isBlank_trim, htask])
          (captureMatchesSelection_iff.mp hmatch)
        rw [hcaptures capture hcapture] at hbelongs
        cases hbelongs
      rw [notFound, hselects.count, hwritten] at hfound
      cases hfound
    · rfl
  · rw [taskRecords, List.flatMap_eq_nil_iff]
    intro index _
    apply keptOf_eq_nil
    intro group hgroup
    apply List.any_eq_false.mpr
    intro capture hcapture
    rw [hcaptures capture (mem_captures_of_group hgroup hcapture)]
    exact Bool.false_ne_true

/-- With a Session of the task, a selection that keeps its Sessions whole writes their records. -/
theorem records_of_whole
    (hfull : assembleSessions assembler ⟨lines, partitions, none, none⟩ =
      .ok (.all, reading, results))
    (htask : Text.isBlank task = false)
    (hany : reading.written.any (belongsToTask (Text.trim task)) = true)
    (hwhole : SelectsWhole assembler partitions (Text.trim task) lines reading.written) :
    writtenRecords assembler ⟨lines, partitions, some task, none⟩ =
      taskRecords assembler partitions (Text.trim task) reading.written := by
  obtain ⟨hpartitions, _, hread, _, hrun⟩ := assembleSessions_ok_iff.mp hfull
  have hname : Text.isBlank (Text.trim task) = false := by rw [isBlank_trim, htask]
  obtain ⟨selected, hinputs, hselects⟩ := readInputs_task (Text.trim task) hread
    ((unmixed_iff hread).mp (hwhole.unmixed hany))
  have hfound : notFound (.task (Text.trim task)) selected = none := by
    obtain ⟨capture, hcapture, hbelongs⟩ := List.any_eq_true.mp hany
    obtain ⟨index, hindex, group, hgroup, hmem⟩ :=
      exists_groupAt hpartitions hcapture
    have hmatch := captureMatchesSelection_iff.mpr (hwhole.named index hindex group hgroup
      (List.any_eq_true.mpr ⟨capture, hmem, hbelongs⟩) capture hmem)
    have hwritten : capture ∈ selected.written := by
      rw [hselects.written]
      exact List.mem_filter.mpr ⟨hcapture, hmatch⟩
    rw [notFound, if_pos]
    rw [hselects.count]
    exact (List.length_pos_of_mem hwritten).ne'
  have hparts : ∀ index < partitions, ∃ result, processPartition assembler
      (partitionOf assembler partitions index selected.written) = .ok result ∧
        result.records = keptOf (groupBelongs (Text.trim task))
          (groupsAt assembler partitions reading.written index)
            (recordsAt assembler partitions reading.written index) := by
    intro index hindex
    obtain ⟨full, hprocess⟩ := exists_result hrun index hindex
    rw [hselects.written, recordsAt, hprocess]
    exact (recordsAt_selected hname (hwhole.named index hindex) hprocess).mpr
      (hwhole.separate index hindex)
  obtain ⟨selectedResults, hselectedRun⟩ := exists_mapM_ok_iff.mpr fun index hindex =>
    (hparts index (List.mem_range.mp hindex)).imp fun _ h => h.1
  have hassembled : assembleSessions assembler ⟨lines, partitions, some task, none⟩ =
      .ok (.task (Text.trim task), selected, selectedResults) :=
    assembleSessions_ok_iff.mpr
      ⟨hpartitions, selectorOf_task htask, hinputs, hfound, hselectedRun⟩
  rw [writtenRecords, hassembled]
  change selectedResults.flatMap PartitionResult.records = _
  rw [flatMap_records hselectedRun, taskRecords]
  apply List.flatMap_congr
  intro index hindex
  obtain ⟨result, hprocess, hrecords⟩ := hparts index (List.mem_range.mp hindex)
  rw [recordsAt, hprocess]
  exact hrecords

/-- If the selection writes the records of the Sessions of the task, it keeps them whole. -/
theorem whole_of_records
    (hfull : assembleSessions assembler ⟨lines, partitions, none, none⟩ =
      .ok (.all, reading, results))
    (hany : reading.written.any (belongsToTask (Text.trim task)) = true)
    (hrecords : writtenRecords assembler ⟨lines, partitions, some task, none⟩ =
      taskRecords assembler partitions (Text.trim task) reading.written) :
    SelectsWhole assembler partitions (Text.trim task) lines reading.written := by
  obtain ⟨hpartitions, _, hread, _, hrun⟩ := assembleSessions_ok_iff.mp hfull
  have hdistinct := distinct_readInputs hread
  have hrecordOf : ∀ index < partitions,
      List.Forall₂ (fun group record => sourceCaptureIds record =
          some (.arr ((assembler.sortCaptures group).map fun capture =>
            .str (captureIdOf capture))))
        (groupsAt assembler partitions reading.written index)
        (recordsAt assembler partitions reading.written index) := by
    intro index hindex
    obtain ⟨full, hprocess⟩ := exists_result hrun index hindex
    rw [recordsAt, hprocess]
    exact sourceCaptureIds_records hprocess
  -- a Session of the task has a record, so the selected assembly has not failed
  have htaskRecord : ∀ index < partitions,
      ∀ group ∈ groupsAt assembler partitions reading.written index,
        groupBelongs (Text.trim task) group = true →
          ∃ record ∈ taskRecords assembler partitions (Text.trim task) reading.written,
            sourceCaptureIds record = some (.arr ((assembler.sortCaptures group).map
              fun capture => .str (captureIdOf capture))) := by
    intro index hindex group hgroup hbelongs
    obtain ⟨hlength, hids⟩ := List.forall₂_iff_zip.mp (hrecordOf index hindex)
    have hin := hgroup
    rw [← List.map_fst_zip hlength.le] at hin
    obtain ⟨⟨_, record⟩, hpair, rfl⟩ := List.mem_map.mp hin
    refine ⟨record, List.mem_flatMap.mpr ⟨index, List.mem_range.mpr hindex, ?_⟩, hids hpair⟩
    exact mem_keptOf.mpr ⟨_, hpair, hbelongs⟩
  obtain ⟨selector, selected, selectedResults, hassembled⟩ :
      ∃ selector selected selectedResults,
        assembleSessions assembler ⟨lines, partitions, some task, none⟩ =
          .ok (selector, selected, selectedResults) := by
    obtain ⟨capture, hcapture, hbelongs⟩ := List.any_eq_true.mp hany
    obtain ⟨index, hindex, group, hgroup, hmem⟩ := exists_groupAt hpartitions hcapture
    obtain ⟨record, hrecord, _⟩ := htaskRecord index hindex group hgroup
      (List.any_eq_true.mpr ⟨capture, hmem, hbelongs⟩)
    rw [← hrecords, writtenRecords] at hrecord
    split at hrecord
    · exact ⟨_, _, _, by assumption⟩
    · cases hrecord
  obtain ⟨htask, _, hbatches, hselects⟩ := assembleSessions_task hread hassembled
  obtain ⟨_, _, _, _, hselectedRun⟩ := assembleSessions_ok_iff.mp hassembled
  have hname : Text.isBlank (Text.trim task) = false := by rw [isBlank_trim, htask]
  have hflat : (List.range partitions).flatMap (recordsAt assembler partitions selected.written) =
      taskRecords assembler partitions (Text.trim task) reading.written := by
    rw [← hrecords, writtenRecords, hassembled, ← flatMap_records hselectedRun]
  have hnamed : ∀ index < partitions,
      ∀ group ∈ groupsAt assembler partitions reading.written index,
        groupBelongs (Text.trim task) group = true → ∀ capture ∈ group,
          capturedTraceText capture "task_session_id" = some (Text.trim task) := by
    intro index hindex group hgroup hbelongs capture hcapture
    obtain ⟨record, hrecord, hids⟩ := htaskRecord index hindex group hgroup hbelongs
    rw [← hflat] at hrecord
    obtain ⟨other, _, hother⟩ := List.mem_flatMap.mp hrecord
    have hsubset : ∀ capture ∈ selected.written, capture ∈ reading.written := by
      intro capture hcapture
      rw [hselects.written] at hcapture
      exact List.mem_of_mem_filter hcapture
    have hkept := selected_of_record hdistinct.nodup hsubset hgroup hids hother capture hcapture
    rw [hselects.written] at hkept
    exact captureMatchesSelection_iff.mp (List.mem_filter.mp hkept).2
  refine ⟨hnamed, ?_, fun _ => (unmixed_iff hread).mpr hbatches⟩
  intro index hindex
  obtain ⟨full, hprocess⟩ := exists_result hrun index hindex
  rw [← recordsAt_selected hname (hnamed index hindex) hprocess]
  obtain ⟨result, hselected⟩ := exists_result hselectedRun index hindex
  rw [← hselects.written]
  refine ⟨result, hselected, ?_⟩
  have hlengths : ∀ index ∈ List.range partitions,
      (recordsAt assembler partitions selected.written index).length =
        (keptOf (groupBelongs (Text.trim task))
          (groupsAt assembler partitions reading.written index)
          (recordsAt assembler partitions reading.written index)).length := by
    intro index hindex
    have hindex := List.mem_range.mp hindex
    obtain ⟨result, hselected⟩ := exists_result hselectedRun index hindex
    rw [length_keptOf (hrecordOf index hindex).length_eq,
      ← groupsAt_selected hname (hnamed index hindex), ← hselects.written, recordsAt, hselected]
    exact (sourceCaptureIds_records hselected).length_eq.symm
  have hsame := eq_of_flatMap_eq hlengths hflat index (List.mem_range.mpr hindex)
  rw [recordsAt, hselected, recordsAt, hprocess] at hsame
  exact hsame

/-- An assembly of one task writes the records that the full assembly writes for the Sessions of
the task exactly when it keeps these Sessions whole. -/
theorem writtenRecords_task_iff
    (hfull : assembleSessions assembler ⟨lines, partitions, none, none⟩ =
      .ok (.all, reading, results)) :
    writtenRecords assembler ⟨lines, partitions, some task, none⟩ =
        taskRecords assembler partitions (Text.trim task) reading.written ↔
      SelectsWhole assembler partitions (Text.trim task) lines reading.written := by
  obtain ⟨_, _, hread, _, _⟩ := assembleSessions_ok_iff.mp hfull
  cases hany : reading.written.any (belongsToTask (Text.trim task)) with
  | false =>
      obtain ⟨hwritten, hrecords⟩ := records_of_none hread hany
      rw [hwritten, hrecords]
      refine ⟨fun _ => ?_, fun _ => rfl⟩
      have hnone : ∀ index, ∀ group ∈ groupsAt assembler partitions reading.written index,
          groupBelongs (Text.trim task) group ≠ true := by
        intro index group hgroup hbelongs
        obtain ⟨capture, hcapture, hbelongs⟩ := List.any_eq_true.mp hbelongs
        exact List.any_eq_false.mp hany capture (mem_captures_of_group hgroup hcapture) hbelongs
      refine ⟨?_, ?_, ?_⟩
      · intro index _ group hgroup hbelongs
        exact absurd hbelongs (hnone index group hgroup)
      · intro index _ group hgroup hbelongs
        exact absurd hbelongs (hnone index group hgroup)
      · intro hsome
        rw [hany] at hsome
        cases hsome
  | true =>
      cases htask : Text.isBlank task with
      | true =>
          obtain ⟨capture, _, hbelongs⟩ := List.any_eq_true.mp hany
          rw [belongsToTask_blank ((isBlank_trim task).trans htask)] at hbelongs
          cases hbelongs
      | false => exact ⟨whole_of_records hfull hany, records_of_whole hfull htask hany⟩

end Main

end Selection

namespace Samples

def content : SessionContent where
  provider := .str "openai"
  model := .str "m"
  createdAt := .null
  endedAt := .null
  status := .str "complete"
  isFinalSnapshot := .bool true
  sourceRequestCount := .num 1
  systemPrompt := .null
  tools := .arr []
  messages := .arr []
  usage := .null
  details := []
  divergences := 0

def assembler : Assembler where
  sha256 := id
  keyHash := String.length
  sortCaptures := id
  sorted_perm := fun captures => List.Perm.refl captures
  content := fun _ => .ok content
  validateSession := fun _ => .ok ()
  revalidateTelemetryBatch := fun _ => .error "no adapter"

def line (captureId : String) (fields : List (String × Json)) : InputLine where
  text := captureId
  value := Json.mkObj (("captureId", .str captureId) :: fields)

/-- A capture whose trace context names the task. -/
def named : InputLine :=
  line "c1" [("traceContext", Json.mkObj [("task_session_id", .str "T")])]

/-- A capture that names the task itself. -/
def unnamed : InputLine := line "c2" [("task_session_id", .str "T")]

end Samples

/-- A task that the trace contexts name is written as the full assembly writes it. -/
theorem writtenRecords_named :
    writtenRecords Samples.assembler ⟨[Samples.named], 2, some " T ", none⟩ ≠ [] ∧
      ∃ reading results,
        assembleSessions Samples.assembler ⟨[Samples.named], 2, none, none⟩ =
          .ok (.all, reading, results) ∧
        (writtenRecords Samples.assembler ⟨[Samples.named], 2, some " T ", none⟩ =
            taskRecords Samples.assembler 2 (Text.trim " T ") reading.written ↔
          SelectsWhole Samples.assembler 2 (Text.trim " T ") [Samples.named] reading.written) := by
  refine ⟨by decide +kernel, ?_⟩
  have hok : (assembleSessions Samples.assembler ⟨[Samples.named], 2, none, none⟩).isOk = true := by
    decide +kernel
  cases hrun : assembleSessions Samples.assembler ⟨[Samples.named], 2, none, none⟩ with
  | error message =>
      rw [hrun] at hok
      cases hok
  | ok assembled =>
      obtain ⟨selector, reading, results⟩ := assembled
      obtain ⟨_, hselector, _⟩ := assembleSessions_ok_iff.mp hrun
      obtain rfl : Selector.all = selector := Except.ok.inj hselector
      exact ⟨reading, results, rfl, writtenRecords_task_iff hrun⟩

/-- A Session that names its task in the capture alone is left out of an assembly of the task. -/
theorem not_writtenRecords_unnamed :
    ¬ ∀ (assembler : Assembler) (lines : List InputLine) (partitions : Nat) (task : String)
        (reading : Reading) (results : List PartitionResult),
      assembleSessions assembler ⟨lines, partitions, none, none⟩ = .ok (.all, reading, results) →
        writtenRecords assembler ⟨lines, partitions, some task, none⟩ =
          taskRecords assembler partitions (Text.trim task) reading.written := by
  intro h
  have hnone : writtenRecords Samples.assembler ⟨[Samples.unnamed], 1, some "T", none⟩ = [] := by
    decide +kernel
  have hsome : (assembleSessions Samples.assembler
      ⟨[Samples.unnamed], 1, none, none⟩).toOption.any (fun assembled =>
        !(taskRecords Samples.assembler 1 (Text.trim "T") assembled.2.1.written).isEmpty) = true := by
    decide +kernel
  cases hrun : assembleSessions Samples.assembler ⟨[Samples.unnamed], 1, none, none⟩ with
  | error message =>
      rw [hrun] at hsome
      cases hsome
  | ok assembled =>
      obtain ⟨selector, reading, results⟩ := assembled
      obtain ⟨_, hselector, _⟩ := assembleSessions_ok_iff.mp hrun
      obtain rfl : Selector.all = selector := Except.ok.inj hselector
      have hequal := h Samples.assembler [Samples.unnamed] 1 "T" reading results hrun
      rw [hrun, Except.toOption, Option.any_some] at hsome
      rw [← hequal, hnone] at hsome
      cases hsome

end ChipTrace.Assemble
