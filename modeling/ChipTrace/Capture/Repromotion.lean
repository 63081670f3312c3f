/-
Promoting a stored form again: its candidates are those observed outside the trace
context, and the evidence they give is recorded already unless the trace context
took part in the first promotion and changed its outcome.
-/
import ChipTrace.Capture.Settled
import ChipTrace.Lib.Json.RoundTrip

namespace ChipTrace

theorem jsonBytes_injective {left right : Json} (hleft : left.WellFormed)
    (hright : right.WellFormed) (h : jsonBytes left = jsonBytes right) : left = right :=
  Json.print_injective hleft hright (Bytes.encode_injective h)

/-- Merging keeps exactly the items, each once. -/
theorem mem_mergedItems {recorded added : List Json}
    (hwf : ∀ item ∈ recorded ++ added, item.WellFormed) {item : Json} (hitem : item.WellFormed) :
    jsonBytes item ∈ (mergedItems recorded added).map jsonBytes ↔ item ∈ recorded ++ added := by
  rw [mergedItems, key_mem_keepFirst]
  constructor
  · intro h
    obtain ⟨other, hother, hsame⟩ := List.mem_map.mp h
    exact jsonBytes_injective (hwf other hother) hitem hsame ▸ hother
  · exact List.mem_map_of_mem

section Sources

variable {left right : CandidateSources}

theorem chiptraceHeader_public {field header : String}
    (h : chiptraceHeader field = some header) : isSensitive header = false := by
  unfold chiptraceHeader at h
  split at h
  case h_12 => cases h
  all_goals
    cases h
    decide

/-- Two sources with the same candidates outside the trace context. -/
structure SameObserved (left right : CandidateSources) : Prop where
  headers : ∀ name, isSensitive name = false →
    headerValue left.requestHeaders name = headerValue right.requestHeaders name
  topLevel : ∀ entry ∈ traceAliases, ∀ name ∈ entry.2,
    left.topLevel.get name = right.topLevel.get name
  metadata : left.metadata = right.metadata
  turnMetadata : left.turnMetadata = right.turnMetadata
  request : left.request = right.request

theorem objectCandidates_congr {object other : JsonMap} {aliases : List String}
    {origin producer authority : String}
    (h : ∀ name ∈ aliases, object.get name = other.get name) :
    objectCandidates object aliases origin producer authority =
      objectCandidates other aliases origin producer authority :=
  List.filterMap_congr fun name hname => by rw [h name hname]

theorem SameObserved.w3cTraceContext (h : SameObserved left right) :
    w3cTraceContext left.requestHeaders = w3cTraceContext right.requestHeaders := by
  rw [ChipTrace.w3cTraceContext, h.headers "traceparent" (by decide),
    h.headers "tracestate" (by decide), ChipTrace.w3cTraceContext]

theorem SameObserved.fieldCandidates (h : SameObserved left right) {field : String}
    {aliases : List String} (hfield : (field, aliases) ∈ traceAliases) :
    left.fieldCandidates field aliases = right.fieldCandidates field aliases := by
  have hheader : left.headerCandidates field = right.headerCandidates field := by
    rw [CandidateSources.headerCandidates, CandidateSources.headerCandidates]
    cases hname : chiptraceHeader field with
    | none => rfl
    | some header => simp only [h.headers header (chiptraceHeader_public hname)]
  rw [CandidateSources.fieldCandidates, hheader, objectCandidates_congr (h.topLevel _ hfield),
    h.metadata, h.turnMetadata, h.request, CandidateSources.fieldCandidates]

theorem SameObserved.observedCandidates (h : SameObserved left right) {field : String}
    {aliases : List String} (hfield : (field, aliases) ∈ traceAliases) :
    left.observedCandidates field aliases = right.observedCandidates field aliases := by
  rw [CandidateSources.observedCandidates, h.fieldCandidates hfield, h.w3cTraceContext,
    CandidateSources.observedCandidates]

/-- The same sources promote the same trace context, evidence and conflicts. -/
theorem SameObserved.promoteTrace (h : SameObserved left right)
    (hcaptured : left.captured = right.captured) (hevidenced : left.evidenced = right.evidenced) :
    promoteTrace left = promoteTrace right := by
  have hkeyed : left.keyedCandidates = right.keyedCandidates := by
    rw [CandidateSources.keyedCandidates, CandidateSources.keyedCandidates, h.w3cTraceContext]
    congr 1
    refine List.flatMap_congr fun entry hentry => ?_
    have hcandidates : left.capturedCandidates entry.1 entry.2 =
        right.capturedCandidates entry.1 entry.2 := by
      rw [CandidateSources.capturedCandidates, hcaptured, hevidenced,
        CandidateSources.capturedCandidates]
    simp only [hcandidates, h.fieldCandidates (hentry : (entry.1, entry.2) ∈ traceAliases)]
  rw [ChipTrace.promoteTrace, CandidateSources.byField, hkeyed, hcaptured, ChipTrace.promoteTrace,
    CandidateSources.byField]

end Sources

section Stored

variable {bodies : JsonMap}

theorem sourcesOf_requestHeaders (object : JsonMap) :
    (sourcesOf object).requestHeaders = (object.object? "requestHeaders").getD [] := rfl

theorem sourcesOf_captured (object : JsonMap) :
    (sourcesOf object).captured = (object.object? "traceContext").getD [] := rfl

theorem sourcesOf_topLevel (object : JsonMap) : (sourcesOf object).topLevel = object := rfl

theorem sourcesOf_metadata (object : JsonMap) :
    (sourcesOf object).metadata = metadataOf (requestOf object) := rfl

theorem sourcesOf_turnMetadata (object : JsonMap) :
    (sourcesOf object).turnMetadata = turnMetadataOf (metadataOf (requestOf object)) := rfl

theorem sourcesOf_request (object : JsonMap) :
    (sourcesOf object).request = requestOf object := rfl

theorem sourcesOf_evidenced (object : JsonMap) :
    (sourcesOf object).evidenced = evidenceFields object := rfl

theorem headerOf_eq (object : JsonMap) (side name : String) :
    headerOf object side name = headerValue ((object.object? side).getD []) name := by
  rw [headerOf]
  cases object.object? side <;> rfl

theorem sourcesOf_storedForm : SameObserved (sourcesOf (storedForm bodies)) (sourcesOf bodies) := by
  have hrequest : requestOf (storedForm bodies) = requestOf bodies := by
    rw [requestOf, storedForm_get (by decide), requestOf]
  refine ⟨?_, ?_, ?_, ?_, ?_⟩
  · intro name hname
    rw [sourcesOf_requestHeaders, sourcesOf_requestHeaders, ← headerOf_eq, ← headerOf_eq]
    exact storedForm_header (by simp) hname
  · intro entry hentry name hname
    rw [sourcesOf_topLevel, sourcesOf_topLevel]
    refine storedForm_get ?_
    revert name
    revert entry
    decide
  · rw [sourcesOf_metadata, sourcesOf_metadata, hrequest]
  · rw [sourcesOf_turnMetadata, sourcesOf_turnMetadata, hrequest]
  · rw [sourcesOf_request, sourcesOf_request, hrequest]

/-- The trace context of the stored form. -/
theorem sourcesOf_storedForm_captured :
    (sourcesOf (storedForm bodies)).captured = (promoteTrace (sourcesOf bodies)).trace := by
  have hget : (storedForm bodies).get "traceContext" =
      some (.obj (promoteTrace (sourcesOf bodies)).trace) := by
    rw [storedForm_promoted (by simp), promoteProtocolFields_traceContext]
  rw [sourcesOf_captured, object?_of_get hget, Option.getD_some]

/-- The field that an evidence item speaks about. -/
def itemField (item : Json) : Option String := (item.get? "field").bind Json.asStr

theorem evidenceFields_eq (object : JsonMap) :
    evidenceFields object = (recordedItems object "fieldEvidence").filterMap itemField := rfl

theorem recordedItems_storedForm :
    recordedItems (storedForm bodies) "fieldEvidence" =
      mergedItems (recordedItems bodies "fieldEvidence") (addedEvidence bodies) := by
  rw [recordedItems, JsonMap.array?, storedForm_promoted (by simp),
    promoteProtocolFields_fieldEvidence]
  rfl

variable (hwf : (Json.obj bodies).WellFormed)
include hwf

theorem recorded_wellFormed {field : String} {item : Json}
    (h : item ∈ recordedItems bodies field) : item.WellFormed := by
  have hwithin : Json.Within ((Json.obj bodies).depth + 2) (.obj bodies) := ⟨hwf, by omega⟩
  exact (recordedItems_within hwithin item h).1

theorem evidence_wellFormed : ∀ item ∈ recordedItems bodies "fieldEvidence" ++
    addedEvidence bodies, item.WellFormed := by
  intro item hitem
  rcases List.mem_append.mp hitem with hold | hnew
  · exact recorded_wellFormed hwf hold
  · exact (addedEvidence_within hnew).1

theorem conflicts_wellFormed : ∀ item ∈ recordedItems bodies "fieldEvidenceConflicts" ++
    addedConflicts bodies, item.WellFormed := by
  intro item hitem
  rcases List.mem_append.mp hitem with hold | hnew
  · exact recorded_wellFormed hwf hold
  · exact (addedConflicts_within hnew).1

theorem mem_storedEvidence {item : Json} :
    item ∈ mergedItems (recordedItems bodies "fieldEvidence") (addedEvidence bodies) ↔
      item ∈ recordedItems bodies "fieldEvidence" ++ addedEvidence bodies := by
  constructor
  · exact mem_of_mem_keepFirstFrom
  · intro hitem
    have hbytes := (mem_mergedItems (evidence_wellFormed hwf)
      (evidence_wellFormed hwf item hitem)).mpr hitem
    obtain ⟨other, hother, hsame⟩ := List.mem_map.mp hbytes
    have hmem := mem_of_mem_keepFirstFrom hother
    exact jsonBytes_injective (evidence_wellFormed hwf other hmem)
      (evidence_wellFormed hwf item hitem) hsame ▸ hother

/-- The evidenced fields are those recorded before and those of the new evidence. -/
theorem mem_evidenceFields_storedForm {field : String} :
    field ∈ evidenceFields (storedForm bodies) ↔
      field ∈ evidenceFields bodies ∨
        ∃ item ∈ addedEvidence bodies, itemField item = some field := by
  rw [evidenceFields_eq, evidenceFields_eq, recordedItems_storedForm]
  simp only [List.mem_filterMap, mem_storedEvidence hwf, List.mem_append, or_and_right,
    exists_or]

theorem mem_addedEvidence_of_candidate {field : String} {candidate : FieldCandidate}
    (h : candidate ∈ (sourcesOf bodies).candidatesFor field) :
    ∃ item ∈ addedEvidence bodies, itemField item = some (traceField field) := by
  refine ⟨_, List.mem_append_left _ (List.mem_append_left _
    (mem_promoteTrace_evidence.mpr ⟨field, candidate, h, rfl⟩)), ?_⟩
  rw [itemField, evidenceItem_field]
  rfl

theorem capturedCandidates_storedForm {field : String} {aliases : List String}
    (hfield : (field, aliases) ∈ traceAliases) :
    (sourcesOf (storedForm bodies)).capturedCandidates field aliases = [] := by
  rw [CandidateSources.capturedCandidates]
  split_ifs with hevidenced
  · rfl
  rw [sourcesOf_evidenced, List.contains_iff_mem, mem_evidenceFields_storedForm hwf,
    not_or] at hevidenced
  obtain ⟨hbefore, hnew⟩ := hevidenced
  have hnone : (sourcesOf bodies).candidatesFor field = [] := by
    cases hcandidates : (sourcesOf bodies).candidatesFor field with
    | nil => rfl
    | cons candidate rest =>
        exact absurd (mem_addedEvidence_of_candidate hwf (hcandidates ▸ List.mem_cons_self)) hnew
  have hcaptured : objectCandidates (sourcesOf bodies).captured aliases "capture.traceContext"
      "capture_producer" "producer_asserted" = [] := by
    rw [candidatesFor_eq hfield, List.append_eq_nil_iff, CandidateSources.capturedCandidates,
      sourcesOf_evidenced, if_neg (by rwa [List.contains_iff_mem])] at hnone
    exact hnone.1
  have hnames : ∀ entry ∈ traceAliases, ∀ name ∈ entry.2,
      name = entry.1 ∨ name ∉ traceAliases.map Prod.fst := by decide
  rw [sourcesOf_storedForm_captured, ← hcaptured]
  refine objectCandidates_congr fun name hname => ?_
  have hempty : (sourcesOf bodies).candidatesFor name = [] := by
    rcases hnames _ hfield name hname with heq | hother
    · rw [heq, hnone]
    · exact candidatesFor_eq_nil hother
  rw [promoteTrace_trace, hempty]
  exact Option.or_none

/-- The second time only the candidates outside the trace context count. -/
theorem candidatesFor_storedForm {field : String} {aliases : List String}
    (hfield : (field, aliases) ∈ traceAliases) :
    (sourcesOf (storedForm bodies)).candidatesFor field =
      (sourcesOf bodies).observedCandidates field aliases := by
  rw [candidatesFor_eq hfield, capturedCandidates_storedForm hwf hfield, List.nil_append,
    sourcesOf_storedForm.observedCandidates hfield]

omit hwf in
theorem filled?_eq_some {object : JsonMap} {key value : String}
    (h : object.get key = some (.str value)) :
    object.filled? key = if Text.isBlank value then none else some value := by
  rw [JsonMap.filled?, JsonMap.str?, h]
  cases hblank : Text.isBlank value <;> simp [Json.asStr, Option.filter, hblank]

omit hwf in
theorem requestId_existing (object : JsonMap) (field header : String) :
    (requestId object field header).existing = object.filled? field := rfl

omit hwf in
theorem requestId_requestObserved (object : JsonMap) (field header : String) :
    (requestId object field header).requestObserved =
      headerOf object "requestHeaders" header := rfl

omit hwf in
theorem requestId_responseObserved (object : JsonMap) (field header : String) :
    (requestId object field header).responseObserved =
      headerOf object "responseHeaders" header := rfl

omit hwf in
/-- The identifiers of a stored form are selected as they were. -/
theorem requestId_storedForm {field header : String}
    (hfield : (storedForm bodies).get field = promotedId bodies field header)
    (hheader : isSensitive header = false) :
    (requestId (storedForm bodies) field header).observed =
        (requestId bodies field header).observed ∧
      (requestId (storedForm bodies) field header).selected =
        (requestId bodies field header).selected ∧
      promotedId (storedForm bodies) field header = (storedForm bodies).get field := by
  have hrequest : headerOf (storedForm bodies) "requestHeaders" header =
      headerOf bodies "requestHeaders" header := storedForm_header (by simp) hheader
  have hresponse : headerOf (storedForm bodies) "responseHeaders" header =
      headerOf bodies "responseHeaders" header := storedForm_header (by simp) hheader
  have hobserved : (requestId (storedForm bodies) field header).observed =
      (requestId bodies field header).observed := by
    simp only [RequestId.observed, requestId, hrequest, hresponse]
  refine ⟨hobserved, ?_⟩
  rw [RequestId.selected, RequestId.selected, hobserved]
  have hexisting := requestId_existing (storedForm bodies) field header
  have hbefore := requestId_existing bodies field header
  rw [promotedId] at hfield ⊢
  rw [hobserved]
  cases hold : (requestId bodies field header).existing with
  | some existing =>
      rw [hold] at hfield
      have hsame : (requestId (storedForm bodies) field header).existing = some existing := by
        rw [hexisting, filled?_congr hfield, ← hbefore, hold]
      rw [hsame]
      exact ⟨rfl, rfl⟩
  | none =>
      rw [hold] at hfield
      cases hseen : (requestId bodies field header).observed with
      | none =>
          rw [hseen] at hfield
          have hsame : (requestId (storedForm bodies) field header).existing = none := by
            rw [hexisting, filled?_congr hfield, ← hbefore, hold]
          rw [hsame]
          exact ⟨rfl, rfl⟩
      | some value =>
          rw [hseen] at hfield
          rw [hexisting, filled?_eq_some hfield]
          split_ifs
          · exact ⟨rfl, hfield.symm⟩
          · exact ⟨rfl, rfl⟩

theorem storedForm_promotable (hsorted : OrdMap.Sorted (storedForm bodies)) :
    Promotable (storedForm bodies) (promoteTrace (sourcesOf bodies)).trace
      (mergedItems (recordedItems bodies "fieldEvidence") (addedEvidence bodies))
      (mergedItems (recordedItems bodies "fieldEvidenceConflicts") (addedConflicts bodies)) := by
  have hrequestId : (storedForm bodies).get "requestId" =
      promotedId bodies "requestId" "x-client-request-id" := by
    rw [storedForm_promoted (by simp), promoteProtocolFields_requestId]
  have hupstream : (storedForm bodies).get "upstreamRequestId" =
      promotedId bodies "upstreamRequestId" "x-request-id" := by
    rw [storedForm_promoted (by simp), promoteProtocolFields_upstreamRequestId]
  have hkeptId := (requestId_storedForm hrequestId (by decide)).2.2
  have hkeptUpstream := (requestId_storedForm hupstream (by decide)).2.2
  refine ⟨hsorted, ?_, ?_, hkeptId, hkeptUpstream, ?_, keepFirst_nodup _, ?_,
    keepFirst_nodup _, ?_⟩
  · rw [storedForm_promoted (by simp), promoteProtocolFields_traceContext]
  · intro field hne
    have hfield : field ∈ traceAliases.map Prod.fst := by
      by_contra hother
      exact hne (candidatesFor_eq_nil hother)
    obtain ⟨⟨field, aliases⟩, hmem, rfl⟩ := List.mem_map.mp hfield
    rw [candidatesFor_storedForm hwf hmem] at hne
    rw [JsonMap.containsKey, promoteTrace_trace, candidatesFor_eq hmem]
    cases hfirst : ((sourcesOf bodies).capturedCandidates field aliases ++
        (sourcesOf bodies).observedCandidates field aliases) with
    | nil => exact absurd (List.append_eq_nil_iff.mp hfirst).2 hne
    | cons candidate rest => cases (sourcesOf bodies).captured.get field <;> rfl
  · rw [storedForm_promoted (by simp), promoteProtocolFields_fieldEvidence]
  · rw [storedForm_promoted (by simp), promoteProtocolFields_conflicts]
  · rw [JsonMap.containsKey, storedForm_promoted (by simp)]
    exact promoteProtocolFields_captureStage bodies

/-- The evidence of a request identifier does not grow. -/
theorem idEvidence_storedForm {field header producer : String}
    (hfield : (storedForm bodies).get field = promotedId bodies field header)
    (hheader : isSensitive header = false)
    (hadded : ∀ item ∈ idEvidence bodies field header producer, item ∈ addedEvidence bodies) :
    ∀ item ∈ idEvidence (storedForm bodies) field header producer,
      item ∈ idEvidence bodies field header producer := by
  obtain ⟨_, hselected, _⟩ := requestId_storedForm hfield hheader
  have hrequest : (requestId (storedForm bodies) field header).requestObserved =
      (requestId bodies field header).requestObserved := by
    rw [requestId_requestObserved, requestId_requestObserved]
    exact storedForm_header (by simp) hheader
  have hresponse : (requestId (storedForm bodies) field header).responseObserved =
      (requestId bodies field header).responseObserved := by
    rw [requestId_responseObserved, requestId_responseObserved]
    exact storedForm_header (by simp) hheader
  -- an identifier without evidence was neither asserted nor observed
  have hassertion : (evidenceFields (storedForm bodies)).contains field = false →
      (requestId (storedForm bodies) field header).existing = none := by
    intro hmissing
    have hmissing' : field ∉ evidenceFields (storedForm bodies) := by
      rw [← List.contains_iff_mem, hmissing]
      simp
    rw [mem_evidenceFields_storedForm hwf, not_or] at hmissing'
    obtain ⟨hbefore, hnew⟩ := hmissing'
    have hnone : idEvidence bodies field header producer = [] := by
      refine List.eq_nil_iff_forall_not_mem.mpr fun item hitem => hnew ⟨item, hadded item hitem, ?_⟩
      rw [itemField, (requestIdEvidence_mem hitem).1]
      rfl
    have hcontains : (evidenceFields bodies).contains field = false := by
      rw [← Bool.not_eq_true, List.contains_iff_mem]
      exact hbefore
    rw [idEvidence, RequestId.evidence, hcontains] at hnone
    simp only [Bool.false_eq_true, if_false, List.filterMap_eq_nil_iff, List.forall_mem_cons,
      Option.map_eq_none_iff] at hnone
    obtain ⟨hexisting, hnoRequest, hnoResponse, _⟩ := hnone
    have hobserved : (requestId bodies field header).observed = none := by
      rw [RequestId.observed, hnoRequest, hnoResponse]
      rfl
    rw [promotedId, hexisting, hobserved] at hfield
    rw [requestId_existing, filled?_congr hfield, ← requestId_existing, hexisting]
  intro item hitem
  rw [idEvidence, RequestId.evidence] at hitem ⊢
  obtain ⟨⟨value, source, authority⟩, hentry, hvalue⟩ := List.mem_filterMap.mp hitem
  refine List.mem_filterMap.mpr ⟨(value, source, authority), ?_, by rw [← hselected]; exact hvalue⟩
  rw [hrequest, hresponse] at hentry
  rcases List.mem_cons.mp hentry with hfirst | hrest
  · rw [Prod.mk.injEq] at hfirst
    obtain ⟨value', rfl, _⟩ := Option.map_eq_some_iff.mp hvalue
    split_ifs at hfirst with hcontains
    · cases hfirst.1
    · rw [hassertion (by simpa using hcontains)] at hfirst
      cases hfirst.1
  · exact List.mem_cons_of_mem _ hrest

end Stored

section Stability

/-- What the trace context contributed to a field is gone the second time; the
outcome stays the same when no source outside it was there, or it only agreed with
them: no conflict appears and the same value is selected. -/
structure FieldStable (sources : CandidateSources) (conflicts : List Json) (field : String)
    (aliases : List String) : Prop where
  conflict : sources.capturedCandidates field aliases ≠ [] →
    valuesDiffer (sources.observedCandidates field aliases) = true →
      conflictItem field (sources.observedCandidates field aliases) ∈ conflicts
  selection : ∀ captured ∈ (sources.capturedCandidates field aliases).head?,
    ∀ observed ∈ (sources.observedCandidates field aliases).head?,
      ∀ blank ∈ sources.captured.get field, protocolValuePresent blank = false →
        captured.value = observed.value

variable {sources : CandidateSources} {conflicts : List Json} {field : String}
  {aliases : List String}

/-- The selection from the promoted trace context and the observed candidates. -/
theorem selectedValue_promoted (hfield : (field, aliases) ∈ traceAliases)
    (hne : sources.observedCandidates field aliases ≠ []) :
    selectedValue (promoteTrace sources).trace field
        (sources.observedCandidates field aliases) =
      if ((sources.captured.get field).any fun value => !protocolValuePresent value) = true then
        (sources.observedCandidates field aliases).head?.map (·.value)
      else selectedValue sources.captured field (sources.candidatesFor field) := by
  rw [selectedValue, selectedValue, promoteTrace_trace, candidatesFor_eq hfield]
  cases hget : sources.captured.get field with
  | some value => cases hpresent : protocolValuePresent value <;> simp [Option.filter, hpresent]
  | none =>
      cases hcaptured : sources.capturedCandidates field aliases with
      | nil =>
          cases hobserved : sources.observedCandidates field aliases with
          | nil => exact absurd hobserved hne
          | cons first rest =>
              cases hpresent : protocolValuePresent first.value <;>
                simp [Option.filter, hpresent]
      | cons first rest =>
          have hpresent := capturedCandidates_present (hcaptured ▸ List.mem_cons_self)
          simp [Option.filter, hpresent]

/-- Without a blank value of its own, or with agreeing candidates, a field selects the
same value again. -/
theorem selectedValue_stable (hfield : (field, aliases) ∈ traceAliases)
    (hne : sources.observedCandidates field aliases ≠ [])
    (hstable : FieldStable sources conflicts field aliases) :
    selectedValue (promoteTrace sources).trace field
        (sources.observedCandidates field aliases) =
      selectedValue sources.captured field (sources.candidatesFor field) := by
  rw [selectedValue_promoted hfield hne]
  split_ifs with hblank
  · cases hget : sources.captured.get field with
    | none =>
        rw [hget] at hblank
        cases hblank
    | some blank =>
        have habsent : protocolValuePresent blank = false := by simpa [hget] using hblank
        rw [selectedValue, hget, candidatesFor_eq hfield]
        cases hcaptured : sources.capturedCandidates field aliases with
        | nil => simp [Option.filter, habsent]
        | cons captured others =>
            cases hobserved : sources.observedCandidates field aliases with
            | nil => exact absurd hobserved hne
            | cons observed rest =>
                have hsame : captured.value = observed.value :=
                  hstable.selection captured (by rw [hcaptured]; rfl) observed
                    (by rw [hobserved]; rfl) blank hget habsent
                simp [Option.filter, habsent, hsame]
  · rfl

variable {bodies : JsonMap} (hwf : (Json.obj bodies).WellFormed)
include hwf

theorem mem_addedEvidence_storedForm (hfield : (field, aliases) ∈ traceAliases)
    {candidate : FieldCandidate}
    (h : candidate ∈ (sourcesOf bodies).observedCandidates field aliases) :
    evidenceItem field (selectedValue (promoteTrace (sourcesOf bodies)).trace field
      ((sourcesOf bodies).observedCandidates field aliases)) candidate ∈
        addedEvidence (storedForm bodies) := by
  refine List.mem_append_left _ (List.mem_append_left _ (mem_promoteTrace_evidence.mpr
    ⟨field, candidate, ?_, ?_⟩))
  · rw [candidatesFor_storedForm hwf hfield]
    exact h
  · rw [candidatesFor_storedForm hwf hfield, sourcesOf_storedForm_captured]

/-- Recorded selections of a field with its own evidence were made from all of its
candidates. -/
theorem selection_of_recorded (hfield : (field, aliases) ∈ traceAliases)
    {observed : FieldCandidate} {selected : Option Json}
    (hcaptured : (sourcesOf bodies).capturedCandidates field aliases ≠ [])
    (h : evidenceItem field selected observed ∈
      recordedItems bodies "fieldEvidence" ++ addedEvidence bodies) :
    (selected == some observed.value) =
      (selectedValue (sourcesOf bodies).captured field ((sourcesOf bodies).candidatesFor field) ==
        some observed.value) := by
  have hnew : traceField field ∉ evidenceFields bodies := by
    intro hmem
    refine hcaptured ?_
    rw [CandidateSources.capturedCandidates, sourcesOf_evidenced,
      if_pos (List.contains_iff_mem.mpr hmem)]
  have hitem : itemField (evidenceItem field selected observed) = some (traceField field) := by
    rw [itemField, evidenceItem_field]
    rfl
  rcases List.mem_append.mp h with hrecorded | hadded
  · refine absurd ?_ hnew
    rw [evidenceFields_eq]
    exact List.mem_filterMap.mpr ⟨_, hrecorded, hitem⟩
  · simp only [addedEvidence, List.mem_append] at hadded
    rcases hadded with (htrace | hrequest) | hupstream
    · obtain ⟨other, candidate, hcandidate, heq⟩ := mem_promoteTrace_evidence.mp htrace
      have hsameField : traceField field = traceField other := by
        have hget := congrArg (Json.get? · "field") heq
        simpa only [evidenceItem_field, Option.some.injEq, Json.str.injEq] using hget
      cases traceField_injective hsameField
      have hsameValue : observed.value = candidate.value := by
        have hget := congrArg (Json.get? · "value") heq
        simpa only [evidenceItem_value, Option.some.injEq] using hget
      have hget := congrArg (Json.get? · "selected") heq
      simpa only [evidenceItem_selected, Option.some.injEq, Json.bool.injEq,
        ← hsameValue] using hget
    · have hother := (requestIdEvidence_mem hrequest).1
      rw [evidenceItem_field, Option.some.injEq, Json.str.injEq] at hother
      exact absurd hother (traceField_ne field (by decide))
    · have hother := (requestIdEvidence_mem hupstream).1
      rw [evidenceItem_field, Option.some.injEq, Json.str.injEq] at hother
      exact absurd hother (traceField_ne field (by decide))

/-- All evidence of the second promotion is recorded exactly when every field selects
the same value again. -/
theorem evidence_recorded (hstable : ∀ field aliases, (field, aliases) ∈ traceAliases →
      FieldStable (sourcesOf bodies) conflicts field aliases) :
    ∀ item ∈ addedEvidence (storedForm bodies),
      item ∈ recordedItems bodies "fieldEvidence" ++ addedEvidence bodies := by
  have hrequestId : (storedForm bodies).get "requestId" =
      promotedId bodies "requestId" "x-client-request-id" := by
    rw [storedForm_promoted (by simp), promoteProtocolFields_requestId]
  have hupstream : (storedForm bodies).get "upstreamRequestId" =
      promotedId bodies "upstreamRequestId" "x-request-id" := by
    rw [storedForm_promoted (by simp), promoteProtocolFields_upstreamRequestId]
  intro item hitem
  refine List.mem_append_right _ ?_
  simp only [addedEvidence, List.mem_append] at hitem
  rcases hitem with (htrace | hrequest) | hupstreamItem
  · obtain ⟨field, candidate, hcandidate, rfl⟩ := mem_promoteTrace_evidence.mp htrace
    by_cases hfield : field ∈ traceAliases.map Prod.fst
    · obtain ⟨⟨field, aliases⟩, hmem, rfl⟩ := List.mem_map.mp hfield
      rw [candidatesFor_storedForm hwf hmem] at hcandidate ⊢
      rw [sourcesOf_storedForm_captured, selectedValue_stable hmem
        (List.ne_nil_of_mem hcandidate) (hstable field aliases hmem)]
      refine List.mem_append_left _ (List.mem_append_left _ (mem_promoteTrace_evidence.mpr
        ⟨field, candidate, ?_, rfl⟩))
      rw [candidatesFor_eq hmem]
      exact List.mem_append_right _ hcandidate
    · rw [candidatesFor_eq_nil hfield] at hcandidate
      cases hcandidate
  · exact List.mem_append_left _ (List.mem_append_right _ (idEvidence_storedForm hwf hrequestId
      (by decide) (fun item hitem => List.mem_append_left _ (List.mem_append_right _ hitem))
      item hrequest))
  · exact List.mem_append_right _ (idEvidence_storedForm hwf hupstream (by decide)
      (fun item hitem => List.mem_append_right _ hitem) item hupstreamItem)

/-- The conflict of the observed candidates was recorded by the first promotion only
when the trace context added no candidate. -/
theorem conflict_of_recorded (hfield : (field, aliases) ∈ traceAliases)
    (hcaptured : (sourcesOf bodies).capturedCandidates field aliases ≠ [])
    (h : conflictItem field ((sourcesOf bodies).observedCandidates field aliases) ∈
      recordedItems bodies "fieldEvidenceConflicts" ++ addedConflicts bodies) :
    conflictItem field ((sourcesOf bodies).observedCandidates field aliases) ∈
      recordedItems bodies "fieldEvidenceConflicts" := by
  rcases List.mem_append.mp h with hrecorded | hadded
  · exact hrecorded
  · obtain ⟨other, _, heq⟩ := mem_promoteTrace_conflicts.mp hadded
    have hsameField : traceField field = traceField other := by
      have hget := congrArg (Json.get? · "field") heq
      simpa only [conflictItem_field, Option.some.injEq, Json.str.injEq] using hget
    cases traceField_injective hsameField
    have hlength : ((sourcesOf bodies).observedCandidates field aliases).length =
        ((sourcesOf bodies).candidatesFor field).length := by
      have hget := congrArg (Json.get? · "evidence") heq
      simp only [conflictItem_evidence, Option.some.injEq, Json.arr.injEq] at hget
      simpa using congrArg List.length hget
    rw [candidatesFor_eq hfield, List.length_append] at hlength
    exact absurd (List.length_eq_zero_iff.mp (by omega)) hcaptured

/-- Promoting a stored form changes nothing exactly when every field is stable. -/
theorem promote_storedForm_eq_self_iff (hsorted : OrdMap.Sorted (storedForm bodies)) :
    promoteProtocolFields (storedForm bodies) = storedForm bodies ↔
      ∀ field aliases, (field, aliases) ∈ traceAliases →
        FieldStable (sourcesOf bodies) (recordedItems bodies "fieldEvidenceConflicts") field
          aliases := by
  have hevidence : ∀ item ∈ addedEvidence (storedForm bodies),
      (jsonBytes item ∈ (mergedItems (recordedItems bodies "fieldEvidence")
        (addedEvidence bodies)).map jsonBytes ↔
        item ∈ recordedItems bodies "fieldEvidence" ++ addedEvidence bodies) :=
    fun item hitem => mem_mergedItems (evidence_wellFormed hwf) (addedEvidence_within hitem).1
  have hconflicts : ∀ item ∈ addedConflicts (storedForm bodies),
      (jsonBytes item ∈ (mergedItems (recordedItems bodies "fieldEvidenceConflicts")
        (addedConflicts bodies)).map jsonBytes ↔
        item ∈ recordedItems bodies "fieldEvidenceConflicts" ++ addedConflicts bodies) :=
    fun item hitem => mem_mergedItems (conflicts_wellFormed hwf) (addedConflicts_within hitem).1
  rw [(storedForm_promotable hwf hsorted).promote_eq_self_iff]
  constructor
  · rintro ⟨hallEvidence, hallConflicts⟩ field aliases hfield
    refine ⟨?_, ?_⟩
    · intro hcaptured hdiffer
      refine conflict_of_recorded hwf hfield hcaptured ?_
      have hmem : conflictItem field ((sourcesOf bodies).observedCandidates field aliases) ∈
          addedConflicts (storedForm bodies) := by
        refine mem_promoteTrace_conflicts.mpr ⟨field, ?_, ?_⟩ <;>
          rw [candidatesFor_storedForm hwf hfield]
        exact hdiffer
      exact (hconflicts _ hmem).mp (hallConflicts _ hmem)
    · intro captured hcaptured observed hobserved blank hblank habsent
      have hcapturedMem := List.mem_of_mem_head? hcaptured
      have hobservedMem := List.mem_of_mem_head? hobserved
      have hmem := mem_addedEvidence_storedForm hwf hfield hobservedMem
      have hsame := selection_of_recorded hwf hfield (List.ne_nil_of_mem hcapturedMem)
        ((hevidence _ hmem).mp (hallEvidence _ hmem))
      have hblankAny : ((sourcesOf bodies).captured.get field).any
          (fun value => !protocolValuePresent value) = true := by
        rw [Option.mem_def] at hblank
        rw [hblank]
        simp [habsent]
      rw [Option.mem_def] at hcaptured hobserved hblank
      rw [selectedValue_promoted hfield (List.ne_nil_of_mem hobservedMem), if_pos hblankAny,
        hobserved, selectedValue, hblank, candidatesFor_eq hfield, List.head?_append,
        hcaptured] at hsame
      simpa [Option.filter, habsent] using hsame
  · intro hstable
    refine ⟨fun item hitem => (hevidence item hitem).mpr
      (evidence_recorded hwf hstable item hitem), fun item hitem => ?_⟩
    refine (hconflicts item hitem).mpr ?_
    obtain ⟨field, hdiffer, rfl⟩ := mem_promoteTrace_conflicts.mp hitem
    have hfield : field ∈ traceAliases.map Prod.fst := by
      by_contra hother
      exact valuesDiffer_ne_nil hdiffer (candidatesFor_eq_nil hother)
    obtain ⟨⟨field, aliases⟩, hmem, rfl⟩ := List.mem_map.mp hfield
    rw [candidatesFor_storedForm hwf hmem] at hdiffer ⊢
    by_cases hcaptured : (sourcesOf bodies).capturedCandidates field aliases = []
    · refine List.mem_append_right _ (mem_promoteTrace_conflicts.mpr ⟨field, ?_, ?_⟩) <;>
        rw [candidatesFor_eq hmem, hcaptured, List.nil_append]
      exact hdiffer
    · exact List.mem_append_left _ ((hstable field aliases hmem).conflict hcaptured hdiffer)

end Stability

end ChipTrace
