/-
What the promotion of an envelope records: the evidence and conflicts of each trace
field, the trace context and the request identifiers it leaves behind.
-/
import ChipTrace.Capture.Stored

namespace ChipTrace

theorem traceAliases_nodup : (traceAliases.map Prod.fst).Nodup := by decide

theorem traceField_injective {left right : String} (h : traceField left = traceField right) :
    left = right := by
  have hlist := congrArg String.toList h
  rw [traceField, traceField, String.toList_append, String.toList_append,
    List.append_cancel_left_eq] at hlist
  exact String.toList_inj.mp hlist

theorem traceField_head (field : String) : (traceField field).toList.head? = some 't' := by
  rw [traceField, String.toList_append, List.head?_append_of_ne_nil _ (by decide)]
  decide

theorem traceField_ne {other : String} (field : String)
    (hother : other.toList.head? ≠ some 't') : traceField field ≠ other :=
  fun h => hother (h ▸ traceField_head field)

section Candidates

variable {sources : CandidateSources} {field : String} {aliases : List String}

/-- All candidates of a field. -/
def CandidateSources.candidatesFor (sources : CandidateSources) (field : String) :
    List FieldCandidate := valuesOf field sources.keyedCandidates

theorem candidatesFor_eq (hfield : (field, aliases) ∈ traceAliases) :
    sources.candidatesFor field =
      sources.capturedCandidates field aliases ++ sources.observedCandidates field aliases := by
  have hvalues := valuesOf_flatMap (fun field aliases =>
    sources.capturedCandidates field aliases ++ sources.fieldCandidates field aliases)
    traceAliases_nodup hfield
  rw [CandidateSources.candidatesFor, CandidateSources.keyedCandidates, valuesOf_append]
  exact (congrArg (· ++ _) hvalues).trans (List.append_assoc _ _ _)

theorem w3cTraceContext_field {headers : JsonMap} {item : String × FieldCandidate}
    (h : item ∈ w3cTraceContext headers) : item.1 ∈ traceAliases.map Prod.fst := by
  have hfields : item.1 ∈ ["traceparent", "trace_id", "parent_span_id", "trace_flags",
      "tracestate"] := by
    rw [w3cTraceContext] at h
    split at h
    · cases h
    · split at h
      · cases h
      · split_ifs at h
        · cases h
        · rcases List.mem_append.mp h with hparent | hstate
          · obtain ⟨⟨name, value⟩, hname, rfl⟩ := List.mem_map.mp hparent
            simp only [List.mem_cons, List.not_mem_nil, or_false, Prod.mk.injEq] at hname
            rcases hname with ⟨rfl, _⟩ | ⟨rfl, _⟩ | ⟨rfl, _⟩ | ⟨rfl, _⟩ <;>
              simp [w3cCandidate]
          · rw [Option.mem_toList, Option.map_eq_some_iff] at hstate
            obtain ⟨value, _, rfl⟩ := hstate
            simp [w3cCandidate]
  revert hfields
  generalize item.1 = name
  intro hname
  simp only [List.mem_cons, List.not_mem_nil, or_false] at hname
  rcases hname with rfl | rfl | rfl | rfl | rfl <;> decide

theorem candidatesFor_eq_nil (hfield : field ∉ traceAliases.map Prod.fst) :
    sources.candidatesFor field = [] := by
  have hvalues := valuesOf_flatMap_of_not_mem (fun field aliases =>
    sources.capturedCandidates field aliases ++ sources.fieldCandidates field aliases) hfield
  have hw3c : valuesOf field (w3cTraceContext sources.requestHeaders) = [] :=
    valuesOf_of_ne fun item hitem heq => hfield (heq ▸ w3cTraceContext_field hitem)
  rw [CandidateSources.candidatesFor, CandidateSources.keyedCandidates, valuesOf_append, hw3c,
    List.append_nil]
  exact hvalues

theorem mem_byField_entries {candidates : List FieldCandidate} :
    (field, candidates) ∈ sources.byField.entries ↔
      candidates = sources.candidatesFor field ∧ candidates ≠ [] := by
  rw [Table.mem_entries, CandidateSources.byField, Table.get?_pushAll_empty,
    ← CandidateSources.candidatesFor]
  split_ifs with hnil
  · rw [hnil]
    constructor
    · intro h
      cases h
    · rintro ⟨rfl, h⟩
      exact absurd rfl h
  · rw [Option.some.injEq, eq_comm]
    exact ⟨fun h => ⟨h, h ▸ hnil⟩, fun h => h.1⟩

/-- A candidate value is a text or a flag. -/
def IsScalar (value : Json) : Prop := (∃ text, value = .str text) ∨ ∃ flag, value = .bool flag

theorem protocolValuePresent_scalar {value : Json} (h : protocolValuePresent value = true) :
    IsScalar value := by
  cases value with
  | str text => exact Or.inl ⟨text, rfl⟩
  | bool flag => exact Or.inr ⟨flag, rfl⟩
  | null => cases h
  | num n => cases h
  | arr items => cases h
  | obj fields => cases h

theorem IsScalar.within {value : Json} (h : IsScalar value) (bound : Nat) :
    Json.Within bound value := by
  rcases h with ⟨text, rfl⟩ | ⟨flag, rfl⟩
  · exact Json.within_str text
  · exact Json.within_bool flag

theorem objectCandidates_present {object : JsonMap} {origin producer authority : String}
    {candidate : FieldCandidate}
    (h : candidate ∈ objectCandidates object aliases origin producer authority) :
    protocolValuePresent candidate.value = true := by
  obtain ⟨name, _, hname⟩ := List.mem_filterMap.mp h
  obtain ⟨value, hvalue, rfl⟩ := Option.map_eq_some_iff.mp hname
  exact (Option.filter_eq_some_iff.mp hvalue).2

theorem capturedCandidates_present {candidate : FieldCandidate}
    (h : candidate ∈ sources.capturedCandidates field aliases) :
    protocolValuePresent candidate.value = true := by
  rw [CandidateSources.capturedCandidates] at h
  split_ifs at h
  · cases h
  · exact objectCandidates_present h

theorem fieldCandidates_scalar {candidate : FieldCandidate}
    (h : candidate ∈ sources.fieldCandidates field aliases) : IsScalar candidate.value := by
  simp only [CandidateSources.fieldCandidates, List.mem_append] at h
  rcases h with (((hheader | htop) | hmetadata) | hturn) | hrequest
  · rw [CandidateSources.headerCandidates] at hheader
    split at hheader
    · cases hheader
    · split at hheader
      · cases hheader
      · rw [List.mem_singleton] at hheader
        exact Or.inl ⟨_, congrArg FieldCandidate.value hheader⟩
  · exact protocolValuePresent_scalar (objectCandidates_present htop)
  · exact protocolValuePresent_scalar (objectCandidates_present hmetadata)
  · exact protocolValuePresent_scalar (objectCandidates_present hturn)
  · exact protocolValuePresent_scalar (objectCandidates_present hrequest)

theorem w3cTraceContext_scalar {headers : JsonMap} {item : String × FieldCandidate}
    (h : item ∈ w3cTraceContext headers) : IsScalar item.2.value := by
  rw [w3cTraceContext] at h
  split at h
  · cases h
  · split at h
    · cases h
    · split_ifs at h
      · cases h
      · rcases List.mem_append.mp h with hparent | hstate
        · obtain ⟨⟨name, value⟩, _, rfl⟩ := List.mem_map.mp hparent
          exact Or.inl ⟨_, rfl⟩
        · rw [Option.mem_toList, Option.map_eq_some_iff] at hstate
          obtain ⟨value, _, rfl⟩ := hstate
          exact Or.inl ⟨_, rfl⟩

theorem candidatesFor_scalar {candidate : FieldCandidate}
    (h : candidate ∈ sources.candidatesFor field) : IsScalar candidate.value := by
  by_cases hfield : field ∈ traceAliases.map Prod.fst
  · obtain ⟨⟨field, aliases⟩, hmem, rfl⟩ := List.mem_map.mp hfield
    rw [candidatesFor_eq hmem, CandidateSources.observedCandidates] at h
    rcases List.mem_append.mp h with hcaptured | hobserved
    · exact protocolValuePresent_scalar (capturedCandidates_present hcaptured)
    · rcases List.mem_append.mp hobserved with hplain | hw3c
      · exact fieldCandidates_scalar hplain
      · obtain ⟨item, hitem, hvalue⟩ := List.mem_filterMap.mp hw3c
        split_ifs at hvalue
        · cases hvalue
          exact w3cTraceContext_scalar hitem
  · rw [candidatesFor_eq_nil hfield] at h
    cases h

end Candidates

section Items

variable {field : String} {selected : Option Json} {candidate : FieldCandidate}

theorem evidenceItem_field :
    (evidenceItem field selected candidate).get? "field" = some (.str (traceField field)) := by
  simp [evidenceItem, Json.mkObj, Json.mkFields, Json.get?, OrdMap.lookup_insert]

theorem evidenceItem_value :
    (evidenceItem field selected candidate).get? "value" = some candidate.value := by
  simp [evidenceItem, Json.mkObj, Json.mkFields, Json.get?, OrdMap.lookup_insert]

theorem evidenceItem_selected : (evidenceItem field selected candidate).get? "selected" =
    some (.bool (selected == some candidate.value)) := by
  simp [evidenceItem, Json.mkObj, Json.mkFields, Json.get?]

theorem conflictItem_field {candidates : List FieldCandidate} :
    (conflictItem field candidates).get? "field" = some (.str (traceField field)) := by
  simp [conflictItem, Json.mkObj, Json.mkFields, Json.get?, OrdMap.lookup_insert]

theorem conflictItem_evidence {candidates : List FieldCandidate} :
    (conflictItem field candidates).get? "evidence" =
      some (.arr (candidates.map fieldCandidateJson)) := by
  simp [conflictItem, Json.mkObj, Json.mkFields, Json.get?]

theorem fieldCandidateJson_within (h : IsScalar candidate.value) :
    Json.Within 1 (fieldCandidateJson candidate) := by
  refine Json.within_mkObj fun item hitem => ?_
  simp only [List.mem_cons, List.not_mem_nil, or_false] at hitem
  rcases hitem with rfl | rfl | rfl | rfl
  · exact h.within 0
  all_goals exact Json.within_str _

theorem evidenceItem_within (h : IsScalar candidate.value) :
    Json.Within 1 (evidenceItem field selected candidate) := by
  refine Json.within_mkObj fun item hitem => ?_
  simp only [List.mem_cons, List.not_mem_nil, or_false] at hitem
  rcases hitem with rfl | rfl | rfl | rfl | rfl | rfl
  · exact h.within 0
  · exact Json.within_str _
  · exact Json.within_str _
  · exact Json.within_str _
  · exact Json.within_str _
  · exact Json.within_bool _

theorem conflictItem_within {candidates : List FieldCandidate}
    (h : ∀ candidate ∈ candidates, IsScalar candidate.value) :
    Json.Within 3 (conflictItem field candidates) := by
  refine Json.within_mkObj fun item hitem => ?_
  simp only [List.mem_cons, List.not_mem_nil, or_false] at hitem
  rcases hitem with rfl | rfl
  · exact Json.within_str _
  · refine Json.within_arr_iff.mpr fun json hjson => ?_
    obtain ⟨candidate, hcandidate, rfl⟩ := List.mem_map.mp hjson
    exact fieldCandidateJson_within (h candidate hcandidate)

end Items

section RequestIds

variable {object other : JsonMap} {field header producer : String}

theorem requestId_congr (hfield : object.get field = other.get field)
    (hrequest : headerOf object "requestHeaders" header =
      headerOf other "requestHeaders" header)
    (hresponse : headerOf object "responseHeaders" header =
      headerOf other "responseHeaders" header) :
    requestId object field header = requestId other field header := by
  rw [requestId, requestId, filled?_congr hfield, hrequest, hresponse]

theorem requestIdEvidence_mem {id : RequestId} {evidenced : Bool} {item : Json}
    (h : item ∈ id.evidence field header producer evidenced) :
    item.get? "field" = some (.str field) ∧ Json.Within 1 item := by
  obtain ⟨⟨value, source, authority⟩, _, hvalue⟩ := List.mem_filterMap.mp h
  obtain ⟨value, rfl, rfl⟩ := Option.map_eq_some_iff.mp hvalue
  refine ⟨by simp [Json.mkObj, Json.mkFields, Json.get?, OrdMap.lookup_insert], ?_⟩
  refine Json.within_mkObj fun item hitem => ?_
  simp only [List.mem_cons, List.not_mem_nil, or_false] at hitem
  rcases hitem with rfl | rfl | rfl | rfl | rfl | rfl
  · exact Json.within_str _
  · exact Json.within_str _
  · exact Json.within_str _
  · exact Json.within_str _
  · exact Json.within_str _
  · exact Json.within_bool _

theorem fill_get_of_ne {id : RequestId} {key : String} (hkey : key ≠ field) :
    (id.fill object field).get key = object.get key := by
  rw [RequestId.fill]
  split
  · exact JsonMap.get_insert_of_ne hkey
  · rfl

theorem fill_get {id : RequestId} (hnone : id.existing = none) {value : String}
    (hvalue : id.observed = some value) :
    (id.fill object field).get field = some (.str value) := by
  rw [RequestId.fill, hnone, hvalue]
  exact JsonMap.get_insert_self

theorem fill_eq_self {id : RequestId} (h : id.existing ≠ none ∨ id.observed = none) :
    id.fill object field = object := by
  rw [RequestId.fill]
  cases hexisting : id.existing <;> cases hobserved : id.observed <;> simp_all

theorem fill_within {id : RequestId} {bound : Nat}
    (h : Json.Within (bound + 1) (.obj object)) :
    Json.Within (bound + 1) (.obj (id.fill object field)) := by
  rw [RequestId.fill]
  split
  · exact h.insert (Json.within_str _)
  · exact h

end RequestIds

section Loop

variable {sources : CandidateSources} {field : String}

theorem promoteField_trace (state : Promoted) (candidates : List FieldCandidate) (key : String) :
    (promoteField state (field, candidates)).trace.get key =
      if key = field then (state.trace.get key).or (candidates.head?.map (·.value))
      else state.trace.get key := by
  simp only [promoteField]
  cases hselected : selectedValue state.trace field candidates with
  | none =>
      rw [selectedValue, Option.or_eq_none_iff] at hselected
      simp [hselected.2]
  | some value =>
      rw [JsonMap.get_orInsert]
      split_ifs with hkey
      · subst hkey
        cases hget : state.trace.get key with
        | some stored => rfl
        | none =>
            rw [selectedValue, hget] at hselected
            simpa using hselected.symm
      · rfl

/-- The trace context after the loop: what it had, and the first candidate of every
other field. -/
theorem foldl_promoteField_trace (entries : List (String × List FieldCandidate))
    (state : Promoted) (hnodup : (entries.map Prod.fst).Nodup) (key : String) :
    (entries.foldl promoteField state).trace.get key =
      (state.trace.get key).or ((OrdMap.lookup key entries).bind fun candidates =>
        candidates.head?.map (·.value)) := by
  induction entries generalizing state with
  | nil => simp
  | cons entry rest ih =>
      obtain ⟨field, candidates⟩ := entry
      obtain ⟨hhead, hrest⟩ := List.nodup_cons.mp hnodup
      rw [List.foldl_cons, ih _ hrest, OrdMap.lookup, promoteField_trace]
      by_cases hkey : key = field
      · subst hkey
        rw [if_pos rfl, if_pos rfl, OrdMap.lookup_eq_none_of_not_mem hhead]
        simp
      · rw [if_neg hkey, if_neg hkey]

theorem selectedValue_congr {trace other : JsonMap} {candidates : List FieldCandidate}
    (h : trace.get field = other.get field) :
    selectedValue trace field candidates = selectedValue other field candidates := by
  rw [selectedValue, h, selectedValue]

/-- Every candidate becomes evidence, with the selection made from the trace context
before the loop. -/
theorem foldl_promoteField_evidence (entries : List (String × List FieldCandidate))
    (state : Promoted) (hnodup : (entries.map Prod.fst).Nodup) :
    (entries.foldl promoteField state).evidence =
      state.evidence ++ entries.flatMap fun entry =>
        entry.2.map (evidenceItem entry.1 (selectedValue state.trace entry.1 entry.2)) := by
  induction entries generalizing state with
  | nil => simp
  | cons entry rest ih =>
      obtain ⟨field, candidates⟩ := entry
      obtain ⟨hhead, hrest⟩ := List.nodup_cons.mp hnodup
      have hlater : ∀ entry ∈ rest,
          selectedValue (promoteField state (field, candidates)).trace entry.1 entry.2 =
            selectedValue state.trace entry.1 entry.2 := by
        intro entry hentry
        refine selectedValue_congr ?_
        have hne : entry.1 ≠ field := by
          rintro rfl
          exact hhead (List.mem_map.mpr ⟨entry, hentry, rfl⟩)
        rw [promoteField_trace, if_neg hne]
      rw [List.foldl_cons, ih _ hrest, List.flatMap_cons,
        List.flatMap_congr fun entry hentry => by rw [hlater entry hentry], ← List.append_assoc]
      rfl

theorem foldl_promoteField_conflicts (entries : List (String × List FieldCandidate))
    (state : Promoted) :
    (entries.foldl promoteField state).conflicts =
      state.conflicts ++ (entries.filter fun entry => valuesDiffer entry.2).map fun entry =>
        conflictItem entry.1 entry.2 := by
  induction entries generalizing state with
  | nil => simp
  | cons entry rest ih =>
      obtain ⟨field, candidates⟩ := entry
      rw [List.foldl_cons, ih, List.filter_cons, promoteField]
      by_cases hdiffer : valuesDiffer candidates = true <;> simp [hdiffer]

theorem byField_keys_nodup : (sources.byField.entries.map Prod.fst).Nodup :=
  List.pairwise_map.mpr (sources.byField.sorted.imp fun hlt => ne_of_lt hlt)

theorem promoteTrace_trace (key : String) :
    (promoteTrace sources).trace.get key =
      (sources.captured.get key).or ((sources.candidatesFor key).head?.map (·.value)) := by
  rw [promoteTrace, foldl_promoteField_trace _ _ byField_keys_nodup]
  congr 1
  have hget := Table.get?_pushAll_empty sources.keyedCandidates key
  rw [← CandidateSources.candidatesFor] at hget
  have hlookup : OrdMap.lookup key sources.byField.entries =
    if sources.candidatesFor key = [] then none else some (sources.candidatesFor key) := hget
  rw [hlookup]
  split_ifs with hnil
  · rw [hnil]
    rfl
  · rfl

theorem mem_promoteTrace_evidence {item : Json} :
    item ∈ (promoteTrace sources).evidence ↔
      ∃ field, ∃ candidate ∈ sources.candidatesFor field,
        item = evidenceItem field
          (selectedValue sources.captured field (sources.candidatesFor field)) candidate := by
  rw [promoteTrace, foldl_promoteField_evidence _ _ byField_keys_nodup, List.nil_append,
    List.mem_flatMap]
  constructor
  · rintro ⟨⟨field, candidates⟩, hentry, hitem⟩
    obtain ⟨rfl, _⟩ := mem_byField_entries.mp hentry
    obtain ⟨candidate, hcandidate, rfl⟩ := List.mem_map.mp hitem
    exact ⟨field, candidate, hcandidate, rfl⟩
  · rintro ⟨field, candidate, hcandidate, rfl⟩
    exact ⟨(field, sources.candidatesFor field),
      mem_byField_entries.mpr ⟨rfl, List.ne_nil_of_mem hcandidate⟩,
      List.mem_map_of_mem hcandidate⟩

theorem valuesDiffer_ne_nil {candidates : List FieldCandidate}
    (h : valuesDiffer candidates = true) : candidates ≠ [] := by
  rintro rfl
  cases h

theorem mem_promoteTrace_conflicts {item : Json} :
    item ∈ (promoteTrace sources).conflicts ↔
      ∃ field, valuesDiffer (sources.candidatesFor field) = true ∧
        item = conflictItem field (sources.candidatesFor field) := by
  rw [promoteTrace, foldl_promoteField_conflicts, List.nil_append, List.mem_map]
  constructor
  · rintro ⟨⟨field, candidates⟩, hentry, rfl⟩
    obtain ⟨hmem, hdiffer⟩ := List.mem_filter.mp hentry
    obtain ⟨rfl, _⟩ := mem_byField_entries.mp hmem
    exact ⟨field, hdiffer, rfl⟩
  · rintro ⟨field, hdiffer, rfl⟩
    exact ⟨(field, sources.candidatesFor field), List.mem_filter.mpr
      ⟨mem_byField_entries.mpr ⟨rfl, valuesDiffer_ne_nil hdiffer⟩, hdiffer⟩, rfl⟩

end Loop

section Promotion

variable {object other : JsonMap}

theorem headerOf_congr {side name : String} (h : object.get side = other.get side) :
    headerOf object side name = headerOf other side name := by
  rw [headerOf, object?_congr h, headerOf]

def recordedItems (object : JsonMap) (field : String) : List Json :=
  (object.array? field).getD []

/-- The evidence of one request identifier. -/
def idEvidence (object : JsonMap) (field header producer : String) : List Json :=
  (requestId object field header).evidence field header producer
    ((evidenceFields object).contains field)

/-- The evidence that the promotion of an envelope adds. -/
def addedEvidence (object : JsonMap) : List Json :=
  (promoteTrace (sourcesOf object)).evidence ++
    idEvidence object "requestId" "x-client-request-id" "sub2api" ++
    idEvidence object "upstreamRequestId" "x-request-id" "upstream_provider"

def addedConflicts (object : JsonMap) : List Json := (promoteTrace (sourcesOf object)).conflicts

/-- The envelope before its evidence is merged. -/
def identifiedEnvelope (object : JsonMap) : JsonMap :=
  (requestId object "upstreamRequestId" "x-request-id").fill
    ((requestId object "requestId" "x-client-request-id").fill
      (object.insert "traceContext" (.obj (promoteTrace (sourcesOf object)).trace))
      "requestId") "upstreamRequestId"

def mergedItems (recorded added : List Json) : List Json := keepFirst jsonBytes (recorded ++ added)

def stageOf (object : JsonMap) : Json :=
  .str (captureStage (isPresent (object.get "requestBody")) (isPresent (object.get "responseBody")))

theorem identifiedEnvelope_get {key : String}
    (hkey : key ∉ ["traceContext", "requestId", "upstreamRequestId"]) :
    (identifiedEnvelope object).get key = object.get key := by
  simp only [List.mem_cons, List.not_mem_nil, or_false, not_or] at hkey
  rw [identifiedEnvelope, fill_get_of_ne hkey.2.2, fill_get_of_ne hkey.2.1,
    JsonMap.get_insert_of_ne hkey.1]

theorem promoteProtocolFields_eq (object : JsonMap) :
    promoteProtocolFields object =
      (((identifiedEnvelope object).insert "fieldEvidence"
        (.arr (mergedItems (recordedItems object "fieldEvidence") (addedEvidence object)))).insert
          "fieldEvidenceConflicts" (.arr (mergedItems
            (recordedItems object "fieldEvidenceConflicts") (addedConflicts object)))).orInsert
              "captureStage" (stageOf object) := by
  have hfirst : requestId
      (object.insert "traceContext" (.obj (promoteTrace (sourcesOf object)).trace))
      "requestId" "x-client-request-id" = requestId object "requestId" "x-client-request-id" :=
    requestId_congr (JsonMap.get_insert_of_ne (by decide))
      (headerOf_congr (JsonMap.get_insert_of_ne (by decide)))
      (headerOf_congr (JsonMap.get_insert_of_ne (by decide)))
  have hsecond : requestId
      ((requestId object "requestId" "x-client-request-id").fill
        (object.insert "traceContext" (.obj (promoteTrace (sourcesOf object)).trace)) "requestId")
      "upstreamRequestId" "x-request-id" =
        requestId object "upstreamRequestId" "x-request-id" := by
    have hget : ∀ key, key ≠ "requestId" → key ≠ "traceContext" →
        ((requestId object "requestId" "x-client-request-id").fill
          (object.insert "traceContext" (.obj (promoteTrace (sourcesOf object)).trace))
          "requestId").get key = object.get key := fun key hid htrace => by
      rw [fill_get_of_ne hid, JsonMap.get_insert_of_ne htrace]
    exact requestId_congr (hget _ (by decide) (by decide))
      (headerOf_congr (hget _ (by decide) (by decide)))
      (headerOf_congr (hget _ (by decide) (by decide)))
  have hmerged : promoteProtocolFields object =
      (mergeArrayField (mergeArrayField (identifiedEnvelope object) "fieldEvidence"
        (addedEvidence object)) "fieldEvidenceConflicts" (addedConflicts object)).orInsert
          "captureStage" (stageOf (mergeArrayField (mergeArrayField (identifiedEnvelope object)
            "fieldEvidence" (addedEvidence object)) "fieldEvidenceConflicts"
              (addedConflicts object))) := by
    simp only [promoteProtocolFields, promoteRequestId, hfirst, hsecond]
    rfl
  have hbody : ∀ key ∈ ["requestBody", "responseBody"],
      (mergeArrayField (mergeArrayField (identifiedEnvelope object) "fieldEvidence"
        (addedEvidence object)) "fieldEvidenceConflicts" (addedConflicts object)).get key =
          object.get key := by
    intro key hkey
    simp only [List.mem_cons, List.not_mem_nil, or_false] at hkey
    rw [mergeArrayField, JsonMap.get_insert_of_ne, mergeArrayField, JsonMap.get_insert_of_ne,
      identifiedEnvelope_get] <;> rcases hkey with rfl | rfl <;> decide
  rw [hmerged, stageOf, hbody "requestBody" (by simp), hbody "responseBody" (by simp), ← stageOf,
    mergeArrayField, mergeArrayField, JsonMap.array?, JsonMap.array?,
    JsonMap.get_insert_of_ne (by decide), identifiedEnvelope_get (by decide),
    identifiedEnvelope_get (by decide)]
  rfl

section Lookups

/-- The value of an identifier field after its promotion. -/
def promotedId (object : JsonMap) (field header : String) : Option Json :=
  match (requestId object field header).existing, (requestId object field header).observed with
  | none, some value => some (.str value)
  | _, _ => object.get field

theorem fill_get_self {base : JsonMap} {field header : String}
    (hbase : base.get field = object.get field) :
    ((requestId object field header).fill base field).get field =
      promotedId object field header := by
  rw [RequestId.fill, promotedId]
  cases (requestId object field header).existing <;>
    cases (requestId object field header).observed
  all_goals first | exact hbase | exact JsonMap.get_insert_self

variable (object)

theorem promoteProtocolFields_get {key : String}
    (hkey : key ∉ ["traceContext", "requestId", "upstreamRequestId", "fieldEvidence",
      "fieldEvidenceConflicts", "captureStage"]) :
    (promoteProtocolFields object).get key = object.get key := by
  simp only [List.mem_cons, List.not_mem_nil, or_false, not_or] at hkey
  rw [promoteProtocolFields_eq, JsonMap.get_orInsert_of_ne hkey.2.2.2.2.2,
    JsonMap.get_insert_of_ne hkey.2.2.2.2.1, JsonMap.get_insert_of_ne hkey.2.2.2.1,
    identifiedEnvelope_get (by simp [hkey])]

theorem promoteProtocolFields_traceContext :
    (promoteProtocolFields object).get "traceContext" =
      some (.obj (promoteTrace (sourcesOf object)).trace) := by
  rw [promoteProtocolFields_eq, JsonMap.get_orInsert_of_ne (by decide),
    JsonMap.get_insert_of_ne (by decide), JsonMap.get_insert_of_ne (by decide),
    identifiedEnvelope, fill_get_of_ne (by decide), fill_get_of_ne (by decide),
    JsonMap.get_insert_self]

theorem promoteProtocolFields_requestId :
    (promoteProtocolFields object).get "requestId" =
      promotedId object "requestId" "x-client-request-id" := by
  rw [promoteProtocolFields_eq, JsonMap.get_orInsert_of_ne (by decide),
    JsonMap.get_insert_of_ne (by decide), JsonMap.get_insert_of_ne (by decide),
    identifiedEnvelope, fill_get_of_ne (by decide), fill_get_self]
  exact JsonMap.get_insert_of_ne (by decide)

theorem promoteProtocolFields_upstreamRequestId :
    (promoteProtocolFields object).get "upstreamRequestId" =
      promotedId object "upstreamRequestId" "x-request-id" := by
  rw [promoteProtocolFields_eq, JsonMap.get_orInsert_of_ne (by decide),
    JsonMap.get_insert_of_ne (by decide), JsonMap.get_insert_of_ne (by decide),
    identifiedEnvelope, fill_get_self]
  rw [fill_get_of_ne (by decide), JsonMap.get_insert_of_ne (by decide)]

theorem promoteProtocolFields_fieldEvidence :
    (promoteProtocolFields object).get "fieldEvidence" =
      some (.arr (mergedItems (recordedItems object "fieldEvidence") (addedEvidence object))) := by
  rw [promoteProtocolFields_eq, JsonMap.get_orInsert_of_ne (by decide),
    JsonMap.get_insert_of_ne (by decide), JsonMap.get_insert_self]

theorem promoteProtocolFields_conflicts :
    (promoteProtocolFields object).get "fieldEvidenceConflicts" =
      some (.arr (mergedItems (recordedItems object "fieldEvidenceConflicts")
        (addedConflicts object))) := by
  rw [promoteProtocolFields_eq, JsonMap.get_orInsert_of_ne (by decide), JsonMap.get_insert_self]

theorem promoteProtocolFields_stage :
    (promoteProtocolFields object).get "captureStage" =
      some ((object.get "captureStage").getD (stageOf object)) := by
  rw [promoteProtocolFields_eq, JsonMap.get_orInsert, if_pos rfl,
    JsonMap.get_insert_of_ne (by decide), JsonMap.get_insert_of_ne (by decide),
    identifiedEnvelope_get (by decide)]

theorem promoteProtocolFields_captureStage :
    (promoteProtocolFields object).containsKey "captureStage" = true := by
  rw [JsonMap.containsKey, promoteProtocolFields_stage]
  rfl

end Lookups

section Settled

/-- The envelope of a promotion that has nothing left to fill in. -/
structure Promotable (object : JsonMap) (trace : JsonMap) (evidence conflicts : List Json) :
    Prop where
  sorted : OrdMap.Sorted object
  traceContext : object.get "traceContext" = some (.obj trace)
  filled : ∀ field, (sourcesOf object).candidatesFor field ≠ [] →
    trace.containsKey field = true
  requestId : promotedId object "requestId" "x-client-request-id" = object.get "requestId"
  upstreamRequestId :
    promotedId object "upstreamRequestId" "x-request-id" = object.get "upstreamRequestId"
  fieldEvidence : object.get "fieldEvidence" = some (.arr evidence)
  evidenceDistinct : (evidence.map jsonBytes).Nodup
  fieldEvidenceConflicts : object.get "fieldEvidenceConflicts" = some (.arr conflicts)
  conflictsDistinct : (conflicts.map jsonBytes).Nodup
  captureStage : object.containsKey "captureStage" = true

variable {trace : JsonMap} {evidence conflicts : List Json}

theorem fill_eq_self_of_promotedId {field header : String} (hsorted : OrdMap.Sorted object)
    (h : promotedId object field header = object.get field) :
    (requestId object field header).fill object field = object := by
  revert h
  rw [promotedId, RequestId.fill]
  cases (requestId object field header).existing with
  | some existing => exact fun _ => rfl
  | none =>
      cases (requestId object field header).observed with
      | none => exact fun _ => rfl
      | some value => exact fun h => JsonMap.insert_eq_self hsorted h.symm

theorem foldl_promoteField_filled (entries : List (String × List FieldCandidate))
    (state : Promoted)
    (hfilled : ∀ entry ∈ entries, state.trace.containsKey entry.1 = true) :
    (entries.foldl promoteField state).trace = state.trace := by
  induction entries generalizing state with
  | nil => rfl
  | cons entry rest ih =>
      obtain ⟨field, candidates⟩ := entry
      have hstep : (promoteField state (field, candidates)).trace = state.trace := by
        rw [promoteField]
        cases selectedValue state.trace field candidates with
        | none => rfl
        | some value =>
            exact JsonMap.orInsert_eq_self.mpr
              (hfilled (field, candidates) List.mem_cons_self)
      rw [List.foldl_cons, ih, hstep]
      intro entry hentry
      rw [hstep]
      exact hfilled entry (List.mem_cons_of_mem _ hentry)

theorem Promotable.trace_eq (h : Promotable object trace evidence conflicts) :
    (promoteTrace (sourcesOf object)).trace = trace := by
  have hcaptured : (sourcesOf object).captured = trace := by
    rw [sourcesOf, sourcesWith, object?_of_get h.traceContext]
    rfl
  rw [promoteTrace, foldl_promoteField_filled, hcaptured]
  rintro ⟨field, candidates⟩ hentry
  obtain ⟨rfl, hne⟩ := mem_byField_entries.mp hentry
  rw [hcaptured]
  exact h.filled field hne

theorem Promotable.identifiedEnvelope_eq (h : Promotable object trace evidence conflicts) :
    identifiedEnvelope object = object := by
  have htrace : object.insert "traceContext" (.obj (promoteTrace (sourcesOf object)).trace) =
      object := by
    rw [h.trace_eq]
    exact JsonMap.insert_eq_self h.sorted h.traceContext
  rw [identifiedEnvelope, htrace, fill_eq_self_of_promotedId h.sorted h.requestId,
    fill_eq_self_of_promotedId h.sorted h.upstreamRequestId]

theorem Promotable.recorded_eq (h : Promotable object trace evidence conflicts) :
    recordedItems object "fieldEvidence" = evidence ∧
      recordedItems object "fieldEvidenceConflicts" = conflicts := by
  constructor
  · rw [recordedItems, JsonMap.array?, h.fieldEvidence]
    rfl
  · rw [recordedItems, JsonMap.array?, h.fieldEvidenceConflicts]
    rfl

/-- Such an envelope only changes in what is recorded. -/
theorem Promotable.promote_eq_self (h : Promotable object trace evidence conflicts)
    (hevidence : (promoteProtocolFields object).get "fieldEvidence" =
      object.get "fieldEvidence")
    (hconflicts : (promoteProtocolFields object).get "fieldEvidenceConflicts" =
      object.get "fieldEvidenceConflicts") :
    promoteProtocolFields object = object := by
  obtain ⟨hrecorded, hrecordedConflicts⟩ := h.recorded_eq
  rw [promoteProtocolFields_fieldEvidence, h.fieldEvidence, hrecorded] at hevidence
  rw [promoteProtocolFields_conflicts, h.fieldEvidenceConflicts, hrecordedConflicts] at hconflicts
  have hsameEvidence := Json.arr.inj (Option.some.inj hevidence)
  have hsameConflicts := Json.arr.inj (Option.some.inj hconflicts)
  rw [promoteProtocolFields_eq, h.identifiedEnvelope_eq, hrecorded, hrecordedConflicts,
    hsameEvidence, JsonMap.insert_eq_self h.sorted h.fieldEvidence,
    hsameConflicts, JsonMap.insert_eq_self h.sorted h.fieldEvidenceConflicts]
  exact JsonMap.orInsert_eq_self.mpr h.captureStage

/-- Promotion leaves such an envelope alone exactly when all that it would record is
recorded already. -/
theorem Promotable.promote_eq_self_iff (h : Promotable object trace evidence conflicts) :
    promoteProtocolFields object = object ↔
      (∀ item ∈ addedEvidence object, jsonBytes item ∈ evidence.map jsonBytes) ∧
        ∀ item ∈ addedConflicts object, jsonBytes item ∈ conflicts.map jsonBytes := by
  obtain ⟨hrecorded, hrecordedConflicts⟩ := h.recorded_eq
  have hevidence := promoteProtocolFields_fieldEvidence object
  have hconflicts := promoteProtocolFields_conflicts object
  rw [hrecorded, mergedItems] at hevidence
  rw [hrecordedConflicts, mergedItems] at hconflicts
  rw [← keepFirst_append_eq_self h.evidenceDistinct,
    ← keepFirst_append_eq_self h.conflictsDistinct]
  constructor
  · intro hsame
    rw [hsame, h.fieldEvidence] at hevidence
    rw [hsame, h.fieldEvidenceConflicts] at hconflicts
    exact ⟨(Json.arr.inj (Option.some.inj hevidence)).symm,
      (Json.arr.inj (Option.some.inj hconflicts)).symm⟩
  · rintro ⟨hsameEvidence, hsameConflicts⟩
    refine h.promote_eq_self ?_ ?_
    · rw [hevidence, hsameEvidence, h.fieldEvidence]
    · rw [hconflicts, hsameConflicts, h.fieldEvidenceConflicts]

end Settled

end Promotion

end ChipTrace
