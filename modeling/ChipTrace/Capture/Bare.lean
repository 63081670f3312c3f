/-
Envelopes without headers, bodies or evidence, whose trace fields all stand under their
own names in the trace context: the promotion finds nothing else and selects what is
already there.
-/
import ChipTrace.Capture.Repromotion

namespace ChipTrace

/-- The fields besides the trace context that the promotion takes its values from. -/
def promotedKeys : List String :=
  ["requestHeaders", "responseHeaders", "requestBody", "requestId", "upstreamRequestId",
    "fieldEvidence", "fieldEvidenceConflicts"] ++ traceAliases.flatMap Prod.snd

/-- No trace field under another of its names. -/
def CanonicalTrace (trace : JsonMap) : Prop :=
  ∀ entry ∈ traceAliases, ∀ name ∈ entry.2, name ≠ entry.1 → trace.get name = none

structure Bare (object : JsonMap) : Prop where
  absent : ∀ key ∈ promotedKeys, object.get key = none
  trace : CanonicalTrace ((object.object? "traceContext").getD [])

theorem promoteTrace_sorted {sources : CandidateSources} (h : OrdMap.Sorted sources.captured) :
    OrdMap.Sorted (promoteTrace sources).trace := by
  refine foldl_preserves promoteField (fun state : Promoted => OrdMap.Sorted state.trace)
    sources.byField.entries (fun entry _ state hstate => ?_) _ h
  obtain ⟨field, candidates⟩ := entry
  simp only [promoteField]
  cases selectedValue state.trace field candidates with
  | none => exact hstate
  | some value =>
      change OrdMap.Sorted (state.trace.orInsert field value)
      rw [JsonMap.orInsert]
      split_ifs
      · exact hstate
      · exact OrdMap.sorted_insert field value hstate

variable {object : JsonMap}

namespace Bare

variable (h : Bare object)
include h

theorem objectAbsent {key : String} (hkey : key ∈ promotedKeys) : object.object? key = none := by
  rw [JsonMap.object?, h.absent key hkey]
  rfl

theorem requestOf_eq : requestOf object = [] := by
  rw [requestOf, h.absent "requestBody" (by decide)]
  rfl

theorem observedCandidates {field : String} {aliases : List String}
    (hfield : (field, aliases) ∈ traceAliases) :
    (sourcesOf object).observedCandidates field aliases = [] := by
  have hheaders : (sourcesOf object).requestHeaders = [] := by
    change (object.object? "requestHeaders").getD [] = []
    rw [h.objectAbsent (by decide)]
    rfl
  have hempty : ∀ origin producer authority : String,
      objectCandidates [] aliases origin producer authority = [] := fun _ _ _ =>
    List.filterMap_eq_nil_iff.mpr fun name _ => rfl
  have htop : ∀ origin producer authority : String,
      objectCandidates object aliases origin producer authority = [] := by
    intro origin producer authority
    refine List.filterMap_eq_nil_iff.mpr fun name hname => ?_
    rw [h.absent name (List.mem_append_right _ (List.mem_flatMap.mpr ⟨_, hfield, hname⟩))]
    rfl
  have hw3c : w3cTraceContext [] = [] := rfl
  have hheader : (sourcesOf object).headerCandidates field = [] := by
    rw [CandidateSources.headerCandidates, hheaders]
    cases chiptraceHeader field <;> rfl
  rw [CandidateSources.observedCandidates, CandidateSources.fieldCandidates, hheader, hheaders,
    hw3c]
  change (([] ++ objectCandidates object aliases _ _ _ ++
    objectCandidates (metadataOf (requestOf object)) aliases _ _ _ ++
    objectCandidates (turnMetadataOf (metadataOf (requestOf object))) aliases _ _ _ ++
    objectCandidates (requestOf object) aliases _ _ _) ++ valuesOf field []) = []
  rw [h.requestOf_eq, htop, hempty]
  have hmetadata : metadataOf [] = [] := rfl
  have hturn : turnMetadataOf [] = [] := rfl
  rw [hmetadata, hturn, hempty, hempty]
  rfl

/-- The only candidates are the values of the trace context. -/
theorem candidatesFor {field : String} {aliases : List String}
    (hfield : (field, aliases) ∈ traceAliases) :
    (sourcesOf object).candidatesFor field =
      objectCandidates (sourcesOf object).captured aliases "capture.traceContext"
        "capture_producer" "producer_asserted" := by
  have hevidenced : (sourcesOf object).evidenced = [] := by
    change evidenceFields object = []
    rw [evidenceFields, JsonMap.array?, h.absent "fieldEvidence" (by decide)]
    rfl
  rw [candidatesFor_eq hfield, h.observedCandidates hfield, List.append_nil,
    CandidateSources.capturedCandidates, hevidenced]
  rfl

/-- At most one candidate, with the value that is already there. -/
theorem candidatesFor_own {field : String} {aliases : List String}
    (hfield : (field, aliases) ∈ traceAliases) :
    (sourcesOf object).candidatesFor field =
      (((sourcesOf object).captured.get field).filter protocolValuePresent).toList.map
        fun value => ⟨value, s!"capture.traceContext.{field}", "capture_producer",
          "producer_asserted"⟩ := by
  have hshape : ∀ entry ∈ traceAliases,
      entry.2 = entry.1 :: entry.2.tail ∧ entry.1 ∉ entry.2.tail := by decide
  have hcons : aliases = field :: aliases.tail := (hshape _ hfield).1
  have hfresh : field ∉ aliases.tail := (hshape _ hfield).2
  have hothers : objectCandidates (sourcesOf object).captured aliases.tail
      "capture.traceContext" "capture_producer" "producer_asserted" = [] := by
    refine List.filterMap_eq_nil_iff.mpr fun name hname => ?_
    have hmem : name ∈ aliases := List.mem_of_mem_tail hname
    have hne : name ≠ field := fun hsame => hfresh (hsame ▸ hname)
    rw [sourcesOf_captured, h.trace _ hfield name hmem hne]
    rfl
  rw [h.candidatesFor hfield, hcons, objectCandidates, List.filterMap_cons]
  rw [objectCandidates] at hothers
  cases ((sourcesOf object).captured.get field).filter protocolValuePresent with
  | none => exact hothers
  | some value => exact congrArg _ hothers

theorem captured_promoted (key : String) :
    (promoteTrace (sourcesOf object)).trace.get key = (sourcesOf object).captured.get key := by
  rw [promoteTrace_trace]
  by_cases hkey : key ∈ traceAliases.map Prod.fst
  · obtain ⟨⟨field, aliases⟩, hentry, rfl⟩ := List.mem_map.mp hkey
    rw [h.candidatesFor_own hentry]
    cases hget : (sourcesOf object).captured.get field with
    | none => rfl
    | some value => rfl
  · rw [candidatesFor_eq_nil hkey]
    exact Option.or_none

/-- The promotion leaves the trace context as it is. -/
theorem promoteTrace_trace_eq (hsorted : OrdMap.Sorted (sourcesOf object).captured) :
    (promoteTrace (sourcesOf object)).trace = (sourcesOf object).captured :=
  OrdMap.ext_of_sorted (promoteTrace_sorted hsorted) hsorted h.captured_promoted

theorem addedConflicts_eq : addedConflicts object = [] := by
  refine List.eq_nil_iff_forall_not_mem.mpr fun item hitem => ?_
  obtain ⟨field, hdiffer, _⟩ := mem_promoteTrace_conflicts.mp hitem
  by_cases hkey : field ∈ traceAliases.map Prod.fst
  · obtain ⟨⟨field, aliases⟩, hentry, rfl⟩ := List.mem_map.mp hkey
    rw [h.candidatesFor_own hentry] at hdiffer
    revert hdiffer
    cases ((sourcesOf object).captured.get field).filter protocolValuePresent with
    | none => exact fun hdiffer => Bool.noConfusion hdiffer
    | some value => exact fun hdiffer => Bool.noConfusion hdiffer
  · rw [candidatesFor_eq_nil hkey] at hdiffer
    cases hdiffer

theorem requestId_eq {field header : String} (hfield : field ∈ promotedKeys) :
    requestId object field header = ⟨none, none, none⟩ := by
  have hnone : ∀ side ∈ ["requestHeaders", "responseHeaders"],
      headerOf object side header = none := by
    intro side hside
    have hkey : side ∈ promotedKeys := by
      simp only [List.mem_cons, List.not_mem_nil, or_false] at hside
      rcases hside with rfl | rfl <;> decide
    rw [headerOf, h.objectAbsent hkey]
    rfl
  rw [requestId, hnone _ (by simp), hnone _ (by simp), JsonMap.filled?, JsonMap.str?,
    h.absent field hfield]
  rfl

theorem promotedId_eq {field header : String} (hfield : field ∈ promotedKeys) :
    promotedId object field header = none := by
  rw [promotedId, h.requestId_eq hfield]
  exact h.absent field hfield

/-- The evidence is that of the trace context alone. -/
theorem addedEvidence_eq :
    addedEvidence object = (promoteTrace (sourcesOf object)).evidence := by
  have hid : ∀ field ∈ promotedKeys, ∀ header producer,
      idEvidence object field header producer = [] := by
    intro field hfield header producer
    rw [idEvidence, h.requestId_eq hfield]
    cases (evidenceFields object).contains field <;> rfl
  rw [addedEvidence, hid _ (by decide), hid _ (by decide), List.append_nil, List.append_nil]

theorem recordedItems_eq {field : String} (hfield : field ∈ promotedKeys) :
    recordedItems object field = [] := by
  rw [recordedItems, JsonMap.array?, h.absent field hfield]
  rfl

end Bare

end ChipTrace
