/-
A stored form that the reader takes back is accepted again: a second promotion changes nothing but
the recorded evidence, and what it records is evidence as the first one recorded it.
-/
import Mathlib.Data.List.Dedup
import ChipTrace.Capture.Idempotence

namespace ChipTrace

section Items

variable {field : String} {selected : Option Json} {candidate : FieldCandidate}

/-- What is asked of an evidence item. -/
structure EvidenceOk (item : JsonMap) : Prop where
  field : (item.filled? "field").isNone = false
  present : ∀ required ∈ ["value", "source", "producer", "authority"],
    item.containsKey required = true
  filled : ∀ required ∈ ["source", "producer", "authority"],
    (item.filled? required).isNone = false
  selected : ((item.get "selected").any fun value => !value.isBoolean) = false

theorem validateEvidenceItem_ok_iff {item : JsonMap} {index : Nat} :
    validateEvidenceItem "fieldEvidence" (.obj item) index = .ok () ↔ EvidenceOk item := by
  simp only [validateEvidenceItem, requireFilled, Except.bind_eq_ok_iff, okOr_eq_ok,
    Json.asObject, Option.some.injEq, beq_self_eq_true, if_true]
  constructor
  · rintro ⟨_, rfl, _, hfield, _, hpresent, _, hfilled, hselected⟩
    refine ⟨bailIf_eq_ok.mp hfield, fun required hrequired => ?_, fun required hrequired => ?_,
      bailIf_eq_ok.mp hselected⟩
    · have hcheck := bailIf_eq_ok.mp (List.forM_eq_ok_iff.mp hpresent required hrequired)
      rwa [Bool.not_eq_false'] at hcheck
    · exact bailIf_eq_ok.mp (List.forM_eq_ok_iff.mp hfilled required hrequired)
  · rintro ⟨hfield, hpresent, hfilled, hselected⟩
    refine ⟨item, rfl, (), bailIf_eq_ok.mpr hfield, (),
      List.forM_eq_ok_iff.mpr fun required hrequired => ?_, (),
      List.forM_eq_ok_iff.mpr fun required hrequired => bailIf_eq_ok.mpr ?_,
      bailIf_eq_ok.mpr hselected⟩
    · rw [bailIf_eq_ok, hpresent required hrequired]
      rfl
    · exact hfilled required hrequired

/-- A conflict has a field and two candidates. -/
theorem validateConflictItem_ok_iff {name : String} (hname : name ≠ "fieldEvidence")
    {item : JsonMap} {index : Nat} :
    validateEvidenceItem name (.obj item) index = .ok () ↔
      (item.filled? "field").isNone = false ∧
        ((item.array? "evidence").all fun evidence => evidence.length < 2) = false := by
  simp only [validateEvidenceItem, requireFilled, Except.bind_eq_ok_iff, okOr_eq_ok,
    Json.asObject, Option.some.injEq, beq_eq_false_iff_ne.mpr hname]
  constructor
  · rintro ⟨_, rfl, _, hfield, hevidence⟩
    exact ⟨bailIf_eq_ok.mp hfield, bailIf_eq_ok.mp hevidence⟩
  · rintro ⟨hfield, hevidence⟩
    exact ⟨item, rfl, (), bailIf_eq_ok.mpr hfield, bailIf_eq_ok.mpr hevidence⟩

/-- The fields of an evidence item before its selection. -/
def assertionFields (field : String) (candidate : FieldCandidate) : JsonMap :=
  Json.mkFields [("value", candidate.value), ("source", .str candidate.source),
    ("producer", .str candidate.producer), ("authority", .str candidate.authority),
    ("field", .str (traceField field))]

theorem evidenceItem_eq : evidenceItem field selected candidate =
    .obj ((assertionFields field candidate).insert "selected"
      (.bool (selected == some candidate.value))) := rfl

/-- An item is valid whichever value was selected. -/
theorem evidenceOk_selected {other : Option Json}
    (h : EvidenceOk ((assertionFields field candidate).insert "selected"
      (.bool (selected == some candidate.value)))) :
    EvidenceOk ((assertionFields field candidate).insert "selected"
      (.bool (other == some candidate.value))) := by
  have hget : ∀ key, key ≠ "selected" →
      ((assertionFields field candidate).insert "selected"
        (.bool (other == some candidate.value))).get key =
      ((assertionFields field candidate).insert "selected"
        (.bool (selected == some candidate.value))).get key := fun key hkey => by
    rw [JsonMap.get_insert_of_ne hkey, JsonMap.get_insert_of_ne hkey]
  refine ⟨?_, fun required hrequired => ?_, fun required hrequired => ?_, ?_⟩
  · rw [filled?_congr (hget _ (by decide))]
    exact h.field
  · rw [JsonMap.containsKey, hget _ (by revert required; decide)]
    exact h.present required hrequired
  · rw [filled?_congr (hget _ (by revert required; decide))]
    exact h.filled required hrequired
  · rw [JsonMap.get_insert_self]
    rfl

def conflictFields (field : String) (candidates : List FieldCandidate) : JsonMap :=
  Json.mkFields [("field", .str (traceField field)),
    ("evidence", .arr (candidates.map fieldCandidateJson))]

theorem conflictItem_eq (candidates : List FieldCandidate) :
    conflictItem field candidates = .obj (conflictFields field candidates) := rfl

/-- A conflict of candidates names the field as their evidence does. -/
theorem EvidenceOk.conflictField (h : EvidenceOk ((assertionFields field candidate).insert
    "selected" (.bool (selected == some candidate.value)))) (candidates : List FieldCandidate) :
    ((conflictFields field candidates).filled? "field").isNone = false := by
  have hsame : (conflictFields field candidates).get "field" =
      ((assertionFields field candidate).insert "selected"
        (.bool (selected == some candidate.value))).get "field" :=
    conflictItem_field.trans evidenceItem_field.symm
  rw [filled?_congr hsame]
  exact h.field

end Items

section Again

variable {sha256 : Bytes → String} {enforced : Bool} {envelope bodies : JsonMap}
  {captureId : String}

theorem promote_storedForm_get (hwf : (Json.obj bodies).WellFormed)
    (hsorted : OrdMap.Sorted (storedForm bodies)) {key : String}
    (hkey : key ∉ ["fieldEvidence", "fieldEvidenceConflicts"]) :
    (promoteProtocolFields (storedForm bodies)).get key = (storedForm bodies).get key := by
  simp only [List.mem_cons, List.not_mem_nil, or_false, not_or] at hkey
  have hpromotable := storedForm_promotable hwf hsorted
  rw [promoteProtocolFields_eq, hpromotable.identifiedEnvelope_eq]
  by_cases hstage : key = "captureStage"
  · subst hstage
    rw [JsonMap.get_orInsert, if_pos rfl, JsonMap.get_insert_of_ne (by decide),
      JsonMap.get_insert_of_ne (by decide)]
    obtain ⟨stage, hget⟩ := Option.isSome_iff_exists.mp hpromotable.captureStage
    rw [hget]
    rfl
  · rw [JsonMap.get_orInsert_of_ne hstage, JsonMap.get_insert_of_ne hkey.2,
      JsonMap.get_insert_of_ne hkey.1]

/-- The evidence of a valid envelope is valid item by item. -/
theorem validateFieldEvidence_ok_iff {object : JsonMap} {evidence conflicts : List Json}
    (hevidence : object.get "fieldEvidence" = some (.arr evidence))
    (hconflicts : object.get "fieldEvidenceConflicts" = some (.arr conflicts)) :
    validateFieldEvidence object = .ok () ↔
      (∀ item ∈ evidence.zipIdx,
        validateEvidenceItem "fieldEvidence" item.1 item.2 = .ok ()) ∧
      ∀ item ∈ conflicts.zipIdx,
        validateEvidenceItem "fieldEvidenceConflicts" item.1 item.2 = .ok () := by
  rw [validateFieldEvidence, List.forM_eq_ok_iff]
  simp only [List.forall_mem_cons, List.not_mem_nil, false_implies, implies_true, and_true,
    hevidence, hconflicts, Except.bind_eq_ok_iff, okOr_eq_ok, Json.asArray, Option.some.injEq,
    exists_eq_left', List.forM_eq_ok_iff]

theorem validateEvidenceItem_index {name : String} {item : Json} {index other : Nat}
    (h : validateEvidenceItem name item index = .ok ()) :
    validateEvidenceItem name item other = .ok () := by
  cases item with
  | obj fields =>
      by_cases hname : name = "fieldEvidence"
      · subst hname
        rw [validateEvidenceItem_ok_iff] at h ⊢
        exact h
      · rw [validateConflictItem_ok_iff hname] at h ⊢
        exact h
  | null | bool _ | num _ | str _ | arr _ =>
      obtain ⟨_, hobject, _⟩ := Except.bind_eq_ok_iff.mp h
      cases okOr_eq_ok.mp hobject

variable (hwithin : Json.Within 127 (.obj envelope))
  (h : EnvelopeStages sha256 enforced envelope captureId bodies)
include hwithin h

/-- The recorded evidence of the stored form is valid. -/
theorem EnvelopeStages.recorded_ok :
    (∀ item ∈ recordedItems bodies "fieldEvidence" ++ addedEvidence bodies, ∀ index,
      validateEvidenceItem "fieldEvidence" item index = .ok ()) ∧
    ∀ item ∈ mergedItems (recordedItems bodies "fieldEvidenceConflicts") (addedConflicts bodies),
      ∀ index, validateEvidenceItem "fieldEvidenceConflicts" item index = .ok () := by
  have hwf := (h.bodies_within hwithin).1
  have hpromotable := storedForm_promotable hwf (h.stored_sorted hwithin)
  have hchecked := h.storedPromoted
  simp only [checkPromoted, Except.bind_eq_ok_iff] at hchecked
  obtain ⟨_, _, _, _, _, hfields, _⟩ := hchecked
  rw [validateFieldEvidence_ok_iff hpromotable.fieldEvidence
    hpromotable.fieldEvidenceConflicts] at hfields
  constructor
  · intro item hitem index
    rw [← mem_storedEvidence hwf] at hitem
    obtain ⟨position, hposition, rfl⟩ := List.getElem_of_mem hitem
    exact validateEvidenceItem_index (hfields.1 (_, position)
      (List.mk_mem_zipIdx_iff_getElem?.mpr (List.getElem?_eq_getElem hposition)))
  · intro item hitem index
    obtain ⟨position, hposition, rfl⟩ := List.getElem_of_mem hitem
    exact validateEvidenceItem_index (hfields.2 (_, position)
      (List.mk_mem_zipIdx_iff_getElem?.mpr (List.getElem?_eq_getElem hposition)))

/-- The candidates of the second promotion were candidates of the first one. -/
theorem EnvelopeStages.candidate_ok {field : String} {candidate : FieldCandidate}
    (hcandidate : candidate ∈ (sourcesOf (storedForm bodies)).candidatesFor field)
    (selected : Option Json) :
    EvidenceOk ((assertionFields field candidate).insert "selected"
      (.bool (selected == some candidate.value))) := by
  have hwf := (h.bodies_within hwithin).1
  have hfirst : candidate ∈ (sourcesOf bodies).candidatesFor field := by
    by_cases hfield : field ∈ traceAliases.map Prod.fst
    · obtain ⟨⟨name, aliases⟩, hmem, rfl⟩ := List.mem_map.mp hfield
      rw [candidatesFor_storedForm hwf hmem] at hcandidate
      rw [candidatesFor_eq hmem]
      exact List.mem_append_right _ hcandidate
    · rw [candidatesFor_eq_nil hfield] at hcandidate
      cases hcandidate
  have hadded : evidenceItem field (selectedValue (sourcesOf bodies).captured field
      ((sourcesOf bodies).candidatesFor field)) candidate ∈ addedEvidence bodies :=
    List.mem_append_left _ (List.mem_append_left _
      (mem_promoteTrace_evidence.mpr ⟨field, candidate, hfirst, rfl⟩))
  have hvalid := (h.recorded_ok hwithin).1 _ (List.mem_append_right _ hadded) 0
  rw [evidenceItem_eq, validateEvidenceItem_ok_iff] at hvalid
  exact evidenceOk_selected hvalid

theorem EnvelopeStages.addedEvidence_ok {item : Json}
    (hitem : item ∈ addedEvidence (storedForm bodies)) (index : Nat) :
    validateEvidenceItem "fieldEvidence" item index = .ok () := by
  have hwf := (h.bodies_within hwithin).1
  have hrequestId : (storedForm bodies).get "requestId" =
      promotedId bodies "requestId" "x-client-request-id" := by
    rw [storedForm_promoted (by simp), promoteProtocolFields_requestId]
  have hupstream : (storedForm bodies).get "upstreamRequestId" =
      promotedId bodies "upstreamRequestId" "x-request-id" := by
    rw [storedForm_promoted (by simp), promoteProtocolFields_upstreamRequestId]
  simp only [addedEvidence, List.mem_append] at hitem
  rcases hitem with (htrace | hrequest) | hsecond
  · obtain ⟨field, candidate, hcandidate, rfl⟩ := mem_promoteTrace_evidence.mp htrace
    rw [evidenceItem_eq, validateEvidenceItem_ok_iff]
    exact h.candidate_ok hwithin hcandidate _
  · have hold := idEvidence_storedForm hwf hrequestId (by decide)
      (fun item hitem => List.mem_append_left _ (List.mem_append_right _ hitem)) item hrequest
    exact (h.recorded_ok hwithin).1 item (List.mem_append_right _
      (List.mem_append_left _ (List.mem_append_right _ hold))) index
  · have hold := idEvidence_storedForm hwf hupstream (by decide)
      (fun item hitem => List.mem_append_right _ hitem) item hsecond
    exact (h.recorded_ok hwithin).1 item (List.mem_append_right _
      (List.mem_append_right _ hold)) index

theorem EnvelopeStages.addedConflict_ok {item : Json}
    (hitem : item ∈ addedConflicts (storedForm bodies)) (index : Nat) :
    validateEvidenceItem "fieldEvidenceConflicts" item index = .ok () := by
  obtain ⟨field, hdiffer, rfl⟩ := mem_promoteTrace_conflicts.mp hitem
  obtain ⟨candidate, hcandidate⟩ := List.exists_mem_of_ne_nil _ (valuesDiffer_ne_nil hdiffer)
  rw [conflictItem_eq, validateConflictItem_ok_iff (by decide)]
  refine ⟨(h.candidate_ok hwithin hcandidate none).conflictField _, ?_⟩
  have hevidence : (conflictFields field
      ((sourcesOf (storedForm bodies)).candidatesFor field)).array? "evidence" =
        some (((sourcesOf (storedForm bodies)).candidatesFor field).map fieldCandidateJson) :=
    congrArg (Option.bind · Json.asArray) conflictItem_evidence
  have hdistinct : 1 < (((sourcesOf (storedForm bodies)).candidatesFor field).map
      fun candidate => jsonBytes candidate.value).dedup.length := by
    simpa [valuesDiffer] using hdiffer
  have hle := (List.dedup_sublist (((sourcesOf (storedForm bodies)).candidatesFor field).map
    fun candidate => jsonBytes candidate.value)).length_le
  rw [List.length_map] at hle
  rw [hevidence, Option.all_some, List.length_map]
  exact decide_eq_false (by omega)

/-- The promotion of the stored form passes the checks of a promoted envelope. -/
theorem EnvelopeStages.repromoted_ok :
    checkPromoted sha256 (promoteProtocolFields (storedForm bodies)) = .ok () := by
  have hwf := (h.bodies_within hwithin).1
  have hsorted := h.stored_sorted hwithin
  have hpromotable := storedForm_promotable hwf hsorted
  have hchecked := h.storedPromoted
  have hagree : ∀ keys : List String,
      (∀ key ∈ keys, key ∉ ["fieldEvidence", "fieldEvidenceConflicts"]) →
        AgreeOn keys (promoteProtocolFields (storedForm bodies)) (storedForm bodies) :=
    fun keys hkeys key hkey => promote_storedForm_get hwf hsorted (hkeys key hkey)
  have hheaders : ∀ side ∈ ["requestHeaders", "responseHeaders"],
      ∀ name ∈ ["x-client-request-id", "x-request-id"],
        headerOf (promoteProtocolFields (storedForm bodies)) side name =
          headerOf (storedForm bodies) side name := by
    intro side hside name _
    refine headerOf_congr (promote_storedForm_get hwf hsorted ?_)
    revert side
    decide
  simp only [checkPromoted, Except.bind_eq_ok_iff] at hchecked ⊢
  obtain ⟨_, htype, _, htrace, _, _, hgateway⟩ := hchecked
  refine ⟨(), ?_, (), ?_, (), ?_, ?_⟩
  · rw [validateRecordType_congr (hagree _ (by decide))]
    exact htype
  · rw [validateTraceContext_congr (hagree _ (by decide))]
    exact htrace
  · obtain ⟨hrecorded, hrecordedConflicts⟩ := hpromotable.recorded_eq
    rw [validateFieldEvidence_ok_iff (promoteProtocolFields_fieldEvidence _)
      (promoteProtocolFields_conflicts _), hrecorded, hrecordedConflicts]
    constructor
    · rintro ⟨item, index⟩ hitem
      have hmem := mem_of_mem_keepFirstFrom (List.fst_mem_of_mem_zipIdx hitem)
      rcases List.mem_append.mp hmem with hold | hnew
      · exact (h.recorded_ok hwithin).1 item ((mem_storedEvidence hwf).mp hold) index
      · exact h.addedEvidence_ok hwithin hnew index
    · rintro ⟨item, index⟩ hitem
      have hmem := mem_of_mem_keepFirstFrom (List.fst_mem_of_mem_zipIdx hitem)
      rcases List.mem_append.mp hmem with hold | hnew
      · exact (h.recorded_ok hwithin).2 item hold index
      · exact h.addedConflict_ok hwithin hnew index
  · rw [validateGatewayEvidence_congr (hagree _ (by decide)) hheaders]
    exact hgateway

/-- The stored form is normalised again, with its bodies as they are. -/
theorem EnvelopeStages.again :
    EnvelopeStages sha256 enforced (storedForm bodies) captureId (storedForm bodies) := by
  have hsorted := envelope_sorted hwithin
  have htype := h.recordType hsorted
  rw [withRecordType] at htype
  refine ⟨h.storedId hsorted, ?_, ?_, ?_, ?_, h.storedDelivery, h.repromoted_ok hwithin⟩
  · rw [htype]
    exact h.storedProducer hsorted
  · rw [htype]
    exact h.storedShape hsorted
  · rw [htype]
    exact h.storedParts hsorted
  · rw [htype]
    exact h.bodiesSettled hsorted

end Again

end ChipTrace
