/-
Which conflicts between the identity candidates of an envelope are recorded, and
whether the evidence marks the value that the trace context keeps.
-/
import ChipTrace.Capture.Idempotence
import Mathlib.Data.Finset.Card

namespace ChipTrace

section Candidates

/-- Two of the candidates have different values. -/
def Conflicting (candidates : List FieldCandidate) : Prop :=
  ∃ left ∈ candidates, ∃ right ∈ candidates, left.value ≠ right.value

theorem one_lt_length_dedup {α : Type} [DecidableEq α] (items : List α) :
    1 < items.dedup.length ↔ ∃ left ∈ items, ∃ right ∈ items, left ≠ right := by
  rw [← List.card_toFinset, Finset.one_lt_card]
  simp only [List.mem_toFinset]

theorem valuesDiffer_iff {candidates : List FieldCandidate}
    (h : ∀ candidate ∈ candidates, IsScalar candidate.value) :
    valuesDiffer candidates = true ↔ Conflicting candidates := by
  rw [valuesDiffer, decide_eq_true_eq, one_lt_length_dedup]
  constructor
  · rintro ⟨_, hleft, _, hright, hne⟩
    obtain ⟨left, hleftMem, rfl⟩ := List.mem_map.mp hleft
    obtain ⟨right, hrightMem, rfl⟩ := List.mem_map.mp hright
    exact ⟨left, hleftMem, right, hrightMem, fun hsame => hne (congrArg jsonBytes hsame)⟩
  · rintro ⟨left, hleft, right, hright, hne⟩
    refine ⟨_, List.mem_map_of_mem hleft, _, List.mem_map_of_mem hright, fun hsame => hne ?_⟩
    exact jsonBytes_injective ((h left hleft).within 0).1 ((h right hright).within 0).1 hsame

theorem Conflicting.mono {candidates others : List FieldCandidate}
    (h : Conflicting candidates) (hsubset : candidates ⊆ others) : Conflicting others := by
  obtain ⟨left, hleft, right, hright, hne⟩ := h
  exact ⟨left, hsubset hleft, right, hsubset hright, hne⟩

end Candidates

namespace CandidateSources

variable (sources : CandidateSources) (field : String) (aliases : List String)

/-- Every present candidate of a field, whatever the evidence already says about it. -/
def presentCandidates : List FieldCandidate :=
  (objectCandidates sources.captured aliases "capture.traceContext" "capture_producer"
      "producer_asserted" ++ sources.observedCandidates field aliases).filter fun candidate =>
    protocolValuePresent candidate.value

/-- The value that the trace context has after the promotion. -/
def keptValue : Option Json :=
  (sources.captured.get field).or ((sources.candidatesFor field).head?.map (·.value))

end CandidateSources

section Records

/-- An item of the evidence or of its conflicts that speaks about the field. -/
def SpeaksOf (field : String) (item : Json) : Prop :=
  item.get? "field" = some (.str (traceField field))

def ListsConflict (conflicts : List Json) (field : String) : Prop :=
  ∃ item ∈ conflicts, SpeaksOf field item

/-- The item is marked as selected exactly when its value is the one that was kept. -/
def MarksKept (kept : Option Json) (item : Json) : Prop :=
  item.get? "selected" = some (.bool true) ↔
    ∃ value, kept = some value ∧ item.get? "value" = some value

/-- The stored form lists the conflict of a field, and its evidence marks the value that
its trace context has. -/
structure FieldRecorded (sources : CandidateSources) (stored : JsonMap) (field : String)
    (aliases : List String) : Prop where
  listed : Conflicting (sources.presentCandidates field aliases) →
    ListsConflict (recordedItems stored "fieldEvidenceConflicts") field
  marked : ∀ item ∈ recordedItems stored "fieldEvidence", SpeaksOf field item →
    MarksKept (((stored.object? "traceContext").getD []).get field) item

/-- What an envelope has to be like for that. Evidence takes the trace context out of the
comparison, the marks of earlier evidence stay as they are, and a value that does not
count as present is kept although the first candidate is selected. -/
structure FieldPlain (sources : CandidateSources) (evidence conflicts : List Json)
    (field : String) (aliases : List String) : Prop where
  compared : sources.evidenced.contains (traceField field) = true →
    Conflicting (sources.presentCandidates field aliases) →
      ListsConflict conflicts field ∨ Conflicting (sources.observedCandidates field aliases)
  marked : ∀ item ∈ evidence, SpeaksOf field item → MarksKept (sources.keptValue field) item
  filled : ∀ value ∈ sources.captured.get field, protocolValuePresent value = false →
    ∀ candidate ∈ (sources.candidatesFor field).head?, candidate.value = value

end Records

section Bodies

variable {bodies : JsonMap} {field : String} {aliases : List String}

theorem mem_mergedItems_iff {recorded added : List Json}
    (hwf : ∀ item ∈ recorded ++ added, item.WellFormed) {item : Json} :
    item ∈ mergedItems recorded added ↔ item ∈ recorded ++ added := by
  constructor
  · exact fun h => (mem_of_mem_keepFirstFrom h)
  · intro h
    obtain ⟨other, hother, hsame⟩ :=
      List.mem_map.mp ((mem_mergedItems hwf (hwf item h)).mpr h)
    have hwfOther := hwf other (mem_of_mem_keepFirstFrom hother)
    exact jsonBytes_injective hwfOther (hwf item h) hsame ▸ hother

theorem requestIdEvidence_silent {object : JsonMap} {name header producer : String}
    (hname : name.toList.head? ≠ some 't') {item : Json}
    (h : item ∈ idEvidence object name header producer) : ¬ SpeaksOf field item := by
  intro hspeaks
  rw [SpeaksOf, (requestIdEvidence_mem h).1, Option.some.injEq, Json.str.injEq] at hspeaks
  exact traceField_ne field hname hspeaks.symm

/-- What the promotion adds to the evidence of a field. -/
theorem mem_addedEvidence_speaks {item : Json} (hspeaks : SpeaksOf field item) :
    item ∈ addedEvidence bodies ↔ ∃ candidate ∈ (sourcesOf bodies).candidatesFor field,
      item = evidenceItem field (selectedValue (sourcesOf bodies).captured field
        ((sourcesOf bodies).candidatesFor field)) candidate := by
  constructor
  · intro h
    simp only [addedEvidence, List.mem_append] at h
    rcases h with (htrace | hrequest) | hupstream
    · obtain ⟨other, candidate, hcandidate, rfl⟩ := mem_promoteTrace_evidence.mp htrace
      rw [SpeaksOf, evidenceItem_field, Option.some.injEq, Json.str.injEq] at hspeaks
      cases traceField_injective hspeaks
      exact ⟨candidate, hcandidate, rfl⟩
    · exact absurd hspeaks (requestIdEvidence_silent (by decide) hrequest)
    · exact absurd hspeaks (requestIdEvidence_silent (by decide) hupstream)
  · rintro ⟨candidate, hcandidate, rfl⟩
    exact List.mem_append_left _ (List.mem_append_left _
      (mem_promoteTrace_evidence.mpr ⟨field, candidate, hcandidate, rfl⟩))

/-- The promotion lists the conflict of a field when its candidates differ. -/
theorem addedConflicts_lists :
    ListsConflict (addedConflicts bodies) field ↔
      valuesDiffer ((sourcesOf bodies).candidatesFor field) = true := by
  constructor
  · rintro ⟨item, hitem, hspeaks⟩
    obtain ⟨other, hdiffer, rfl⟩ := mem_promoteTrace_conflicts.mp hitem
    rw [SpeaksOf, conflictItem_field, Option.some.injEq, Json.str.injEq] at hspeaks
    cases traceField_injective hspeaks
    exact hdiffer
  · intro hdiffer
    exact ⟨_, mem_promoteTrace_conflicts.mpr ⟨field, hdiffer, rfl⟩, conflictItem_field⟩

theorem storedForm_keeps :
    (((storedForm bodies).object? "traceContext").getD []).get field =
      (sourcesOf bodies).keptValue field := by
  have hget : (storedForm bodies).get "traceContext" =
      some (.obj (promoteTrace (sourcesOf bodies)).trace) := by
    rw [storedForm_promoted (by simp), promoteProtocolFields_traceContext]
  rw [object?_of_get hget, Option.getD_some, promoteTrace_trace,
    CandidateSources.keptValue]

theorem recordedItems_conflicts :
    recordedItems (storedForm bodies) "fieldEvidenceConflicts" =
      mergedItems (recordedItems bodies "fieldEvidenceConflicts") (addedConflicts bodies) := by
  rw [recordedItems, JsonMap.array?, storedForm_promoted (by simp),
    promoteProtocolFields_conflicts]
  rfl

/-- The mark of a new item is that of the selected value. -/
theorem evidenceItem_marksKept {kept selected : Option Json} {candidate : FieldCandidate} :
    MarksKept kept (evidenceItem field selected candidate) ↔
      (selected = some candidate.value ↔ kept = some candidate.value) := by
  rw [MarksKept, evidenceItem_selected, evidenceItem_value]
  simp only [Option.some.injEq, Json.bool.injEq, beq_iff_eq]
  refine iff_congr Iff.rfl ?_
  constructor
  · rintro ⟨value, hkept, rfl⟩
    exact hkept
  · exact fun hkept => ⟨_, hkept, rfl⟩

/-- The new items mark the kept value exactly when it is the selected one, or when there
are none. -/
theorem selected_iff_kept {sources : CandidateSources} :
    (∀ candidate ∈ sources.candidatesFor field,
      (selectedValue sources.captured field (sources.candidatesFor field) =
        some candidate.value ↔ sources.keptValue field = some candidate.value)) ↔
      ∀ value ∈ sources.captured.get field, protocolValuePresent value = false →
        ∀ candidate ∈ (sources.candidatesFor field).head?, candidate.value = value := by
  rw [selectedValue, CandidateSources.keptValue]
  cases hcaptured : sources.captured.get field with
  | none => simp
  | some value =>
      cases hpresent : protocolValuePresent value with
      | true => simp [Option.filter, hpresent]
      | false =>
          cases hcandidates : sources.candidatesFor field with
          | nil => simp
          | cons first rest =>
              simp only [Option.filter, hpresent, Bool.false_eq_true, if_false, Option.none_or,
                List.head?_cons, Option.map_some, Option.some_or, Option.some.injEq,
                Option.mem_def, forall_eq', forall_const]
              constructor
              · intro h
                exact ((h first List.mem_cons_self).mp rfl).symm
              · intro h candidate _
                rw [h]

variable (hwf : (Json.obj bodies).WellFormed) (hfield : (field, aliases) ∈ traceAliases)

include hwf in
theorem storedForm_lists :
    ListsConflict (recordedItems (storedForm bodies) "fieldEvidenceConflicts") field ↔
      ListsConflict (recordedItems bodies "fieldEvidenceConflicts") field ∨
        Conflicting ((sourcesOf bodies).candidatesFor field) := by
  rw [← valuesDiffer_iff fun candidate hcandidate => candidatesFor_scalar hcandidate,
    ← addedConflicts_lists, recordedItems_conflicts, ListsConflict]
  simp only [mem_mergedItems_iff (conflicts_wellFormed hwf), List.mem_append, or_and_right,
    exists_or]
  rfl

include hwf in
theorem storedForm_marks :
    (∀ item ∈ recordedItems (storedForm bodies) "fieldEvidence", SpeaksOf field item →
      MarksKept ((sourcesOf bodies).keptValue field) item) ↔
      (∀ item ∈ recordedItems bodies "fieldEvidence", SpeaksOf field item →
        MarksKept ((sourcesOf bodies).keptValue field) item) ∧
      ∀ candidate ∈ (sourcesOf bodies).candidatesFor field,
        (selectedValue (sourcesOf bodies).captured field ((sourcesOf bodies).candidatesFor field) =
          some candidate.value ↔
            (sourcesOf bodies).keptValue field = some candidate.value) := by
  rw [recordedItems_storedForm]
  simp only [mem_mergedItems_iff (evidence_wellFormed hwf), List.mem_append]
  constructor
  · intro h
    refine ⟨fun item hitem => h item (Or.inl hitem), fun candidate hcandidate => ?_⟩
    have hspeaks : SpeaksOf field (evidenceItem field (selectedValue (sourcesOf bodies).captured
        field ((sourcesOf bodies).candidatesFor field)) candidate) := evidenceItem_field
    exact evidenceItem_marksKept.mp (h _ (Or.inr ((mem_addedEvidence_speaks hspeaks).mpr
      ⟨candidate, hcandidate, rfl⟩)) hspeaks)
  · rintro ⟨hrecorded, hnew⟩ item (hitem | hitem) hspeaks
    · exact hrecorded item hitem hspeaks
    · obtain ⟨candidate, hcandidate, rfl⟩ := (mem_addedEvidence_speaks hspeaks).mp hitem
      exact evidenceItem_marksKept.mpr (hnew candidate hcandidate)

include hfield in
/-- Without evidence all present candidates are compared, with evidence only those
outside the trace context. -/
theorem candidatesFor_compares {sources : CandidateSources} {listed : Prop} :
    (Conflicting (sources.presentCandidates field aliases) →
        listed ∨ Conflicting (sources.candidatesFor field)) ↔
      (sources.evidenced.contains (traceField field) = true →
        Conflicting (sources.presentCandidates field aliases) →
          listed ∨ Conflicting (sources.observedCandidates field aliases)) := by
  rw [candidatesFor_eq hfield, CandidateSources.capturedCandidates]
  by_cases hevidenced : sources.evidenced.contains (traceField field) = true
  · rw [if_pos hevidenced, List.nil_append]
    exact ⟨fun h _ => h, fun h => h hevidenced⟩
  · rw [if_neg hevidenced]
    constructor
    · exact fun _ habsurd => absurd habsurd hevidenced
    · exact fun _ h => Or.inr (h.mono fun _ hcandidate => (List.mem_filter.mp hcandidate).1)

include hwf hfield in
theorem fieldRecorded_bodies_iff :
    FieldRecorded (sourcesOf bodies) (storedForm bodies) field aliases ↔
      FieldPlain (sourcesOf bodies) (recordedItems bodies "fieldEvidence")
        (recordedItems bodies "fieldEvidenceConflicts") field aliases := by
  constructor
  · rintro ⟨hlisted, hmarked⟩
    rw [storedForm_lists hwf] at hlisted
    rw [storedForm_keeps, storedForm_marks hwf, selected_iff_kept] at hmarked
    exact ⟨(candidatesFor_compares hfield).mp hlisted, hmarked.1, hmarked.2⟩
  · rintro ⟨hcompared, hmarked, hfilled⟩
    refine ⟨?_, ?_⟩
    · rw [storedForm_lists hwf]
      exact (candidatesFor_compares hfield).mpr hcompared
    · rw [storedForm_keeps, storedForm_marks hwf, selected_iff_kept]
      exact ⟨hmarked, hfilled⟩

end Bodies

section Envelope

variable {sha256 : Bytes → String} {raw : Bytes} {maxBytes : Nat} {record : CaptureRecord}
  {envelope bodies : JsonMap} {field : String} {aliases : List String}

/-- Two views of the same candidates are recorded alike. -/
theorem sources_alike {left right : CandidateSources} (hsame : SameObserved left right)
    (hcaptured : left.captured = right.captured) (hevidenced : left.evidenced = right.evidenced)
    (hfield : (field, aliases) ∈ traceAliases) :
    left.presentCandidates field aliases = right.presentCandidates field aliases ∧
      left.candidatesFor field = right.candidatesFor field ∧
      left.keptValue field = right.keptValue field := by
  have hobserved := hsame.observedCandidates hfield
  have hcandidates : left.candidatesFor field = right.candidatesFor field := by
    rw [candidatesFor_eq hfield, candidatesFor_eq hfield, hobserved,
      CandidateSources.capturedCandidates, hcaptured, hevidenced,
      CandidateSources.capturedCandidates]
  refine ⟨?_, hcandidates, ?_⟩
  · rw [CandidateSources.presentCandidates, hcaptured, hobserved,
      CandidateSources.presentCandidates]
  · rw [CandidateSources.keptValue, hcaptured, hcandidates, CandidateSources.keptValue]

/-- The record stores a form of the envelope that lists every conflict between the
present candidates of an identity field and marks the kept value. -/
def IdentitiesRecorded (raw : Bytes) (record : CaptureRecord) : Prop :=
  ∃ envelope stored, readEnvelope raw = .ok envelope ∧ (Json.obj stored).WellFormed ∧
    record.canonical = jsonBytes (.obj stored) ∧
    ∀ field aliases, (field, aliases) ∈ traceAliases →
      FieldRecorded (sourcesWith envelope (envelopeRequest envelope)) stored field aliases

/-- What was read is plain in every identity field. -/
def PlainIdentities (raw : Bytes) : Prop :=
  ∃ envelope, readEnvelope raw = .ok envelope ∧
    ∀ field aliases, (field, aliases) ∈ traceAliases →
      FieldPlain (sourcesWith envelope (envelopeRequest envelope))
        (recordedItems envelope "fieldEvidence")
        (recordedItems envelope "fieldEvidenceConflicts") field aliases

theorem Normalized.fieldRecorded_iff (h : Normalized sha256 raw record envelope bodies)
    (hfield : (field, aliases) ∈ traceAliases) :
    FieldRecorded (sourcesWith envelope (envelopeRequest envelope)) (storedForm bodies) field
        aliases ↔
      FieldPlain (sourcesWith envelope (envelopeRequest envelope))
        (recordedItems envelope "fieldEvidence")
        (recordedItems envelope "fieldEvidenceConflicts") field aliases := by
  have hwithin := readEnvelope_within h.read
  have hnormalized := h.stages.normalized (envelope_sorted hwithin)
  obtain ⟨hsame, hcaptured, hevidenced⟩ := sameSources_bodies hnormalized
  obtain ⟨hpresent, hcandidates, hkept⟩ := sources_alike hsame hcaptured hevidenced hfield
  have hitems : ∀ name ∈ ["fieldEvidence", "fieldEvidenceConflicts"],
      recordedItems envelope name = recordedItems bodies name := by
    intro name hname
    have hframe : bodies.get name = (withRecordType envelope).get name := by
      apply hnormalized.frame
      revert name
      decide
    rw [recordedItems, recordedItems, JsonMap.array?, JsonMap.array?, hframe, withRecordType,
      JsonMap.get_orInsert_of_ne]
    rintro rfl
    revert hname
    decide
  have hbodies := fieldRecorded_bodies_iff (h.stages.bodies_within hwithin).1 hfield
  constructor
  · rintro ⟨hlisted, hmarked⟩
    obtain ⟨hcompared, hmarks, hfilled⟩ := hbodies.mp ⟨hpresent ▸ hlisted, hmarked⟩
    refine ⟨?_, ?_, ?_⟩
    · rw [hevidenced, hpresent, hsame.observedCandidates hfield, hitems _ (by simp)]
      exact hcompared
    · rw [hkept, hitems _ (by simp)]
      exact hmarks
    · rw [hcaptured, hcandidates]
      exact hfilled
  · rintro ⟨hcompared, hmarks, hfilled⟩
    rw [hevidenced, hpresent, hsame.observedCandidates hfield, hitems _ (by simp)] at hcompared
    rw [hkept, hitems _ (by simp)] at hmarks
    rw [hcaptured, hcandidates] at hfilled
    obtain ⟨hlisted, hmarked⟩ := hbodies.mpr ⟨hcompared, hmarks, hfilled⟩
    exact ⟨hpresent ▸ hlisted, hmarked⟩

/-- Without evidence of its own every envelope whose trace context holds only values that
count as present is plain. -/
theorem plainIdentities_of_bare (hread : readEnvelope raw = .ok envelope)
    (hbare : recordedItems envelope "fieldEvidence" = [])
    (hpresent : ∀ entry ∈ traceAliases, (((envelope.object? "traceContext").getD []).get
      entry.1).all protocolValuePresent = true) : PlainIdentities raw := by
  refine ⟨envelope, hread, fun field aliases hfield => ⟨?_, ?_, ?_⟩⟩
  · intro hevidenced
    have hnone : (sourcesWith envelope (envelopeRequest envelope)).evidenced = [] := by
      change (recordedItems envelope "fieldEvidence").filterMap _ = []
      rw [hbare]
      rfl
    rw [hnone] at hevidenced
    cases hevidenced
  · rw [hbare]
    intro item hitem
    cases hitem
  · intro value hvalue habsent
    have hfilled := hpresent _ hfield
    change value ∈ ((envelope.object? "traceContext").getD []).get field at hvalue
    rw [Option.mem_def] at hvalue
    rw [hvalue, Option.all_some, habsent] at hfilled
    cases hfilled

end Envelope

section Examples

/-- A capture of a producer that recorded where its trace context comes from, next to
another session identifier. -/
def evidencedEnvelope : JsonMap :=
  [("captureId", .str "cap-a"),
    ("fieldEvidence", .arr [Json.mkObj [("authority", .str "protocol_observed"),
      ("field", .str "traceContext.session_id"), ("producer", .str "stock_codex"),
      ("selected", .bool true), ("source", .str "requestHeaders.session_id"),
      ("value", .str "captured")]]),
    ("session_id", .str "body"),
    ("traceContext", .obj [("session_id", .str "captured")]),
    ("version", .str "chiptrace.capture.v2")]

/-- The same capture without the evidence. -/
def unevidencedEnvelope : JsonMap :=
  [("captureId", .str "cap-a"), ("session_id", .str "body"),
    ("traceContext", .obj [("session_id", .str "captured")]),
    ("version", .str "chiptrace.capture.v2")]

/-- The digests of the stored forms of the two captures. -/
def evidencedSha256 : Bytes → String :=
  fun _ => "80d10780ae8cdeb89f65b9a9df250d6001acffde02ec905d87b21eceb72f7020"

def unevidencedSha256 : Bytes → String :=
  fun _ => "ebb3095777b37464853c541210a003ece4b4282cbc6c4d91ec97084357ca242e"

/-- Both captures pass every check. -/
theorem exampleEnvelopes_checked :
    (normalizeEnvelope evidencedSha256 true evidencedEnvelope).isOk = true ∧
      (normalizeEnvelope unevidencedSha256 true unevidencedEnvelope).isOk = true := by
  decide +kernel

theorem evidencedEnvelope_wellFormed : (Json.obj evidencedEnvelope).WellFormed := by
  have hbuilt : (Json.mkObj evidencedEnvelope).WellFormed := Json.mkObj_wellFormed (by
    simp [evidencedEnvelope, Json.WellFormed, Json.WellFormedFields, Json.WellFormedItems,
      OrdMap.Sorted, Json.mkObj_wellFormed])
  exact hbuilt

theorem unevidencedEnvelope_wellFormed : (Json.obj unevidencedEnvelope).WellFormed := by
  have hbuilt : (Json.mkObj unevidencedEnvelope).WellFormed := Json.mkObj_wellFormed (by
    simp [unevidencedEnvelope, Json.WellFormed, Json.WellFormedFields, OrdMap.Sorted])
  exact hbuilt

end Examples

end ChipTrace
