/-
The stages of a normalisation, and what is left of them for the stored form: all of
its checks pass again, and only the promotion can change it.
-/
import ChipTrace.Capture.Evidence
import ChipTrace.Lib.Json.RoundTrip

namespace ChipTrace

variable {sha256 : Bytes → String}

/-- The stages of a normalised envelope, up to the envelope with settled bodies. -/
structure EnvelopeStages (sha256 : Bytes → String) (enforced : Bool) (envelope : JsonMap)
    (captureId : String) (bodies : JsonMap) : Prop where
  captureId : checkCaptureId envelope = .ok captureId
  producer : checkProducerContract enforced
    (envelope.orInsert "recordType" (.str "api_snapshot")) = .ok ()
  shape : checkShape (envelope.orInsert "recordType" (.str "api_snapshot")) = .ok ()
  parts : checkRecordParts sha256
    (envelope.orInsert "recordType" (.str "api_snapshot")) = .ok ()
  settled : normalizeBodyFields sha256
    (envelope.orInsert "recordType" (.str "api_snapshot")) = .ok bodies
  delivery : validateResponseDeliveryEvidence bodies = .ok ()
  promoted : checkPromoted sha256 (promoteProtocolFields bodies) = .ok ()

theorem normalizeEnvelope_ok_iff {enforced : Bool} {envelope : JsonMap}
    {result : String × JsonMap} :
    normalizeEnvelope sha256 enforced envelope = .ok result ↔
      ∃ captureId bodies, EnvelopeStages sha256 enforced envelope captureId bodies ∧
        result = (captureId, finishEnvelope (promoteProtocolFields bodies)) := by
  simp only [normalizeEnvelope, Except.bind_eq_ok_iff, Except.pure_eq_ok_iff]
  constructor
  · rintro ⟨captureId, hid, _, hproducer, _, hshape, _, hparts, bodies, hbodies, _, hdelivery,
      _, hpromoted, rfl⟩
    exact ⟨captureId, bodies, ⟨hid, hproducer, hshape, hparts, hbodies, hdelivery, hpromoted⟩,
      rfl⟩
  · rintro ⟨captureId, bodies, h, rfl⟩
    exact ⟨captureId, h.captureId, (), h.producer, (), h.shape, (), h.parts, bodies, h.settled,
      (), h.delivery, (), h.promoted, rfl⟩

section Bounds

variable {object : JsonMap}

theorem within_nil {bound : Nat} : Json.Within (bound + 1) (.obj []) :=
  Json.within_obj_iff.mpr ⟨OrdMap.sorted_nil, fun field hfield => by cases hfield⟩

theorem object?_within {bound : Nat} {field : String}
    (h : Json.Within (bound + 2) (.obj object)) :
    Json.Within (bound + 1) (.obj ((object.object? field).getD [])) := by
  cases hget : object.get field with
  | none =>
      rw [JsonMap.object?, hget]
      exact within_nil
  | some value =>
      have hvalue : Json.Within (bound + 1) value := h.lookup hget
      rw [JsonMap.object?, hget]
      cases value with
      | obj fields => exact hvalue
      | null => exact within_nil
      | bool flag => exact within_nil
      | num n => exact within_nil
      | str text => exact within_nil
      | arr items => exact within_nil

theorem publicHeaders_within {bound : Nat} {side : String}
    (h : Json.Within (bound + 2) (.obj object)) :
    Json.Within (bound + 1) (.obj (publicHeaders object side)) := by
  have hheaders : Json.Within (bound + 1) (.obj ((object.object? side).getD [])) :=
    object?_within h
  obtain ⟨hsorted, hfields⟩ := Json.within_obj_iff.mp hheaders
  exact Json.within_obj_iff.mpr ⟨hsorted.filter _, fun field hfield =>
    hfields field (List.mem_filter.mp hfield).1⟩

theorem finishEnvelope_within {bound : Nat} (h : Json.Within (bound + 2) (.obj object)) :
    Json.Within (bound + 2) (.obj (finishEnvelope object)) := by
  have hside : ∀ {base : JsonMap} {side : String}, Json.Within (bound + 2) (.obj base) →
      Json.Within (bound + 2) (.obj (sanitizeSide base side)) := fun hbase =>
    hbase.insert (publicHeaders_within hbase)
  have hnames : ∀ names : List String, Json.Within (bound + 1) (.arr (names.map .str)) := by
    intro names
    refine Json.within_arr_iff.mpr fun item hitem => ?_
    obtain ⟨name, _, rfl⟩ := List.mem_map.mp hitem
    exact Json.within_str name
  have hredacted : Json.Within (bound + 2) (.obj (redactedEnvelope object)) :=
    ((hside (hside h)).insert (Json.within_str _)).insert (hnames _)
  have hnone : Json.Within (bound + 1) (.arr []) :=
    Json.within_arr_iff.mpr fun item hitem => by cases hitem
  have hdefaults : Json.Within (bound + 2) (.obj (withDefaults (redactedEnvelope object))) := by
    refine foldl_preserves _ (fun object : JsonMap => Json.Within (bound + 2) (.obj object))
      storedDefaults ?_ _ hredacted
    rintro ⟨field, value⟩ hmem base hbase
    refine within_orInsert hbase ?_
    simp only [storedDefaults, List.mem_cons, List.not_mem_nil, or_false, Prod.mk.injEq] at hmem
    rcases hmem with ⟨_, rfl⟩ | ⟨_, rfl⟩ | ⟨_, rfl⟩ | ⟨_, rfl⟩ | ⟨_, rfl⟩ | ⟨_, rfl⟩
    · exact within_nil
    · exact hnone
    · exact Json.within_bool _
    · exact Json.within_bool _
    · exact Json.within_bool _
    · exact Json.within_scalar trivial rfl
  rw [finishEnvelope_eq, withReceivedAt]
  split_ifs
  · refine hdefaults.insert ?_
    cases receivedAtOf (withDefaults (redactedEnvelope object)) with
    | none => exact Json.within_scalar trivial rfl
    | some time => exact Json.within_str time
  · exact hdefaults

theorem promoteTrace_within {bound : Nat} {sources : CandidateSources}
    (h : Json.Within (bound + 1) (.obj sources.captured)) :
    Json.Within (bound + 1) (.obj (promoteTrace sources).trace) := by
  refine foldl_preserves promoteField
    (fun state : Promoted => Json.Within (bound + 1) (.obj state.trace))
    sources.byField.entries ?_ _ h
  rintro ⟨field, candidates⟩ hentry state hstate
  obtain ⟨rfl, _⟩ := mem_byField_entries.mp hentry
  simp only [promoteField]
  cases hselected : selectedValue state.trace field (sources.candidatesFor field) with
  | none => exact hstate
  | some value =>
      refine within_orInsert hstate ?_
      rw [selectedValue, Option.or_eq_some_iff] at hselected
      rcases hselected with hstored | ⟨_, hfirst⟩
      · exact (protocolValuePresent_scalar (Option.filter_eq_some_iff.mp hstored).2).within bound
      · obtain ⟨candidate, hcandidate, rfl⟩ := Option.map_eq_some_iff.mp hfirst
        exact (candidatesFor_scalar (List.mem_of_mem_head? hcandidate)).within bound

theorem recordedItems_within {bound : Nat} {field : String}
    (h : Json.Within (bound + 2) (.obj object)) :
    ∀ item ∈ recordedItems object field, Json.Within bound item := by
  intro item hitem
  rw [recordedItems, JsonMap.array?] at hitem
  cases hget : object.get field with
  | none =>
      rw [hget] at hitem
      cases hitem
  | some value =>
      have hvalue : Json.Within (bound + 1) value := h.lookup hget
      rw [hget] at hitem
      cases value with
      | arr items => exact Json.within_arr_iff.mp hvalue item hitem
      | _ => cases hitem

theorem addedEvidence_within {item : Json} (h : item ∈ addedEvidence object) :
    Json.Within 1 item := by
  simp only [addedEvidence, List.mem_append] at h
  rcases h with (htrace | hrequest) | hupstream
  · obtain ⟨field, candidate, hcandidate, rfl⟩ := mem_promoteTrace_evidence.mp htrace
    exact evidenceItem_within (candidatesFor_scalar hcandidate)
  · exact (requestIdEvidence_mem hrequest).2
  · exact (requestIdEvidence_mem hupstream).2

theorem addedConflicts_within {item : Json} (h : item ∈ addedConflicts object) :
    Json.Within 3 item := by
  obtain ⟨field, _, rfl⟩ := mem_promoteTrace_conflicts.mp h
  exact conflictItem_within fun candidate hcandidate => candidatesFor_scalar hcandidate

theorem mergedItems_within {bound : Nat} {recorded added : List Json}
    (hrecorded : ∀ item ∈ recorded, Json.Within bound item)
    (hadded : ∀ item ∈ added, Json.Within bound item) :
    Json.Within (bound + 1) (.arr (mergedItems recorded added)) := by
  refine Json.within_arr_iff.mpr fun item hitem => ?_
  rcases List.mem_append.mp (mem_of_mem_keepFirstFrom hitem) with hold | hnew
  · exact hrecorded item hold
  · exact hadded item hnew

theorem promoteProtocolFields_within {bound : Nat}
    (h : Json.Within (bound + 5) (.obj object)) :
    Json.Within (bound + 5) (.obj (promoteProtocolFields object)) := by
  have htrace : Json.Within (bound + 4) (.obj (promoteTrace (sourcesOf object)).trace) :=
    promoteTrace_within (object?_within h)
  have hidentified : Json.Within (bound + 5) (.obj (identifiedEnvelope object)) :=
    fill_within (fill_within (h.insert htrace))
  rw [promoteProtocolFields_eq]
  refine within_orInsert ((hidentified.insert ?_).insert ?_) (Json.within_str _)
  · exact mergedItems_within (recordedItems_within h)
      fun item hitem => (addedEvidence_within hitem).mono (by omega)
  · exact mergedItems_within (recordedItems_within h)
      fun item hitem => (addedConflicts_within hitem).mono (by omega)

end Bounds

section Shape

variable {object : JsonMap}

/-- The parts of the shape check. -/
structure ShapeOk (object : JsonMap) : Prop where
  optional : ∀ field ∈ ["sourceNamespace", "receivedAt", "startedAt", "finishedAt"],
    validateOptionalString object field = .ok ()
  headers : ∀ field ∈ ["requestHeaders", "responseHeaders"], checkHeaders object field = .ok ()
  status : validateResponseStatus (object.get "responseStatus") = .ok ()
  traceContext : ((object.get "traceContext").any fun value =>
    !value.isNull && !value.isObject) = false
  lifecycle : ((object.get "observedLifecycleEvents").any fun value =>
    !value.isNull && value.asArray.all fun events =>
      events.any fun event => event.asStr.all String.isEmpty) = false
  evaluation : ((evaluationItems object).any fun value =>
    !value.isNull && value.asArray.all fun items => items.any fun item => !item.isObject) = false

theorem checkShape_ok_iff : checkShape object = .ok () ↔ ShapeOk object := by
  constructor
  · intro h
    obtain ⟨_, hoptional, h⟩ := Except.bind_eq_ok_iff.mp h
    obtain ⟨_, hheaders, h⟩ := Except.bind_eq_ok_iff.mp h
    obtain ⟨_, hstatus, h⟩ := Except.bind_eq_ok_iff.mp h
    obtain ⟨_, htrace, h⟩ := Except.bind_eq_ok_iff.mp h
    obtain ⟨_, hlifecycle, hevaluation⟩ := Except.bind_eq_ok_iff.mp h
    exact ⟨List.forM_eq_ok_iff.mp hoptional, List.forM_eq_ok_iff.mp hheaders, hstatus,
      bailIf_eq_ok.mp htrace, bailIf_eq_ok.mp hlifecycle, bailIf_eq_ok.mp hevaluation⟩
  · intro h
    refine Except.bind_eq_ok_iff.mpr ⟨(), List.forM_eq_ok_iff.mpr h.optional, ?_⟩
    refine Except.bind_eq_ok_iff.mpr ⟨(), List.forM_eq_ok_iff.mpr h.headers, ?_⟩
    refine Except.bind_eq_ok_iff.mpr ⟨(), h.status, ?_⟩
    refine Except.bind_eq_ok_iff.mpr ⟨(), bailIf_eq_ok.mpr h.traceContext, ?_⟩
    exact Except.bind_eq_ok_iff.mpr ⟨(), bailIf_eq_ok.mpr h.lifecycle,
      bailIf_eq_ok.mpr h.evaluation⟩

end Shape

section Stored

variable {enforced : Bool} {envelope bodies : JsonMap} {captureId : String}

/-- The stored form of an envelope with settled bodies. -/
def storedForm (bodies : JsonMap) : JsonMap := finishEnvelope (promoteProtocolFields bodies)

def withRecordType (envelope : JsonMap) : JsonMap :=
  envelope.orInsert "recordType" (.str "api_snapshot")

/-- The fields that the promotion and the stored form can change. -/
def storedKeys : List String :=
  ["traceContext", "requestId", "upstreamRequestId", "fieldEvidence", "fieldEvidenceConflicts",
    "captureStage", "requestHeaders", "responseHeaders", "version", "redactedHeaders",
    "receivedAt", "observedLifecycleEvents", "requestTruncated", "responseTruncated", "stream",
    "captureError"]

theorem storedForm_get {key : String} (hkey : key ∉ storedKeys) :
    (storedForm bodies).get key = bodies.get key := by
  simp only [storedKeys, List.mem_cons, List.not_mem_nil, or_false, not_or] at hkey
  rw [storedForm, finishEnvelope_get (by simp [hkey]),
    promoteProtocolFields_get _ (by simp [hkey])]

/-- The fields of the evidence are those of the promotion. -/
theorem storedForm_promoted {key : String}
    (hkey : key ∈ ["traceContext", "requestId", "upstreamRequestId", "fieldEvidence",
      "fieldEvidenceConflicts", "captureStage"]) :
    (storedForm bodies).get key = (promoteProtocolFields bodies).get key := by
  simp only [List.mem_cons, List.not_mem_nil, or_false] at hkey
  rw [storedForm]
  rcases hkey with rfl | rfl | rfl | rfl | rfl | rfl
  · rw [finishEnvelope_default (by rfl), promoteProtocolFields_traceContext]
    rfl
  all_goals exact finishEnvelope_get (by decide)

theorem storedForm_header {side name : String} (hside : side ∈ ["requestHeaders",
    "responseHeaders"]) (hname : isSensitive name = false) :
    headerOf (storedForm bodies) side name = headerOf bodies side name := by
  have hget : (storedForm bodies).get side =
      some (.obj (publicHeaders (promoteProtocolFields bodies) side)) := by
    rw [storedForm, finishEnvelope_redacted, redactedEnvelope_side hside]
    simp only [List.mem_cons, List.not_mem_nil, or_false] at hside ⊢
    rcases hside with rfl | rfl <;> simp
  have hheaders : (promoteProtocolFields bodies).object? side = bodies.object? side := by
    refine object?_congr (promoteProtocolFields_get _ ?_)
    simp only [List.mem_cons, List.not_mem_nil, or_false] at hside
    rcases hside with rfl | rfl <;> decide
  rw [headerOf, object?_of_get hget, Option.bind_some, publicHeaders, hheaders,
    headerValue_filter hname, headerOf]
  cases bodies.object? side <;> rfl

variable (h : EnvelopeStages sha256 enforced envelope captureId bodies)
  (hsorted : OrdMap.Sorted envelope)
include h hsorted

theorem EnvelopeStages.normalized : BodiesNormalized sha256 (withRecordType envelope) bodies := by
  refine normalizeBodyFields_spec ?_ h.settled
  rw [withRecordType, JsonMap.orInsert]
  split_ifs
  · exact hsorted
  · exact OrdMap.sorted_insert _ _ hsorted

/-- The fields of the envelope that no stage changes. -/
theorem EnvelopeStages.get {key : String} (hbody : key ∉ bodyKeys) (hkey : key ∉ storedKeys) :
    (storedForm bodies).get key = (withRecordType envelope).get key := by
  rw [storedForm_get hkey, (h.normalized hsorted).frame key hbody]

theorem EnvelopeStages.agree (keys : List String)
    (hkeys : ∀ key ∈ keys, key ∉ bodyKeys ∧ key ∉ storedKeys) :
    AgreeOn keys (withRecordType envelope) (storedForm bodies) :=
  fun key hkey => (h.get hsorted (hkeys key hkey).1 (hkeys key hkey).2).symm

theorem EnvelopeStages.recordType : withRecordType (storedForm bodies) = storedForm bodies := by
  refine JsonMap.orInsert_eq_self.mpr ?_
  rw [JsonMap.containsKey, h.get hsorted (by decide) (by decide), withRecordType,
    JsonMap.get_orInsert, if_pos rfl]
  rfl

theorem EnvelopeStages.bodiesSettled :
    normalizeBodyFields sha256 (storedForm bodies) = .ok (storedForm bodies) := by
  refine BodiesSettled.normalizeBodyFields ((h.normalized hsorted).settled.congr ?_)
  intro key hkey
  refine (storedForm_get ?_).symm
  revert key
  decide

/-- The shape of the stored form is that of the envelope. -/
theorem EnvelopeStages.storedShape : checkShape (storedForm bodies) = .ok () := by
  have hshape := checkShape_ok_iff.mp h.shape
  have hget : ∀ key, key ∉ bodyKeys → key ∉ storedKeys →
      (storedForm bodies).get key = (withRecordType envelope).get key :=
    fun key hbody hkey => h.get hsorted hbody hkey
  refine checkShape_ok_iff.mpr ⟨?_, ?_, ?_, ?_, ?_, ?_⟩
  · have hreceived : validateOptionalString (storedForm bodies) "receivedAt" = .ok () := by
      have hbefore : (promoteProtocolFields bodies).get "receivedAt" =
          (withRecordType envelope).get "receivedAt" := by
        rw [promoteProtocolFields_get _ (by decide), (h.normalized hsorted).frame _ (by decide)]
      rw [storedForm, validateOptionalString, finishEnvelope_receivedAt, hbefore]
      split_ifs
      · cases receivedAtOf (promoteProtocolFields bodies) <;> rfl
      · exact hshape.optional "receivedAt" (by simp)
    intro field hfield
    by_cases hfieldReceived : field = "receivedAt"
    · rw [hfieldReceived, hreceived]
    · rw [validateOptionalString_congr (hget field ?_ ?_)]
      · exact hshape.optional field hfield
      all_goals
        simp only [List.mem_cons, List.not_mem_nil, or_false] at hfield
        rcases hfield with rfl | rfl | rfl | rfl
        all_goals first | decide | exact absurd rfl hfieldReceived
  · intro side hside
    have hstored : (storedForm bodies).get side =
        some (.obj (publicHeaders (promoteProtocolFields bodies) side)) := by
      rw [storedForm, finishEnvelope_redacted, redactedEnvelope_side hside]
      simp only [List.mem_cons, List.not_mem_nil, or_false] at hside ⊢
      rcases hside with rfl | rfl <;> simp
    rw [checkHeaders, hstored]
    rfl
  · rw [hget _ (by decide) (by decide)]
    exact hshape.status
  · rw [storedForm_promoted (by simp), promoteProtocolFields_traceContext]
    rfl
  · rw [storedForm, finishEnvelope_default (by rfl), promoteProtocolFields_get _ (by decide),
      (h.normalized hsorted).frame _ (by decide)]
    have hlifecycle := hshape.lifecycle
    change (((withRecordType envelope).get "observedLifecycleEvents").any _) = false at hlifecycle
    cases hevents : (withRecordType envelope).get "observedLifecycleEvents" with
    | none => rfl
    | some events =>
        rw [hevents] at hlifecycle
        exact hlifecycle
  · rw [evaluationItems_congr fun key hkey =>
      (h.agree hsorted ["evaluationEvidence", "evaluation_evidence"] (by decide) key hkey).symm]
    exact hshape.evaluation

theorem EnvelopeStages.storedParts : checkRecordParts sha256 (storedForm bodies) = .ok () := by
  have hagree : ∀ keys : List String, (∀ key ∈ keys, key ∉ bodyKeys ∧ key ∉ storedKeys) →
      AgreeOn keys (storedForm bodies) (withRecordType envelope) :=
    fun keys hkeys key hkey => h.get hsorted (hkeys key hkey).1 (hkeys key hkey).2
  rw [checkRecordParts, validateLifecycleEvent_congr (hagree _ (by decide)),
    validateToolExecution_congr (hagree _ (by decide)),
    validateEvaluationEvidence_congr (hagree _ (by decide)),
    validateRolloutEvent_congr (hagree _ (by decide)),
    validateTelemetryBatch_congr (hagree _ (by decide))]
  exact h.parts

theorem EnvelopeStages.storedProducer :
    checkProducerContract enforced (storedForm bodies) = .ok () := by
  have hproducer := h.producer
  rw [checkProducerContract] at hproducer ⊢
  simp only [JsonMap.containsKey, JsonMap.str?] at hproducer ⊢
  rw [h.get hsorted (by decide : "producerEvent" ∉ bodyKeys) (by decide),
    h.get hsorted (by decide : "rolloutEvent" ∉ bodyKeys) (by decide),
    h.get hsorted (by decide : "recordType" ∉ bodyKeys) (by decide)]
  exact hproducer

omit hsorted in
theorem EnvelopeStages.storedDelivery :
    validateResponseDeliveryEvidence (storedForm bodies) = .ok () := by
  have hagree : AgreeOn (deliveryCountFields ++ deliveryFlagFields) (storedForm bodies) bodies := by
    intro key hkey
    refine storedForm_get ?_
    revert key
    decide
  rw [validateResponseDeliveryEvidence_congr hagree]
  exact h.delivery

omit hsorted in
/-- The checks of the promoted envelope hold for its stored form. -/
theorem EnvelopeStages.storedPromoted : checkPromoted sha256 (storedForm bodies) = .ok () := by
  have hagree : ∀ keys : List String, (∀ key ∈ keys, key ∉ ["requestHeaders", "responseHeaders",
      "version", "redactedHeaders", "receivedAt", "observedLifecycleEvents", "requestTruncated",
      "responseTruncated", "stream", "captureError"]) →
      AgreeOn keys (storedForm bodies) (promoteProtocolFields bodies) := by
    intro keys hkeys key hkey
    by_cases htrace : key = "traceContext"
    · exact storedForm_promoted (by simp [htrace])
    · have hother := hkeys key hkey
      simp only [List.mem_cons, List.not_mem_nil, or_false, not_or] at hother
      exact finishEnvelope_get (by simp [hother, htrace])
  have hheaders : ∀ side ∈ ["requestHeaders", "responseHeaders"],
      ∀ name ∈ ["x-client-request-id", "x-request-id"],
        headerOf (storedForm bodies) side name =
          headerOf (promoteProtocolFields bodies) side name := by
    intro side hside name hname
    have hpublic : isSensitive name = false := by
      revert name
      decide
    rw [storedForm_header hside hpublic]
    refine (headerOf_congr (promoteProtocolFields_get _ ?_)).symm
    simp only [List.mem_cons, List.not_mem_nil, or_false] at hside
    rcases hside with rfl | rfl <;> decide
  rw [checkPromoted, validateRecordType_congr (hagree _ (by decide)),
    validateTraceContext_congr (hagree _ (by decide)),
    validateFieldEvidence_congr (hagree _ (by decide)),
    validateGatewayEvidence_congr (hagree _ (by decide)) hheaders]
  exact h.promoted

theorem EnvelopeStages.storedId : checkCaptureId (storedForm bodies) = .ok captureId := by
  have hid : (storedForm bodies).get "captureId" = envelope.get "captureId" := by
    rw [h.get hsorted (by decide) (by decide), withRecordType,
      JsonMap.get_orInsert_of_ne (by decide)]
  have hcheck := h.captureId
  rw [checkCaptureId, JsonMap.str?] at hcheck ⊢
  rw [hid]
  exact hcheck

/-- The stored form passes every stage that does not concern its promotion. -/
theorem EnvelopeStages.stored (hpromote : promoteProtocolFields (storedForm bodies) =
    storedForm bodies) :
    EnvelopeStages sha256 enforced (storedForm bodies) captureId (storedForm bodies) := by
  have htype := h.recordType hsorted
  rw [withRecordType] at htype
  refine ⟨h.storedId hsorted, ?_, ?_, ?_, ?_, h.storedDelivery, ?_⟩
  · rw [htype]
    exact h.storedProducer hsorted
  · rw [htype]
    exact h.storedShape hsorted
  · rw [htype]
    exact h.storedParts hsorted
  · rw [htype]
    exact h.bodiesSettled hsorted
  · rw [hpromote]
    exact h.storedPromoted

end Stored

section Bytes

variable {raw : Bytes} {maxBytes : Nat} {record : CaptureRecord}

theorem parseBytes_jsonBytes {value : Json} (hwf : value.WellFormed) :
    parseBytes (jsonBytes value) =
      if value.depth < Json.recursionLimit then some value else none := by
  rw [parseBytes, jsonBytes, Bytes.decode?_encode, Option.bind_some, Json.parse_print hwf]

theorem readEnvelope_ok_iff {envelope : JsonMap} :
    readEnvelope raw = .ok envelope ↔ parseBytes raw = some (.obj envelope) := by
  rw [readEnvelope]
  cases hparse : parseBytes raw with
  | none => simp
  | some value => cases value <;> simp [okOr, bail, Json.asObject]

theorem readEnvelope_jsonBytes {envelope : JsonMap} (hwf : (Json.obj envelope).WellFormed)
    (hdepth : (Json.obj envelope).depth < Json.recursionLimit) :
    readEnvelope (jsonBytes (.obj envelope)) = .ok envelope := by
  rw [readEnvelope_ok_iff, parseBytes_jsonBytes hwf, if_pos hdepth]

theorem readEnvelope_within {envelope : JsonMap} (h : readEnvelope raw = .ok envelope) :
    Json.Within 127 (.obj envelope) := by
  have hparse := readEnvelope_ok_iff.mp h
  rw [parseBytes, Option.bind_eq_some_iff] at hparse
  obtain ⟨text, _, hvalue⟩ := hparse
  have hdepth := Json.parse_depth hvalue
  have hlimit : Json.recursionLimit = 128 := rfl
  exact ⟨Json.parse_wellFormed hvalue, by omega⟩

/-- The limit refuses bytes and nothing else. -/
theorem normalizeCapture_ok_iff :
    normalizeCapture sha256 raw maxBytes = .ok record ↔
      normalizeUnbounded sha256 raw true = .ok record ∧ raw.length ≤ maxBytes ∧
        record.canonical.length ≤ maxBytes := by
  simp only [normalizeCapture, normalizeCaptureWithPolicy, Except.bind_eq_ok_iff,
    Except.pure_eq_ok_iff]
  constructor
  · rintro ⟨⟨⟩, hraw, read, hread, ⟨⟩, hfits, rfl⟩
    exact ⟨hread, by simpa using hraw, by simpa using hfits⟩
  · rintro ⟨hread, hraw, hfits⟩
    exact ⟨(), bailIf_eq_ok.mpr (by simpa using hraw), record, hread, (),
      bailIf_eq_ok.mpr (by simpa using hfits), rfl⟩

/-- The envelope that was read and the record it became. -/
structure Normalized (sha256 : Bytes → String) (raw : Bytes) (record : CaptureRecord)
    (envelope bodies : JsonMap) : Prop where
  read : readEnvelope raw = .ok envelope
  stages : EnvelopeStages sha256 true envelope record.captureId bodies
  canonical : record.canonical = jsonBytes (.obj (storedForm bodies))
  sha256 : record.sha256 = sha256 record.canonical

theorem normalizeUnbounded_spec (h : normalizeUnbounded sha256 raw true = .ok record) :
    ∃ envelope bodies, Normalized sha256 raw record envelope bodies := by
  simp only [normalizeUnbounded, Except.bind_eq_ok_iff, Except.pure_eq_ok_iff] at h
  obtain ⟨envelope, hread, ⟨captureId, object⟩, hstored, hrecord⟩ := h
  obtain ⟨id, bodies, hstages, hresult⟩ := normalizeEnvelope_ok_iff.mp hstored
  obtain ⟨hid, hobject⟩ := Prod.mk.inj hresult
  have hcanonical : record.canonical = jsonBytes (.obj object) := by rw [← hrecord]
  have hcapture : record.captureId = id := by rw [← hrecord, ← hid]
  have hsha : record.sha256 = sha256 record.canonical := by rw [← hrecord]
  rw [hobject] at hcanonical
  rw [← hcapture] at hstages
  exact ⟨envelope, bodies, ⟨hread, hstages, hcanonical, hsha⟩⟩

theorem normalizeUnbounded_of_stages {envelope object : JsonMap} {captureId : String}
    (hread : readEnvelope raw = .ok envelope)
    (hstored : normalizeEnvelope sha256 true envelope = .ok (captureId, object)) :
    ∃ again, normalizeUnbounded sha256 raw true = .ok again ∧ again.captureId = captureId ∧
      again.canonical = jsonBytes (.obj object) ∧ again.sha256 = sha256 again.canonical := by
  refine ⟨⟨captureId, jsonBytes (.obj object), sha256 (jsonBytes (.obj object)),
    if envelope.str? "version" != some captureSchemaVersion then some (sha256 raw) else none,
    receivedAtOf object, (requestOf object).str? "model",
    WireCaptureEvidence.fromCapture object⟩, ?_, rfl, rfl, rfl⟩
  simp only [normalizeUnbounded, Except.bind_eq_ok_iff, Except.pure_eq_ok_iff]
  exact ⟨envelope, hread, (captureId, object), hstored, rfl⟩

/-- The bytes of an envelope that passes every check are accepted under some limit. -/
theorem normalizeCapture_of_checked {envelope : JsonMap}
    (hwf : (Json.obj envelope).WellFormed)
    (hdepth : (Json.obj envelope).depth < Json.recursionLimit)
    (hchecked : (normalizeEnvelope sha256 true envelope).isOk = true) :
    ∃ maxBytes record,
      normalizeCapture sha256 (jsonBytes (.obj envelope)) maxBytes = .ok record := by
  cases hstored : normalizeEnvelope sha256 true envelope with
  | error error =>
      rw [hstored] at hchecked
      cases hchecked
  | ok result =>
      obtain ⟨captureId, object⟩ := result
      obtain ⟨record, hrecord, _, hcanonical, _⟩ :=
        normalizeUnbounded_of_stages (readEnvelope_jsonBytes hwf hdepth) hstored
      refine ⟨(jsonBytes (.obj envelope)).length + record.canonical.length, record, ?_⟩
      exact normalizeCapture_ok_iff.mpr ⟨hrecord, Nat.le_add_right _ _, Nat.le_add_left _ _⟩

end Bytes

end ChipTrace
