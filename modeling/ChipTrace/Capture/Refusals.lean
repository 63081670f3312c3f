/-
Every refusal of a capture says why.
-/
import ChipTrace.Capture.Normalize

namespace ChipTrace

open Except (FailsWith)

/-- The error has a text of its own. -/
def CaptureError.Spoken : CaptureError → Prop
  | .message text => text ≠ ""
  | _ => True

abbrev Spoken {α : Type} (result : Except CaptureError α) : Prop :=
  FailsWith CaptureError.Spoken result

section Rules

variable {α : Type}

@[simp] theorem spoken_message (text : String) :
    CaptureError.Spoken (.message text) ↔ text ≠ "" := Iff.rfl

@[simp] theorem spoken_unsupported (field value : String) :
    CaptureError.Spoken (.unsupported field value) := trivial

@[simp] theorem spoken_json : CaptureError.Spoken .json := trivial

@[simp] theorem spoken_bail (text : String) : Spoken (bail text : Except CaptureError α) ↔
    text ≠ "" := Except.failsWith_error _

@[simp] theorem spoken_bailIf (refused : Bool) (text : String) :
    Spoken (bailIf refused text) ↔ (refused = true → text ≠ "") := by
  cases refused <;> simp [bailIf]

@[simp] theorem spoken_okOr (value : Option α) (text : String) :
    Spoken (okOr value text) ↔ (value = none → text ≠ "") := by
  cases value <;> simp [okOr]

@[simp] theorem spoken_withContext (result : Except CaptureError α) (text : String) :
    Spoken (withContext result text) := by
  cases result with
  | ok value => exact Except.failsWith_ok value
  | error cause => exact (Except.failsWith_error _).mpr trivial

/-- A message with a fixed part is not empty. -/
theorem append_ne_empty (left : String) {right : String} (h : right ≠ "") : left ++ right ≠ "" :=
  fun happend => h (String.append_eq_empty_iff.mp happend).2

end Rules

section Parts

variable (object : JsonMap)

@[simp] theorem requireFilled_spoken (field text : String) :
    Spoken (requireFilled object field text) ↔ (object.filled? field = none → text ≠ "") := by
  simp [requireFilled]

@[simp] theorem validateOptionalString_spoken (field : String) :
    Spoken (validateOptionalString object field) := by
  simp [validateOptionalString, toString]

theorem readJson_spoken (text : String) : Spoken (readJson text) := by
  rw [readJson]
  split <;> simp

theorem checkCaptureId_spoken : Spoken (checkCaptureId object) := by
  simp [checkCaptureId]

theorem checkProducerContract_spoken (enforced : Bool) :
    Spoken (checkProducerContract enforced object) := by
  simp [checkProducerContract]

theorem validateResponseStatus_spoken (value : Option Json) :
    Spoken (validateResponseStatus value) := by
  unfold validateResponseStatus
  split <;> simp

theorem checkShape_spoken : Spoken (checkShape object) := by
  simp [checkShape, checkHeaders, validateResponseStatus_spoken, toString]

theorem validateLifecycleEvent_spoken : Spoken (validateLifecycleEvent object) := by
  rw [validateLifecycleEvent]
  split <;> simp

theorem validateProcessOutcome_spoken : Spoken (validateProcessOutcome object) := by
  rw [validateProcessOutcome]
  split
  · simp
  · simp
  · simp only [Except.failsWith_bind]
    refine ⟨by simp, fun outcome _ => ⟨by simp, fun _ _ => ⟨by simp, fun _ _ => ?_⟩⟩⟩
    split <;> simp

theorem validateToolParameters_spoken (parameters : Json) :
    Spoken (validateToolParameters parameters) := by
  simp [validateToolParameters]

theorem validateToolFormat_spoken (format : Json) : Spoken (validateToolFormat format) := by
  simp [validateToolFormat, toString]

theorem validateToolSchema_spoken (schema : JsonMap) :
    Spoken (validateToolSchema object schema) := by
  simp only [validateToolSchema, Except.failsWith_bind]
  refine ⟨by simp, fun _ _ => ⟨by simp, fun _ _ => ⟨by simp, fun _ _ => ?_⟩⟩⟩
  split
  · simp
  · exact validateToolParameters_spoken _
  · exact validateToolFormat_spoken _

theorem validateToolExecution_spoken : Spoken (validateToolExecution object) := by
  rw [validateToolExecution]
  split
  · simp
  · simp [validateProcessOutcome_spoken, validateToolExecutionResult, toString]
    intros
    split <;> simp [validateToolSchema_spoken]

theorem validateScore_spoken (index : Nat) (field : String) :
    Spoken (validateScore object index field) := by
  rw [validateScore]
  split <;> simp [toString]

theorem validateEvaluationItem_spoken (item : Json) (index : Nat) :
    Spoken (validateEvaluationItem item index) := by
  simp [validateEvaluationItem, validateScore_spoken, toString]

theorem validateEvaluationEvidence_spoken : Spoken (validateEvaluationEvidence object) := by
  rw [validateEvaluationEvidence]
  split
  · simp
  · simp only [Except.failsWith_bind]
    exact ⟨by simp, fun items _ => failsWith_forM fun item _ =>
      validateEvaluationItem_spoken item.1 item.2⟩

variable (sha256 : Bytes → String)

theorem validateNativePayload_spoken (index : Nat) (payload : Json) :
    Spoken (validateNativePayload sha256 index payload) := by
  rw [validateNativePayload]
  split <;> simp [toString]

theorem validateNativeBundleEvidence_spoken (sourceLine : String) :
    Spoken (validateNativeBundleEvidence sha256 object sourceLine) := by
  simp only [validateNativeBundleEvidence, Except.failsWith_bind]
  refine ⟨by simp, fun _ _ => ⟨by simp, fun _ _ => ⟨by simp, fun _ _ => ⟨by simp, fun _ _ =>
    ⟨by simp, fun _ _ => ⟨by simp, fun _ _ => ?_⟩⟩⟩⟩⟩⟩
  exact failsWith_forM fun payload _ => validateNativePayload_spoken sha256 payload.2 payload.1

theorem validateRolloutEvent_spoken : Spoken (validateRolloutEvent sha256 object) := by
  rw [validateRolloutEvent]
  split <;> simp [validateNativeBundleEvidence_spoken, toString]

theorem validateReasonCounts_spoken (reasons : JsonMap) :
    Spoken (validateReasonCounts object reasons) := by
  simp only [validateReasonCounts, Except.failsWith_bind]
  exact ⟨failsWith_foldlM (fun total field _ => by simp) 0, fun _ _ => by simp⟩

theorem validateTelemetryBatch_spoken : Spoken (validateTelemetryBatch sha256 object) := by
  rw [validateTelemetryBatch]
  split
  · simp
  · simp [toString]
    intros
    split <;> simp [validateReasonCounts_spoken]

theorem checkRecordParts_spoken : Spoken (checkRecordParts sha256 object) := by
  simp [checkRecordParts, validateLifecycleEvent_spoken, validateToolExecution_spoken,
    validateEvaluationEvidence_spoken, validateRolloutEvent_spoken,
    validateTelemetryBatch_spoken]

theorem takeBodyText_spoken (fields : BodyFields) :
    Spoken (takeBodyText sha256 object fields) := by
  rw [takeBodyText]
  split
  · simp
  · simp only [Except.failsWith_bind, Except.failsWith_pure, implies_true, and_true, bodyText]
    split <;> simp [toString]

theorem validateEmbeddedRawBody_spoken (fields : BodyFields) :
    Spoken (validateEmbeddedRawBody sha256 object fields) := by
  rw [validateEmbeddedRawBody]
  split <;> simp [checkEmbeddedRaw, checkEmbeddedJson, toString]

theorem normalizeBodyFields_spoken : Spoken (normalizeBodyFields sha256 object) := by
  simp [normalizeBodyFields, takeBodyText_spoken, validateEmbeddedRawBody_spoken]

theorem validateResponseDeliveryEvidence_spoken :
    Spoken (validateResponseDeliveryEvidence object) := by
  simp [validateResponseDeliveryEvidence, deliveryCountFields, deliveryFlagFields,
    validateDeliveryCount, validateDeliveryFlag, toString]

theorem validateRecordPayload_spoken (recordType : String) :
    Spoken (validateRecordPayload object recordType) := by
  unfold validateRecordPayload
  split <;> simp

theorem validateRecordType_spoken : Spoken (validateRecordType object) := by
  rw [validateRecordType]
  split
  · simp
  · simp [validateRecordPayload_spoken, toString]

theorem validateTraceContext_spoken : Spoken (validateTraceContext object) := by
  rw [validateTraceContext]
  split <;> simp

theorem validateEvidenceItem_spoken (field : String) (item : Json) (index : Nat) :
    Spoken (validateEvidenceItem field item index) := by
  simp [validateEvidenceItem, toString]

theorem validateFieldEvidence_spoken : Spoken (validateFieldEvidence object) := by
  refine failsWith_forM fun field _ => ?_
  split
  · simp
  · simp only [Except.failsWith_bind]
    exact ⟨by simp [toString], fun items _ => failsWith_forM fun item _ =>
      validateEvidenceItem_spoken field item.1 item.2⟩

theorem observedRequestId_spoken (captureField : String) :
    Spoken (observedRequestId object captureField) := by
  unfold observedRequestId
  split <;> simp

theorem validateGatewayEvidenceJoin_spoken (evidence : JsonMap) (join : Json) :
    Spoken (validateGatewayEvidenceJoin sha256 object evidence join) := by
  simp [validateGatewayEvidenceJoin, toString]
  intros
  split <;> simp [observedRequestId_spoken]

theorem validateGatewayEvidence_spoken : Spoken (validateGatewayEvidence sha256 object) := by
  rw [validateGatewayEvidence]
  refine Except.failsWith_bind.mpr ⟨by simp, fun _ _ => ?_⟩
  cases object.str? "captureStage"
  case' some stage =>
    refine Except.failsWith_ite.mpr ⟨fun _ => (Except.failsWith_error _).mpr trivial, fun _ => ?_⟩
  all_goals
    dsimp only
    split
    · simp
    · simp only [Except.failsWith_bind]
      refine ⟨by simp, fun evidence _ => ⟨by simp [validateGatewayFields, toString],
        fun _ _ => ?_⟩⟩
      split
      · simp
      · exact validateGatewayEvidenceJoin_spoken object sha256 evidence _

theorem normalizeEnvelope_spoken (enforced : Bool) :
    Spoken (normalizeEnvelope sha256 enforced object) := by
  simp [normalizeEnvelope, checkPromoted, checkCaptureId_spoken, checkProducerContract_spoken,
    checkShape_spoken, checkRecordParts_spoken, normalizeBodyFields_spoken,
    validateResponseDeliveryEvidence_spoken, validateRecordType_spoken,
    validateTraceContext_spoken, validateFieldEvidence_spoken, validateGatewayEvidence_spoken]

end Parts

section Bytes

variable (sha256 : Bytes → String) (raw : Bytes)

theorem normalizeUnbounded_spoken (enforced : Bool) :
    Spoken (normalizeUnbounded sha256 raw enforced) := by
  have hread : Spoken (readEnvelope raw) := by
    rw [readEnvelope]
    split <;> simp
  simp [normalizeUnbounded, hread, normalizeEnvelope_spoken]

theorem normalizeCapture_spoken (maxBytes : Nat) : Spoken (normalizeCapture sha256 raw maxBytes) := by
  simp [normalizeCapture, normalizeCaptureWithPolicy, normalizeUnbounded_spoken, toString]

end Bytes

end ChipTrace
