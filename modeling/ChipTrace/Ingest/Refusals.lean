/-
Every error of an ingest request has a text, and its counts fit.
-/
import ChipTrace.Capture.Refusals
import ChipTrace.Ingest.Prepare

namespace ChipTrace

open Except (FailsWith)

abbrev Worded {α : Type} (result : Except String α) : Prop := FailsWith (· ≠ "") result

section Otlp

theorem optionalOtlpArray_worded (value : Option Json) (path : String) :
    Worded (optionalOtlpArray value path) := by
  unfold optionalOtlpArray
  split <;> simp [toString]

theorem otlpMessageAttributes_worded (message : Option Json) (field : String) :
    Worded (otlpMessageAttributes message field) := by
  unfold otlpMessageAttributes
  split <;> simp [toString]

theorem duplicateError_ne_empty (key : String) (previousIndex index : Nat) :
    duplicateError key previousIndex index ≠ "" := by
  rw [duplicateError]
  split_ifs <;> simp [toString]

theorem checkAttribute_worded (codeMetadata lifecycle : Bool) (seen : SeenAttributes)
    (numbered : Json × Nat) : Worded (checkAttribute codeMetadata lifecycle seen numbered) := by
  rw [checkAttribute]
  refine Except.failsWith_ite.mpr ⟨fun _ => by simp [toString], fun _ => ?_⟩
  split
  · simp
  · dsimp only
    split
    · simp
    · exact Except.failsWith_ite.mpr ⟨fun _ => by simp, fun _ =>
        (Except.failsWith_error _).mpr (duplicateError_ne_empty _ _ _)⟩

theorem validateOtlpAttributesMode_worded (value : Option Json) (codeMetadata lifecycle : Bool) :
    Worded (validateOtlpAttributesMode value codeMetadata lifecycle) := by
  rw [validateOtlpAttributesMode]
  simp only [Except.failsWith_bind, Except.failsWith_pure, implies_true, and_true]
  exact ⟨optionalOtlpArray_worded _ _, fun attributes _ => failsWith_foldlM
    (fun seen numbered _ => checkAttribute_worded codeMetadata lifecycle seen numbered) _⟩

theorem attributesForEndpoint_worded (endpoint : String) (value : Option Json)
    (recordName : Option String) : Worded (attributesForEndpoint endpoint value recordName) := by
  simp [attributesForEndpoint, validateOtlpAttributesMode_worded]

theorem uniqueAttribute_worded (attributes : Table String String) (keys : List String) :
    Worded (uniqueAttribute attributes keys) := by
  simp [uniqueAttribute, toString]

theorem sessionAttribute_worded (attributes : Table String String) :
    Worded (sessionAttribute attributes) := by
  rw [sessionAttribute]
  refine Except.failsWith_bind.mpr ⟨uniqueAttribute_worded _ _, fun explicit _ => ?_⟩
  dsimp only
  split
  · simp
  · simp

theorem turnAttribute_worded (attributes : Table String String) :
    Worded (turnAttribute attributes) := by
  simp [turnAttribute, uniqueAttribute_worded]

theorem checkObjects_worded {items : List Json} {path : String}
    {check : Json → Nat → Except String Unit} (hcheck : ∀ item index, Worded (check item index)) :
    Worded (checkObjects items path check) := by
  refine failsWith_forM fun numbered _ => ?_
  exact Except.failsWith_ite.mpr ⟨fun _ => by simp [toString], fun _ => hcheck _ _⟩

theorem validateOtlpStructure_worded (endpoint : String) (raw : Json) :
    Worded (validateOtlpStructure endpoint raw) := by
  rw [validateOtlpStructure]
  split
  · simp
  · split
    · simp [toString]
    · refine checkObjects_worded fun resource _ => Except.failsWith_bind.mpr
        ⟨optionalOtlpArray_worded _ _, fun scopes _ => checkObjects_worded fun scope _ =>
          Except.failsWith_bind.mpr ⟨optionalOtlpArray_worded _ _, fun records _ =>
            checkObjects_worded fun _ _ => Except.failsWith_ok _⟩⟩

theorem visitOtlpEnvelope_worded {State : Type} {endpoint : String} {raw : Json}
    {visit : State → Json → Table String String → Except String State}
    (hvisit : ∀ state record attributes, Worded (visit state record attributes)) (state : State) :
    Worded (visitOtlpEnvelope endpoint raw visit state) := by
  have htexts : ∀ value recordName, Worded (attributesForEndpoint endpoint value recordName) :=
    attributesForEndpoint_worded endpoint
  rw [visitOtlpEnvelope]
  split
  · simp
  · refine Except.failsWith_bind.mpr ⟨validateOtlpStructure_worded _ _, fun _ _ => ?_⟩
    refine failsWith_foldlM (fun state resource _ => Except.failsWith_bind.mpr ⟨?_, fun outer _ =>
      failsWith_foldlM (fun state scope _ => Except.failsWith_bind.mpr ⟨?_, fun layered _ =>
        failsWith_foldlM (fun state record _ => Except.failsWith_bind.mpr ⟨?_, fun merged _ =>
          hvisit _ _ _⟩) _⟩) _⟩) _
    · simp [resourceTexts, otlpMessageAttributes_worded, htexts]
    · simp [scopeTexts, otlpMessageAttributes_worded, htexts]
    · simp [recordTexts, htexts]

end Otlp

section Hook

variable (platform : Platform)

theorem render_ne_empty {text : String} (htext : text ≠ "") {error : CaptureError}
    (herror : error.Spoken) : platform.render text error ≠ "" := by
  cases error with
  | json => exact htext
  | message text => exact herror
  | unsupported field value => simp [Platform.render, toString]
  | context text cause => simp [Platform.render, toString]

theorem JsonFault.text_ne_empty (fault : JsonFault) : fault.text ≠ "" := by
  simp [JsonFault.text, toString]

theorem normalizeValue_worded (limit : ByteLimit) (value : Json) :
    Worded (platform.normalizeValue limit value) := by
  have hspoken : Spoken (platform.normalizeWithin limit (jsonBytes value)) := by
    cases limit with
    | some maxBytes => exact normalizeCapture_spoken _ _ _
    | none => exact normalizeUnbounded_spoken _ _ _
  rw [Platform.normalizeValue]
  split
  · simp
  · rename_i error herror
    exact (Except.failsWith_error _).mpr
      (render_ne_empty platform (JsonFault.text_ne_empty _) (hspoken error herror))

@[simp] theorem required_worded {α : Type} (value : Option α) (error : String) :
    Worded (required value error) ↔ (value = none → error ≠ "") := by
  cases value <;> simp [required]

@[simp] theorem requireString_worded (envelope : Json) (eventName field : String) :
    Worded (requireString envelope eventName field) := by
  rw [requireString]
  split <;> simp [toString]

theorem validateHookFields_worded (envelope : Json) (eventName : String) :
    Worded (validateHookFields envelope eventName) := by
  unfold validateHookFields
  split <;> simp

theorem hookToolCapture_worded (envelope : Json) (eventName eventId : String) (trace : Json) :
    Worded (hookToolCapture platform envelope eventName eventId trace) := by
  simp [hookToolCapture, toString]

theorem hookCapture_worded (envelope : Json) (rawSha256 : String) :
    Worded (hookCapture platform envelope rawSha256) := by
  rw [hookCapture]
  refine Except.failsWith_bind.mpr ⟨by simp, fun eventName _ => Except.failsWith_bind.mpr
    ⟨by simp, fun sessionId _ => ?_⟩⟩
  split
  · simp
  · simp [validateHookFields_worded, hookToolCapture_worded, toString]

theorem deriveCodexHook_worded (envelope : Json) (rawSha256 : String) (limit : ByteLimit) :
    Worded (deriveCodexHook platform envelope rawSha256 limit) := by
  rw [deriveCodexHook]
  refine Except.failsWith_bind.mpr ⟨hookCapture_worded platform envelope rawSha256,
    fun capture _ => ?_⟩
  split <;> simp [normalizeValue_worded]

end Hook

section Derived

variable (platform : Platform)

/-- Errors with a text, and counts that fit. -/
structure DerivedBatch.Reportable (batch : DerivedBatch) : Prop where
  sourceRecords : batch.sourceRecords < U64.limit
  unknownEvents : batch.unknownEvents < U64.limit
  errors : ∀ error ∈ batch.errors, error ≠ ""

theorem DerivedBatch.Reportable.report {batch : DerivedBatch} (h : batch.Reportable)
    {error : String} (herror : error ≠ "") : (batch.report error).Reportable := by
  refine ⟨h.sourceRecords, h.unknownEvents, fun other hother => ?_⟩
  rcases List.mem_append.mp hother with hold | hnew
  · exact h.errors other hold
  · rw [List.mem_singleton.mp hnew]
    exact herror

theorem DerivedBatch.Reportable.add {batch : DerivedBatch} (h : batch.Reportable)
    {outcome : LogOutcome} (houtcome : ∀ error ∈ outcome.errors, error ≠ "") :
    (batch.add outcome).Reportable := by
  refine ⟨h.sourceRecords, ?_, fun other hother => ?_⟩
  · change (if outcome.unknown then _ else _) < U64.limit
    split_ifs
    · exact U64.saturatingAdd_lt _ _
    · exact h.unknownEvents
  · rcases List.mem_append.mp hother with hold | hnew
    · exact h.errors other hold
    · exact houtcome other hnew

theorem DerivedBatch.Reportable.readAttributes {batch : DerivedBatch} (h : batch.Reportable)
    (path : String) (attributes : Except String AttributeMap) :
    (batch.readAttributes path attributes).1.Reportable := by
  cases attributes with
  | ok attributes => exact h
  | error error => exact h.report (by simp [toString])

theorem deriveReadableLog_errors (record : Json) (attributes : AttributeMap) (rawSha256 : String)
    (ordinal : Nat) (limit : ByteLimit) :
    ∀ error ∈ (deriveReadableLog platform record attributes rawSha256 ordinal limit).errors,
      error ≠ "" := by
  rw [deriveReadableLog]
  dsimp only
  split
  · simp
  · split <;> simp [toString]

theorem deriveLogRecord_errors (resourceLog scopeLog record : Json)
    (resourceAttributes scopeAttributes : AttributeMap) (rawSha256 : String) (ordinal : Nat)
    (limit : ByteLimit) :
    ∀ error ∈ (deriveLogRecord platform resourceLog scopeLog record resourceAttributes
      scopeAttributes rawSha256 ordinal limit).errors, error ≠ "" := by
  rw [deriveLogRecord]
  split
  · simp [LogOutcome.refuse, toString]
  · split
    · simp [LogOutcome.refuse, toString]
    · exact deriveReadableLog_errors platform _ _ _ _ _

theorem deriveLog_reportable {batch : DerivedBatch} (h : batch.Reportable)
    (resourceLog scopeLog record : Json) (resourceAttributes scopeAttributes : Option AttributeMap)
    (rawSha256 : String) (limit : ByteLimit) :
    (deriveLog platform resourceLog scopeLog resourceAttributes scopeAttributes rawSha256 limit
      batch record).Reportable := by
  have hcounted : DerivedBatch.Reportable
      { batch with sourceRecords := U64.saturatingAdd batch.sourceRecords 1 } :=
    ⟨U64.saturatingAdd_lt _ _, h.unknownEvents, h.errors⟩
  cases resourceAttributes with
  | none => exact hcounted
  | some outer =>
      cases scopeAttributes with
      | none => exact hcounted
      | some inner => exact hcounted.add (deriveLogRecord_errors platform _ _ _ _ _ _ _ _)

theorem deriveOtlpLogs_reportable (envelope : Json) (rawSha256 : String) (limit : ByteLimit) :
    (deriveOtlpLogs platform envelope rawSha256 limit).Reportable := by
  have hempty : DerivedBatch.empty.Reportable :=
    ⟨by decide, by decide, fun error herror => by cases herror⟩
  rw [deriveOtlpLogs]
  refine foldl_preserves _ DerivedBatch.Reportable _ (fun resource _ batch hbatch => ?_) _ ?_
  · refine foldl_preserves _ DerivedBatch.Reportable _ (fun scope _ batch hbatch => ?_) _
      (hbatch.readAttributes _ _)
    exact foldl_preserves _ DerivedBatch.Reportable _ (fun record _ batch hbatch =>
      deriveLog_reportable platform hbatch _ _ _ _ _ _ _) _ (hbatch.readAttributes _ _)
  · cases hstructure : validateOtlpStructure "otlp_logs" envelope with
    | ok result => exact hempty
    | error error =>
        exact hempty.report (validateOtlpStructure_worded _ _ error hstructure)

theorem deriveEndpoint_reportable (endpoint : CloudEndpoint) (envelope : Json)
    (rawSha256 : String) (limit : ByteLimit) :
    (deriveEndpoint platform endpoint envelope rawSha256 limit).Reportable := by
  have hzero : 0 < U64.limit := by decide
  have hone : 1 < U64.limit := by decide
  cases endpoint with
  | otlpLogs => exact deriveOtlpLogs_reportable platform envelope rawSha256 limit
  | otlpTraces =>
      refine ⟨U64.ofLength_lt _, hzero, fun error herror => ?_⟩
      simp only [deriveEndpoint, validateOtlpTraces] at herror
      split at herror
      · cases herror
      · rename_i cause hcause
        rw [List.mem_singleton.mp herror]
        refine visitOtlpEnvelope_worded (fun _ _ attributes => ?_) () cause hcause
        simp [checkIdentity, sessionAttribute_worded, turnAttribute_worded]
  | codexHook =>
      simp only [deriveEndpoint]
      cases hhook : deriveCodexHook platform envelope rawSha256 limit with
      | error error =>
          refine ⟨hone, hzero, fun other hother => ?_⟩
          rw [List.mem_singleton.mp hother]
          exact deriveCodexHook_worded platform envelope rawSha256 limit error hhook
      | ok batch =>
          rw [deriveCodexHook, Except.bind_eq_ok_iff] at hhook
          obtain ⟨capture, _, hbatch⟩ := hhook
          cases capture with
          | none =>
              cases hbatch
              exact ⟨hone, hone, fun error herror => by cases herror⟩
          | some capture =>
              obtain ⟨record, _, hresult⟩ := Except.bind_eq_ok_iff.mp hbatch
              cases hresult
              exact ⟨hone, hzero, fun error herror => by cases herror⟩

end Derived

end ChipTrace
