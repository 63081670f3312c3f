/-
A stored batch that is derived again without a limit, against its first derivation
under the limit of the request.
-/
import ChipTrace.Ingest.Retention
import ChipTrace.Ingest.Derived

namespace ChipTrace

section Steps

/-- What the derivation of a log export does next: report a fault of a container or
derive a record under the attributes of its resource and scope. -/
inductive LogStep where
  | report (error : String)
  | log (resourceLog scopeLog record : Json) (outer inner : Option AttributeMap)

/-- The report of attributes that cannot be read. -/
def attributeFaults (path : String) (attributes : Except String AttributeMap) : List LogStep :=
  match attributes with
  | .ok _ => []
  | .error error => [.report s!"{path}: {error}"]

def scopeSteps (resourceLog : Json) (resourceIndex : Nat) (outer : Option AttributeMap)
    (numbered : Json × Nat) : List LogStep :=
  let attributes := messageAttributes (numbered.1.get? "scope") "scope"
  attributeFaults s!"resourceLogs[{resourceIndex}].scopeLogs[{numbered.2}]" attributes ++
    (itemsOf (numbered.1.get? "logRecords")).map fun record =>
      .log resourceLog numbered.1 record outer attributes.toOption

def resourceSteps (numbered : Json × Nat) : List LogStep :=
  let attributes := messageAttributes (numbered.1.get? "resource") "resource"
  attributeFaults s!"resourceLogs[{numbered.2}]" attributes ++
    (itemsOf (numbered.1.get? "scopeLogs")).zipIdx.flatMap
      (scopeSteps numbered.1 numbered.2 attributes.toOption)

/-- The steps of an export; no limit plays a part in them. -/
def logSteps (envelope : Json) : List LogStep :=
  (match validateOtlpStructure "otlp_logs" envelope with
    | .ok () => []
    | .error error => [.report error]) ++
    (itemsOf (envelope.get? "resourceLogs")).zipIdx.flatMap resourceSteps

variable (platform : Platform) (rawSha256 : String)

def LogStep.apply (limit : ByteLimit) (batch : DerivedBatch) : LogStep → DerivedBatch
  | .report error => batch.report error
  | .log resourceLog scopeLog record outer inner =>
      deriveLog platform resourceLog scopeLog outer inner rawSha256 limit batch record

theorem readAttributes_eq (limit : ByteLimit) (batch : DerivedBatch) (path : String)
    (attributes : Except String AttributeMap) :
    batch.readAttributes path attributes =
      ((attributeFaults path attributes).foldl (LogStep.apply platform rawSha256 limit) batch,
        attributes.toOption) := by
  cases attributes <;> rfl

theorem deriveScopeLog_eq (limit : ByteLimit) (resourceLog : Json) (resourceIndex : Nat)
    (outer : Option AttributeMap) (batch : DerivedBatch) (numbered : Json × Nat) :
    deriveScopeLog platform resourceLog resourceIndex outer rawSha256 limit batch numbered =
      (scopeSteps resourceLog resourceIndex outer numbered).foldl
        (LogStep.apply platform rawSha256 limit) batch := by
  rw [deriveScopeLog, scopeSteps, List.foldl_append, List.foldl_map]
  dsimp only
  rw [readAttributes_eq platform rawSha256 limit]
  rfl

theorem deriveResourceLog_eq (limit : ByteLimit) (batch : DerivedBatch) (numbered : Json × Nat) :
    deriveResourceLog platform rawSha256 limit batch numbered =
      (resourceSteps numbered).foldl (LogStep.apply platform rawSha256 limit) batch := by
  rw [deriveResourceLog, resourceSteps, List.foldl_append, List.foldl_flatMap]
  dsimp only
  rw [readAttributes_eq platform rawSha256 limit]
  congr 1
  funext batch numbered
  exact deriveScopeLog_eq platform rawSha256 limit _ _ _ batch numbered

/-- The derivation of a log export is the run of its steps. -/
theorem deriveOtlpLogs_eq (envelope : Json) (limit : ByteLimit) :
    deriveOtlpLogs platform envelope rawSha256 limit =
      (logSteps envelope).foldl (LogStep.apply platform rawSha256 limit) DerivedBatch.empty := by
  rw [deriveOtlpLogs, logSteps, List.foldl_append, List.foldl_flatMap]
  have hstep : deriveResourceLog platform rawSha256 limit = fun batch numbered =>
      (resourceSteps numbered).foldl (LogStep.apply platform rawSha256 limit) batch := by
    funext batch numbered
    exact deriveResourceLog_eq platform rawSha256 limit batch numbered
  rw [hstep]
  congr 1
  cases validateOtlpStructure "otlp_logs" envelope <;> rfl

end Steps

section Limit

variable (platform : Platform) (maxBytes : Nat)

/-- The limit does not change whether a capture is accepted, nor the class under which
its refusal is counted. -/
def LimitSpares (context : String) (value : Json) : Prop :=
  match platform.normalizeValue none value with
  | .ok record => (jsonBytes value).length ≤ maxBytes ∧ record.canonical.length ≤ maxBytes
  | .error error =>
      (jsonBytes value).length ≤ maxBytes ∨
        classifyQualityError (context ++ error) =
          classifyQualityError (context ++ s!"capture envelope exceeds {maxBytes} bytes")

/-- Both succeed, or both fail with errors of one class. -/
def SameVerdict {α β : Type} (context : String) (first : Except String α)
    (second : Except String β) : Prop :=
  match first, second with
  | .ok _, .ok _ => True
  | .error error, .error other =>
      classifyQualityError (context ++ error) = classifyQualityError (context ++ other)
  | _, _ => False

variable {platform} {maxBytes} {context : String} {value : Json}

theorem normalizeWithin_some (maxBytes : Nat) (raw : Bytes) :
    platform.normalizeWithin (some maxBytes) raw =
      if maxBytes < raw.length then .error (.message s!"capture envelope exceeds {maxBytes} bytes")
      else platform.normalizeWithin none raw >>= fun record =>
        if maxBytes < record.canonical.length then
          .error (.message s!"normalized capture envelope exceeds {maxBytes} bytes")
        else .ok record := by
  change normalizeCapture platform.sha256 raw maxBytes = _
  rw [normalizeCapture, normalizeCaptureWithPolicy, bailIf]
  by_cases hraw : maxBytes < raw.length
  · rw [if_pos hraw, decide_eq_true hraw, if_pos rfl]
    rfl
  · rw [if_neg hraw, decide_eq_false hraw, if_neg (by decide), Except.ok_bind]
    refine congrArg _ (funext fun record => ?_)
    by_cases hstored : maxBytes < record.canonical.length
    · rw [if_pos hstored, bailIf, decide_eq_true hstored, if_pos rfl]
      rfl
    · rw [if_neg hstored, bailIf, decide_eq_false hstored, if_neg (by decide), Except.ok_bind]
      rfl

/-- A capture that fits as it is written and not as it is stored. -/
theorem normalizeValue_refused {record : CaptureRecord}
    (hwritten : (jsonBytes value).length ≤ maxBytes)
    (hrecord : platform.normalizeWithin none (jsonBytes value) = .ok record)
    (hstored : maxBytes < record.canonical.length) :
    platform.normalizeValue (some maxBytes) value =
      .error s!"normalized capture envelope exceeds {maxBytes} bytes" := by
  rw [Platform.normalizeValue, normalizeWithin_some, if_neg (Nat.not_lt.mpr hwritten), hrecord,
    Except.ok_bind, if_pos hstored]
  rfl

/-- A capture that the limit spares fares under it as it does without. -/
theorem LimitSpares.sameVerdict (h : LimitSpares platform maxBytes context value) :
    SameVerdict context (platform.normalizeValue (some maxBytes) value)
      (platform.normalizeValue none value) := by
  rw [LimitSpares] at h
  rw [Platform.normalizeValue, normalizeWithin_some]
  rw [Platform.normalizeValue] at h ⊢
  cases hread : platform.normalizeWithin none (jsonBytes value) with
  | ok record =>
      rw [hread] at h
      obtain ⟨hwritten, hstored⟩ := h
      rw [if_neg (Nat.not_lt.mpr hwritten), Except.ok_bind, if_neg (Nat.not_lt.mpr hstored)]
      trivial
  | error error =>
      rw [hread] at h
      by_cases hwritten : maxBytes < (jsonBytes value).length
      · rw [if_pos hwritten]
        exact (h.resolve_left (Nat.not_le.mpr hwritten)).symm
      · rw [if_neg hwritten]
        exact rfl

end Limit

section Records

variable (platform : Platform) (record : Json) (attributes : AttributeMap) (rawSha256 : String)
  (ordinal : Nat)

/-- The capture that a log event asks for, before it is normalised. -/
def eventCapture (eventName : String) : Except String (Option Json) :=
  if eventName == "codex.conversation_starts" then
    (conversationStartCapture platform record attributes rawSha256 ordinal).map some
  else if eventName == "codex.tool_result" then
    (toolResultCapture platform record attributes rawSha256 ordinal).map some
  else if silentLogEvents.contains eventName then .ok none
  else .ok ((attributeString attributes "conversation.id").map
    (telemetryIncompleteCapture platform record attributes rawSha256 ordinal
      s!"unsupported OTLP log event {platform.quoted eventName}"))

theorem deriveLogEvent_eq (eventName : String) (limit : ByteLimit) :
    deriveLogEvent platform record attributes rawSha256 ordinal eventName limit =
      eventCapture platform record attributes rawSha256 ordinal eventName >>= fun capture =>
        match capture with
        | none => .ok none
        | some capture => (platform.normalizeValue limit capture).map some := by
  rw [deriveLogEvent, eventCapture]
  split_ifs
  · cases conversationStartCapture platform record attributes rawSha256 ordinal <;> rfl
  · cases toolResultCapture platform record attributes rawSha256 ordinal <;> rfl
  · rfl
  · rw [deriveTelemetryIncomplete]
    cases attributeString attributes "conversation.id" <;> rfl

def recordEventName : String := (attributeString attributes "event.name").getD ""

/-- The context of an error of a log record. -/
def recordContext : String := s!"logRecords[{ordinal}] {recordEventName attributes}: "

/-- The capture of a record fares alike with and without the limit, and so do the
incomplete events that stand for it when it is refused. -/
structure RecordSpared (maxBytes : Nat) : Prop where
  event : ∀ capture, eventCapture platform record attributes rawSha256 ordinal
    (recordEventName attributes) = .ok (some capture) →
      LimitSpares platform maxBytes (recordContext attributes ordinal) capture
  fallback : ∀ cause other sessionId,
    deriveLogEvent platform record attributes rawSha256 ordinal (recordEventName attributes)
      (some maxBytes) = .error cause →
    deriveLogEvent platform record attributes rawSha256 ordinal (recordEventName attributes)
      none = .error other →
    attributeString attributes "conversation.id" = some sessionId →
    (platform.normalizeValue (some maxBytes) (telemetryIncompleteCapture platform record attributes
      rawSha256 ordinal (recordContext attributes ordinal ++ cause) sessionId)).isOk =
    (platform.normalizeValue none (telemetryIncompleteCapture platform record attributes
      rawSha256 ordinal (recordContext attributes ordinal ++ other) sessionId)).isOk

/-- Two outcomes that count the same captures and the same classes of errors. -/
structure LogOutcome.Alike (first second : LogOutcome) : Prop where
  records : first.records.length = second.records.length
  unknown : first.unknown = second.unknown
  classes : first.errors.map classifyQualityError = second.errors.map classifyQualityError

variable {platform} {record} {attributes} {rawSha256} {ordinal} {maxBytes : Nat}

theorem RecordSpared.sameVerdict
    (h : RecordSpared platform record attributes rawSha256 ordinal maxBytes) :
    SameVerdict (recordContext attributes ordinal)
      (deriveLogEvent platform record attributes rawSha256 ordinal (recordEventName attributes)
        (some maxBytes))
      (deriveLogEvent platform record attributes rawSha256 ordinal (recordEventName attributes)
        none) := by
  rw [deriveLogEvent_eq, deriveLogEvent_eq]
  cases hevent : eventCapture platform record attributes rawSha256 ordinal
      (recordEventName attributes) with
  | error error => exact rfl
  | ok capture =>
      cases capture with
      | none => trivial
      | some capture =>
          have hsame := (h.event capture hevent).sameVerdict
          simp only [Except.ok_bind]
          revert hsame
          cases platform.normalizeValue (some maxBytes) capture <;>
            cases platform.normalizeValue none capture <;> exact id

/-- Accepted events are derived into as many captures under every limit. -/
theorem deriveLogEvent_toList {eventName : String} {limit other : ByteLimit}
    {derived rederived : Option CaptureRecord}
    (hderived : deriveLogEvent platform record attributes rawSha256 ordinal eventName limit =
      .ok derived)
    (hrederived : deriveLogEvent platform record attributes rawSha256 ordinal eventName other =
      .ok rederived) : derived.toList.length = rederived.toList.length := by
  rw [deriveLogEvent_eq] at hderived hrederived
  obtain ⟨capture, hevent, hderived⟩ := Except.bind_eq_ok_iff.mp hderived
  rw [hevent, Except.ok_bind] at hrederived
  cases capture with
  | none =>
      rw [← Except.ok.inj hderived, ← Except.ok.inj hrederived]
  | some capture =>
      obtain ⟨_, _, rfl⟩ := Except.map_eq_ok_iff.mp hderived
      obtain ⟨_, _, rfl⟩ := Except.map_eq_ok_iff.mp hrederived
      rfl

theorem deriveReadableLog_eq (limit : ByteLimit) :
    deriveReadableLog platform record attributes rawSha256 ordinal limit =
      match deriveLogEvent platform record attributes rawSha256 ordinal
          (recordEventName attributes) limit with
      | .ok derived => ⟨derived.toList, !isKnownLogEvent (recordEventName attributes), []⟩
      | .error cause =>
          ⟨((attributeString attributes "conversation.id").bind fun sessionId =>
              (platform.normalizeValue limit (telemetryIncompleteCapture platform record attributes
                rawSha256 ordinal (recordContext attributes ordinal ++ cause)
                  sessionId)).toOption).toList,
            !isKnownLogEvent (recordEventName attributes),
            [recordContext attributes ordinal ++ cause]⟩ := by
  rw [deriveReadableLog]
  change (match deriveLogEvent platform record attributes rawSha256 ordinal
    (recordEventName attributes) limit with | .ok derived => _ | .error cause => _ : LogOutcome) = _
  cases deriveLogEvent platform record attributes rawSha256 ordinal
      (recordEventName attributes) limit with
  | ok derived => rfl
  | error cause =>
      have herror :
          s!"logRecords[{ordinal}] {recordEventName attributes}: {cause}" =
            recordContext attributes ordinal ++ cause := by
        simp [recordContext, recordEventName, toString, String.append_assoc]
      rw [recordEventName] at herror
      dsimp only
      rw [herror, deriveTelemetryIncomplete]
      cases attributeString attributes "conversation.id" with
      | none => rfl
      | some sessionId =>
          dsimp only
          rw [Option.bind_some]
          cases platform.normalizeValue limit (telemetryIncompleteCapture platform record
            attributes rawSha256 ordinal (recordContext attributes ordinal ++ cause) sessionId) <;>
            rfl

theorem length_bind_toList {α β γ : Type} {known : Option α} {first : α → Except String β}
    {second : α → Except String γ}
    (h : ∀ a, known = some a → (first a).isOk = (second a).isOk) :
    (known.bind fun a => (first a).toOption).toList.length =
      (known.bind fun a => (second a).toOption).toList.length := by
  cases known with
  | none => rfl
  | some a =>
      have hsame := h a rfl
      rw [Option.bind_some, Option.bind_some]
      revert hsame
      cases first a <;> cases second a <;> simp [Except.isOk, Except.toBool, Except.toOption]

/-- What a verdict on an event makes of its record. -/
def verdictOutcome (context : String) (unknown : Bool) (session : Option String)
    (incomplete : String → String → Except String CaptureRecord)
    (verdict : Except String (Option CaptureRecord)) : LogOutcome :=
  match verdict with
  | .ok derived => ⟨derived.toList, unknown, []⟩
  | .error cause =>
      ⟨(session.bind fun sessionId => (incomplete cause sessionId).toOption).toList, unknown,
        [context ++ cause]⟩

theorem verdictOutcome_alike {context : String} {unknown : Bool} {session : Option String}
    {incomplete other : String → String → Except String CaptureRecord}
    {first second : Except String (Option CaptureRecord)}
    (hsame : SameVerdict context first second)
    (hlength : ∀ derived rederived, first = .ok derived → second = .ok rederived →
      derived.toList.length = rederived.toList.length)
    (hfallback : ∀ cause again sessionId, first = .error cause → second = .error again →
      session = some sessionId → (incomplete cause sessionId).isOk = (other again sessionId).isOk) :
    LogOutcome.Alike (verdictOutcome context unknown session incomplete first)
      (verdictOutcome context unknown session other second) := by
  cases first with
  | ok derived =>
      cases second with
      | ok rederived => exact ⟨hlength derived rederived rfl rfl, rfl, rfl⟩
      | error again => exact hsame.elim
  | error cause =>
      cases second with
      | ok rederived => exact hsame.elim
      | error again =>
          refine ⟨?_, rfl, ?_⟩
          · exact length_bind_toList fun sessionId => hfallback cause again sessionId rfl rfl
          · have hclass : classifyQualityError (context ++ cause) =
                classifyQualityError (context ++ again) := hsame
            simp only [verdictOutcome, List.map_cons, List.map_nil, hclass]

theorem deriveReadableLog_verdict (limit : ByteLimit) :
    deriveReadableLog platform record attributes rawSha256 ordinal limit =
      verdictOutcome (recordContext attributes ordinal)
        (!isKnownLogEvent (recordEventName attributes))
        (attributeString attributes "conversation.id")
        (fun cause sessionId => platform.normalizeValue limit (telemetryIncompleteCapture platform
          record attributes rawSha256 ordinal (recordContext attributes ordinal ++ cause) sessionId))
        (deriveLogEvent platform record attributes rawSha256 ordinal (recordEventName attributes)
          limit) :=
  deriveReadableLog_eq limit

/-- A spared record is derived alike with and without the limit. -/
theorem RecordSpared.alike
    (h : RecordSpared platform record attributes rawSha256 ordinal maxBytes) :
    LogOutcome.Alike
      (deriveReadableLog platform record attributes rawSha256 ordinal (some maxBytes))
      (deriveReadableLog platform record attributes rawSha256 ordinal none) := by
  rw [deriveReadableLog_verdict, deriveReadableLog_verdict]
  exact verdictOutcome_alike h.sameVerdict (fun _ _ => deriveLogEvent_toList) h.fallback

end Records

section Batches

variable (platform : Platform) (rawSha256 : String) (maxBytes : Nat)

/-- A step whose record, where it can be read, is spared. -/
def LogStep.Spared (ordinal : Nat) : LogStep → Prop
  | .report _ => True
  | .log resourceLog scopeLog record outer inner =>
      ∀ outerMap innerMap own, outer = some outerMap → inner = some innerMap →
        attributesMap (record.get? "attributes") = .ok own →
        validateOtlpIdentityLayers
          [(resourceLog.get? "resource").bind (Json.get? · "attributes"),
            (scopeLog.get? "scope").bind (Json.get? · "attributes"),
            record.get? "attributes"] = .ok () →
        RecordSpared platform record
          ((outerMap.insertAll innerMap.entries).insertAll own.entries) rawSha256 ordinal maxBytes

/-- The ordinal of the next record. -/
def LogStep.next (ordinal : Nat) : LogStep → Nat
  | .report _ => ordinal
  | .log .. => U64.saturatingAdd ordinal 1

/-- Every record of the steps is spared under its ordinal. -/
def StepsSpared : Nat → List LogStep → Prop
  | _, [] => True
  | ordinal, step :: rest =>
      step.Spared platform rawSha256 maxBytes ordinal ∧ StepsSpared (step.next ordinal) rest

/-- Two derivations that count the same records, unknown events and classes of errors. -/
structure DerivedBatch.Alike (first second : DerivedBatch) : Prop where
  records : first.records.length = second.records.length
  sourceRecords : first.sourceRecords = second.sourceRecords
  unknownEvents : first.unknownEvents = second.unknownEvents
  classes : first.errors.map classifyQualityError = second.errors.map classifyQualityError

theorem DerivedBatch.Alike.refl (batch : DerivedBatch) : DerivedBatch.Alike batch batch :=
  ⟨rfl, rfl, rfl, rfl⟩

variable {platform} {rawSha256} {maxBytes}

theorem DerivedBatch.Alike.add {first second : DerivedBatch} {outcome other : LogOutcome}
    (h : DerivedBatch.Alike first second) (houtcome : LogOutcome.Alike outcome other) :
    DerivedBatch.Alike (first.add outcome) (second.add other) := by
  refine ⟨?_, h.sourceRecords, ?_, ?_⟩
  · simp only [DerivedBatch.add, List.length_append, h.records, houtcome.records]
  · simp only [DerivedBatch.add, h.unknownEvents, houtcome.unknown]
  · simp only [DerivedBatch.add, List.map_append, h.classes, houtcome.classes]

theorem LogOutcome.Alike.refl (outcome : LogOutcome) : LogOutcome.Alike outcome outcome :=
  ⟨rfl, rfl, rfl⟩

theorem deriveLogRecord_alike {resourceLog scopeLog record : Json}
    {outer inner : AttributeMap} {ordinal : Nat}
    (h : (LogStep.log resourceLog scopeLog record (some outer) (some inner)).Spared platform
      rawSha256 maxBytes ordinal) :
    LogOutcome.Alike
      (deriveLogRecord platform resourceLog scopeLog record outer inner rawSha256 ordinal
        (some maxBytes))
      (deriveLogRecord platform resourceLog scopeLog record outer inner rawSha256 ordinal
        none) := by
  rw [deriveLogRecord, deriveLogRecord]
  cases hown : attributesMap (record.get? "attributes") with
  | error error => exact LogOutcome.Alike.refl _
  | ok own =>
      dsimp only
      cases hlayers : validateOtlpIdentityLayers
          [(resourceLog.get? "resource").bind (Json.get? · "attributes"),
            (scopeLog.get? "scope").bind (Json.get? · "attributes"),
            record.get? "attributes"] with
      | error error => exact LogOutcome.Alike.refl _
      | ok _ => exact (h outer inner own rfl rfl hown hlayers).alike

/-- One step keeps two derivations alike, and numbers the next record. -/
theorem LogStep.apply_alike {first second : DerivedBatch} {step : LogStep}
    (h : DerivedBatch.Alike first second)
    (hspared : step.Spared platform rawSha256 maxBytes first.sourceRecords) :
    DerivedBatch.Alike (step.apply platform rawSha256 (some maxBytes) first)
        (step.apply platform rawSha256 none second) ∧
      (step.apply platform rawSha256 (some maxBytes) first).sourceRecords =
        step.next first.sourceRecords := by
  cases step with
  | report error =>
      refine ⟨⟨h.records, h.sourceRecords, h.unknownEvents, ?_⟩, rfl⟩
      simp only [LogStep.apply, DerivedBatch.report, List.map_append, h.classes]
  | log resourceLog scopeLog record outer inner =>
      have hcounted : DerivedBatch.Alike
          { first with sourceRecords := U64.saturatingAdd first.sourceRecords 1 }
          { second with sourceRecords := U64.saturatingAdd second.sourceRecords 1 } :=
        ⟨h.records, congrArg (U64.saturatingAdd · 1) h.sourceRecords, h.unknownEvents, h.classes⟩
      rw [LogStep.apply, LogStep.apply]
      cases outer with
      | none => exact ⟨hcounted, rfl⟩
      | some outer =>
          cases inner with
          | none => exact ⟨hcounted, rfl⟩
          | some inner =>
              refine ⟨hcounted.add ?_, rfl⟩
              rw [← h.sourceRecords]
              exact deriveLogRecord_alike hspared

/-- Over all steps: where every record is spared, both derivations are alike. -/
theorem foldl_apply_alike {steps : List LogStep} {first second : DerivedBatch}
    (h : DerivedBatch.Alike first second)
    (hspared : StepsSpared platform rawSha256 maxBytes first.sourceRecords steps) :
    DerivedBatch.Alike (steps.foldl (LogStep.apply platform rawSha256 (some maxBytes)) first)
      (steps.foldl (LogStep.apply platform rawSha256 none) second) := by
  induction steps generalizing first second with
  | nil => exact h
  | cons step rest ih =>
      obtain ⟨hstep, hrest⟩ := hspared
      obtain ⟨hnext, hordinal⟩ := LogStep.apply_alike h hstep
      refine ih hnext ?_
      rw [hordinal]
      exact hrest

variable (platform) in
/-- The records of an ingest that fare under the limit as they do without it. -/
def IngestSpared (endpoint : CloudEndpoint) (envelope : Json) (rawSha256 : String)
    (maxBytes : Nat) : Prop :=
  match endpoint with
  | .otlpLogs => StepsSpared platform rawSha256 maxBytes 0 (logSteps envelope)
  | .otlpTraces => True
  | .codexHook => ∀ capture, hookCapture platform envelope rawSha256 = .ok (some capture) →
      LimitSpares platform maxBytes "" capture

theorem deriveCodexHook_eq (envelope : Json) (rawSha256 : String) (limit : ByteLimit) :
    deriveCodexHook platform envelope rawSha256 limit =
      hookCapture platform envelope rawSha256 >>= fun capture =>
        match capture with
        | none => .ok ⟨[], 1, 1, []⟩
        | some capture => (platform.normalizeValue limit capture).map fun record =>
            ⟨[record], 1, 0, []⟩ := by
  rw [deriveCodexHook]
  refine congrArg _ (funext fun capture => ?_)
  cases capture with
  | none => rfl
  | some capture => cases platform.normalizeValue limit capture <;> rfl

/-- A spared ingest is derived alike with and without the limit. -/
theorem IngestSpared.alike {endpoint : CloudEndpoint} {envelope : Json}
    (h : IngestSpared platform endpoint envelope rawSha256 maxBytes) :
    DerivedBatch.Alike (deriveEndpoint platform endpoint envelope rawSha256 (some maxBytes))
      (deriveEndpoint platform endpoint envelope rawSha256 none) := by
  cases endpoint with
  | otlpLogs =>
      rw [deriveEndpoint, deriveEndpoint, deriveOtlpLogs_eq, deriveOtlpLogs_eq]
      exact foldl_apply_alike (DerivedBatch.Alike.refl _) h
  | otlpTraces => exact DerivedBatch.Alike.refl _
  | codexHook =>
      rw [deriveEndpoint, deriveEndpoint, deriveCodexHook_eq, deriveCodexHook_eq]
      cases hcapture : hookCapture platform envelope rawSha256 with
      | error error => exact DerivedBatch.Alike.refl _
      | ok capture =>
          cases capture with
          | none => exact DerivedBatch.Alike.refl _
          | some capture =>
              have hsame := (h capture hcapture).sameVerdict
              simp only [Except.ok_bind]
              revert hsame
              cases platform.normalizeValue (some maxBytes) capture with
              | ok record =>
                  cases platform.normalizeValue none capture with
                  | ok other => exact fun _ => ⟨rfl, rfl, rfl, rfl⟩
                  | error other => exact False.elim
              | error error =>
                  cases platform.normalizeValue none capture with
                  | ok other => exact False.elim
                  | error other =>
                      intro hsame
                      simp only [SameVerdict, String.empty_append] at hsame
                      exact ⟨rfl, rfl, rfl, congrArg (fun reason => [reason]) hsame⟩

end Batches

section Reasons

/-- A table of counts is read back from its object. -/
theorem readReasons_reasonObject {reasons : Table String Nat}
    (h : ∀ reason count, reasons.get? reason = some count → count < U64.limit) :
    readReasons (reasonObject reasons) = .ok reasons := by
  have hloop : ∀ (entries : List (String × Nat)) (start : Table String Nat),
      (∀ entry ∈ entries, entry.2 < U64.limit) →
      (entries.map fun entry => (entry.1, Json.num entry.2)).foldlM
        (fun (reasons : Table String Nat) (field : String × Json) => do
          let count ← required field.2.asU64
            "telemetryBatch.quality_error_reasons must be a reason-count object"
          pure (reasons.insert field.1 count)) start = .ok (start.insertAll entries) := by
    intro entries
    induction entries with
    | nil => exact fun start _ => rfl
    | cons entry rest ih =>
        intro start hentries
        have hcount : (Json.num (entry.2 : Int)).asU64 = some entry.2 := by
          have hentry : entry.2 < 2 ^ 64 := hentries entry List.mem_cons_self
          rw [Json.asU64, if_pos (by omega), Int.toNat_natCast]
        rw [List.map_cons, List.foldlM_cons]
        dsimp only
        rw [hcount]
        exact ih _ fun other hother => hentries other (List.mem_cons_of_mem _ hother)
  have hsame : Table.empty.insertAll reasons.entries = reasons := by
    refine Table.ext_get? fun reason => ?_
    rw [Table.get?_insertAll_entries, Table.get?_empty, Option.or_none]
  have hread := hloop reasons.entries Table.empty fun entry hentry =>
    h entry.1 entry.2 ((Table.mem_entries reasons entry.1 entry.2).mp hentry)
  rw [hsame] at hread
  exact hread

/-- The reason counts only depend on the unknown events and the classes of the errors. -/
theorem qualityErrorReasons_congr {first second : CloudIngestSummary}
    (hunknown : first.unknownEvents = second.unknownEvents)
    (hclasses : first.conversionErrors.map classifyQualityError =
      second.conversionErrors.map classifyQualityError) :
    qualityErrorReasons first = qualityErrorReasons second := by
  have hfold : ∀ summary : CloudIngestSummary, qualityErrorReasons summary =
      (summary.conversionErrors.map classifyQualityError).foldl
        (fun reasons reason => Tally.bumpSaturating reasons (reason, 1))
        (if 0 < summary.unknownEvents then
          Table.empty.insert "unsupported_event" summary.unknownEvents
        else Table.empty) := by
    intro summary
    rw [List.foldl_map]
    rfl
  rw [hfold, hfold, hunknown, hclasses]

end Reasons

section Revalidation

variable {platform : Platform} {endpoint : CloudEndpoint}

/-- Two summaries that count the same records, unknown events, errors and reasons. -/
structure CloudIngestSummary.CountsAlike (first second : CloudIngestSummary) : Prop where
  sourceRecords : first.sourceRecords = second.sourceRecords
  derivedCaptures : first.derivedCaptures = second.derivedCaptures
  unknownEvents : first.unknownEvents = second.unknownEvents
  conversionErrors : first.conversionErrors.length = second.conversionErrors.length
  reasons : qualityErrorReasons first = qualityErrorReasons second

theorem DerivedBatch.Alike.countsAlike {first second : DerivedBatch}
    (h : DerivedBatch.Alike first second) :
    CloudIngestSummary.CountsAlike (summarizeBatch endpoint first)
      (summarizeBatch endpoint second) := by
  refine ⟨h.sourceRecords, congrArg U64.ofLength h.records, h.unknownEvents, ?_,
    qualityErrorReasons_congr h.unknownEvents h.classes⟩
  have hlength := congrArg List.length h.classes
  rwa [List.length_map, List.length_map] at hlength

/-- An ingest reads its body before anything else. -/
theorem parse_of_prepareCloudIngest {raw : Bytes} {limit : ByteLimit} {batch : CloudIngestBatch}
    (h : prepareCloudIngest platform endpoint raw limit = .ok batch) :
    limit.any (· < raw.length) = false ∧ ∃ envelope, parseBytes raw = some (.obj envelope) := by
  obtain ⟨body, hbody, _⟩ := Except.bind_eq_ok_iff.mp h
  rw [readIngestBody] at hbody
  split_ifs at hbody with hempty hfits
  refine ⟨by simpa using hfits, ?_⟩
  cases htext : Bytes.decode? raw with
  | none =>
      rw [htext] at hbody
      cases hbody
  | some text =>
      rw [htext] at hbody
      dsimp only at hbody
      cases hparse : Json.parse text with
      | none =>
          rw [hparse] at hbody
          cases hbody
      | some envelope =>
          rw [hparse] at hbody
          dsimp only at hbody
          split_ifs at hbody with hobject
          cases envelope with
          | obj fields =>
              refine ⟨fields, ?_⟩
              rw [parseBytes, htext, Option.bind_some, hparse]
          | null => exact absurd rfl hobject
          | bool flag => exact absurd rfl hobject
          | num n => exact absurd rfl hobject
          | str text => exact absurd rfl hobject
          | arr items => exact absurd rfl hobject

/-- What the stored batch of a request says when it is derived again. -/
structure Revalidated (platform : Platform) (batch : CloudIngestBatch)
    (summary : CloudIngestSummary) : Prop where
  stored : ∃ record rest value, batch.records = record :: rest ∧
    parseBytes record.canonical = some value ∧
    revalidateTelemetryBatch platform value = .ok summary

variable (hdigest : ∀ bytes, isHexDigest (platform.sha256 bytes) = true) {raw : Bytes}
  {maxBytes : UInt64} {batch : CloudIngestBatch}
include hdigest

variable (endpoint) in
/-- Without a limit the ingest of a readable body always succeeds. -/
theorem prepareCloudIngest_unlimited {envelope : JsonMap}
    (hraw : parseBytes raw = some (.obj envelope)) (hlength : raw.length < U64.limit) :
    ∃ records, prepareCloudIngest platform endpoint raw none =
      .ok ⟨records, summaryOf platform endpoint envelope raw none⟩ := by
  obtain ⟨record, hrecord, _⟩ := normalizeUnbounded_batch endpoint hdigest hraw none hlength
  have hstored : platform.normalizeValue none (.obj (batchEnvelope
      (batchCaptureId platform endpoint raw) (batchOf platform endpoint envelope raw none))) =
        .ok record := normalizeValue_ok_iff.mpr hrecord
  rw [prepareCloudIngest_eq hraw Option.any_none, hstored]
  exact ⟨_, rfl⟩

omit hdigest in
/-- A stored batch is derived again, and refused when its reasons have changed. -/
theorem revalidateTelemetryBatch_of_fields {captureId rawJson name : String} {batch : JsonMap}
    {observed : Json} {reasons : Table String Nat} {prepared : CloudIngestBatch}
    (hname : JsonMap.str? batch "endpoint" = some name)
    (htext : JsonMap.str? batch "raw_json" = some rawJson)
    (hobserved : JsonMap.get batch "quality_error_reasons" = some observed)
    (hendpoint : CloudEndpoint.parse platform name = .ok endpoint)
    (hprepared : prepareCloudIngest platform endpoint (textBytes rawJson) none = .ok prepared)
    (hreasons : readReasons observed = .ok reasons) :
    revalidateTelemetryBatch platform (.obj (storedBatch captureId batch)) =
      if reasons ≠ qualityErrorReasons prepared.summary then
        .error "telemetryBatch.quality_error_reasons does not match the raw telemetry"
      else .ok prepared.summary := by
  have hbatch : ((Json.obj (storedBatch captureId batch)).get? "telemetryBatch").bind
      Json.asObject = some batch := rfl
  rw [revalidateTelemetryBatch, hbatch]
  simp only [required, Except.ok_bind, hname, htext, hendpoint, hprepared, hobserved, hreasons]
  split_ifs <;> rfl

omit hdigest in
/-- The fields of a batch that are read again. -/
theorem batchFields_read (rawJson : String) (rawBytes : Nat) (rawSha256 : String)
    (summary : CloudIngestSummary) :
    JsonMap.str? (batchFields rawJson rawBytes rawSha256 summary) "endpoint" =
        some summary.endpoint ∧
      JsonMap.str? (batchFields rawJson rawBytes rawSha256 summary) "raw_json" = some rawJson ∧
      JsonMap.get (batchFields rawJson rawBytes rawSha256 summary) "quality_error_reasons" =
        some (reasonObject (qualityErrorReasons summary)) := by
  rw [batchFields]
  generalize reasonObject (qualityErrorReasons summary) = reasons
  exact ⟨rfl, rfl, rfl⟩

theorem revalidateTelemetryBatch_stored {envelope : JsonMap} (limit : ByteLimit)
    (hraw : parseBytes raw = some (.obj envelope)) (hlength : raw.length < U64.limit) :
    revalidateTelemetryBatch platform (.obj (storedBatch (batchCaptureId platform endpoint raw)
        (batchOf platform endpoint envelope raw limit))) =
      if qualityErrorReasons (summaryOf platform endpoint envelope raw limit) ≠
          qualityErrorReasons (summaryOf platform endpoint envelope raw none) then
        .error "telemetryBatch.quality_error_reasons does not match the raw telemetry"
      else .ok (summaryOf platform endpoint envelope raw none) := by
  obtain ⟨records, hprepared⟩ := prepareCloudIngest_unlimited endpoint hdigest hraw hlength
  have hreasons : readReasons (reasonObject (qualityErrorReasons
      (summaryOf platform endpoint envelope raw limit))) =
        .ok (qualityErrorReasons (summaryOf platform endpoint envelope raw limit)) :=
    readReasons_reasonObject fun reason count hget =>
      (qualityErrorReasons_published (summaryOf_reportable limit).unknownEvents reason count
        hget).2
  have hendpoint : CloudEndpoint.parse platform
      (summaryOf platform endpoint envelope raw limit).endpoint = .ok endpoint := by
    have hname : (summaryOf platform endpoint envelope raw limit).endpoint = endpoint.asStr := rfl
    rw [hname]
    cases endpoint <;> rfl
  have hagain : prepareCloudIngest platform endpoint (textBytes (rawText raw)) none =
      .ok ⟨records, summaryOf platform endpoint envelope raw none⟩ := by
    rw [(textBytes_rawText hraw).1]
    exact hprepared
  obtain ⟨hname, htext, hobserved⟩ := batchFields_read (rawText raw) raw.length
    (platform.sha256 raw) (summaryOf platform endpoint envelope raw limit)
  exact revalidateTelemetryBatch_of_fields hname htext hobserved hendpoint hagain hreasons

end Revalidation

section SessionEnd

/-- A hook that ends a session. -/
def hookBody : Bytes :=
  textBytes
    "\x7b\"hook_event_name\":\"SessionEnd\",\"reason\":\"r\",\"session_id\":\"s\"\x7d"

def hookFields : JsonMap :=
  [("hook_event_name", .str "SessionEnd"), ("reason", .str "r"), ("session_id", .str "s")]

def hookSha256 : String := "20154829180537dc9695be217d0d56b204d249ecb977a835233fdadae6a32875"

/-- The digests of the texts that the ingest of the hook hashes, told apart by their
lengths. -/
def hookDigest (bytes : Bytes) : String :=
  match bytes.length with
  | 62 => hookSha256
  | 90 => "f6b795a429ba9a97ea75975129498eca0e68e4d7ac94b4e5bd8a37fb9d96f5ff"
  | 103 => "75057c301821bd1dc58e9745517065a0470dd94ef62fa618f1112bdb74f19b08"
  | 595 => "c82160065205febe7b5d6a50f40ed6f483f21de6977ff834c8f9ba57126eb216"
  | 630 => "d8246378257b74ea0e1d650ed80c1188b05df96daf4edb68514966e98eed08c4"
  | 663 => "b5bf79946dbbcec1c35553c4121fc2f295c1e232441222d642a98ca35c8fce39"
  | 888 => "afe84590bdc18fc637a8ecb7dcfc2f2e51bafb54aa8697eb14318bb3fedac53e"
  | 956 => "0214fb4a7e8e28661112694c2fa60efcd356cdd36bf42a9f2c10cb2c3a02953d"
  | _ => "464b4e8baf2e9111c52763c8f1e93a6a081dd761c924d2e766a920607650c2d9"

def hookPlatform : Platform where
  sha256 := hookDigest
  quoted := fun text => "\"" ++ text ++ "\""
  jsonFault := fun _ => ⟨"expected value", 1, 1⟩
  utf8Error := fun _ => "invalid utf-8 sequence of 1 bytes from index 0"
  formatUnixNanos := fun _ => none
  subtractMillis := fun _ _ => none

theorem hookDigest_hex (bytes : Bytes) : isHexDigest (hookPlatform.sha256 bytes) = true := by
  change isHexDigest (hookDigest bytes) = true
  rw [hookDigest]
  split <;> exact (isHexDigest_ofList _).trans (by decide)

theorem parse_hookBody : parseBytes hookBody = some (.obj hookFields) := by
  rw [parseBytes, hookBody, textBytes, Bytes.decode?_encode, Option.bind_some]
  exact (congrArg Json.parse String.toList_ofList).trans (by decide +kernel)

/-- The capture of the hook before it is normalised. -/
def hookObject : JsonMap :=
  derivedObject "lifecycle_event"
    "cap-cloud-f6b795a429ba9a97ea75975129498eca0e68e4d7ac94b4e5bd8a37fb9d96f5ff"
    [("requestedModelAlias", .null), ("isFinalSnapshot", .bool true),
      ("traceContext", .obj [("conversation_id", .str "s"), ("session_id", .str "s"),
        ("thread_id", .str "s")]),
      ("observedLifecycleEvents", .arr [.str "session_end"]),
      ("lifecycleEvent", .obj
        [("event_id",
            .str "hook-f6b795a429ba9a97ea75975129498eca0e68e4d7ac94b4e5bd8a37fb9d96f5ff"),
          ("occurred_at", .null), ("reason", .str "r"), ("source_event", .obj hookFields),
          ("source_event_name", .str "SessionEnd"), ("status", .str "closed"),
          ("type", .str "session_end")])]

/-- The refusal of the hook under a limit that its stored form exceeds. -/
def hookRefusal : String := s!"normalized capture envelope exceeds {1200} bytes"

/-- The size of the stored batch of the hook with this summary. -/
def hookBatchSize (summary : CloudIngestSummary) : Nat :=
  Json.byteSize (.obj (storedBatch (batchCaptureId hookPlatform .codexHook hookBody)
    (batchFields "" hookBody.length (hookPlatform.sha256 hookBody) summary))) +
      Json.escapedSize (rawText hookBody)

/-- What evaluation finds out about the hook, the costly part of this example. -/
structure HookEvaluates : Prop where
  sha256 : hookPlatform.sha256 hookBody = hookSha256
  length : hookBody.length ≤ 1200
  capture : (hookCapture hookPlatform (.obj hookFields) hookSha256).toOption =
    some (some (.obj hookObject))
  stored : ((normalizeEnvelope hookDigest true hookObject).toOption.map fun stored =>
    (jsonBytes (.obj stored.2)).length) = some 1390
  parsed : Json.parse (Json.print (.obj hookObject)) = some (.obj hookObject)
  written : (jsonBytes (.obj hookObject)).length = 630
  depth : (Json.obj hookObject).depth < Json.recursionLimit
  refusedBatch : hookBatchSize ⟨"codex_hook", 1, 0, 0, 0, [hookRefusal]⟩ ≤ 1200
  acceptedBatch : hookBatchSize ⟨"codex_hook", 1, 1, 0, 0, []⟩ ≤ 2000

theorem deriveCodexHook_of_capture {platform : Platform} {envelope capture : Json}
    {rawSha256 : String} {limit : ByteLimit}
    (hcapture : (hookCapture platform envelope rawSha256).toOption = some (some capture)) :
    deriveCodexHook platform envelope rawSha256 limit =
      (platform.normalizeValue limit capture).map fun record => ⟨[record], 1, 0, []⟩ := by
  rw [deriveCodexHook_eq]
  cases hread : hookCapture platform envelope rawSha256 with
  | error error =>
      rw [hread] at hcapture
      cases hcapture
  | ok read =>
      rw [hread] at hcapture
      obtain rfl := Option.some.inj hcapture
      rfl

section Evaluated

variable (hook : HookEvaluates)
include hook

theorem hookObject_wellFormed : (Json.obj hookObject).WellFormed :=
  Json.parse_wellFormed hook.parsed

/-- Without a limit the hook becomes a capture of this size. -/
theorem hookObject_stored :
    ∃ record, hookPlatform.normalizeWithin none (jsonBytes (.obj hookObject)) = .ok record ∧
      record.canonical.length = 1390 := by
  have hsize := hook.stored
  cases hstored : normalizeEnvelope hookDigest true hookObject with
  | error error =>
      rw [hstored] at hsize
      cases hsize
  | ok stored =>
      rw [hstored] at hsize
      obtain ⟨record, hrecord, _, hcanonical, _⟩ := normalizeUnbounded_of_stages
        (readEnvelope_jsonBytes (hookObject_wellFormed hook) hook.depth) hstored
      refine ⟨record, hrecord, ?_⟩
      rw [hcanonical]
      exact Option.some.inj hsize

theorem hookObject_refused :
    hookPlatform.normalizeValue (some 1200) (.obj hookObject) = .error hookRefusal := by
  obtain ⟨record, hrecord, hsize⟩ := hookObject_stored hook
  have hwritten := hook.written
  exact normalizeValue_refused (hwritten.le.trans (by decide)) hrecord
    (lt_of_lt_of_eq (by decide) hsize.symm)

theorem derivedFrom_hook_refused :
    derivedFrom hookPlatform .codexHook hookFields hookBody (some 1200) =
      ⟨[], 1, 0, [hookRefusal]⟩ := by
  rw [derivedFrom, deriveEndpoint, hook.sha256, deriveCodexHook_of_capture hook.capture,
    hookObject_refused hook]
  rfl

theorem summaryOf_hook_refused :
    summaryOf hookPlatform .codexHook hookFields hookBody (some 1200) =
      ⟨"codex_hook", 1, 0, 0, 0, [hookRefusal]⟩ := by
  rw [summaryOf, derivedFrom_hook_refused hook]
  rfl

theorem derivedFrom_hook_accepted {limit : ByteLimit} {record : CaptureRecord}
    (hvalue : hookPlatform.normalizeValue limit (.obj hookObject) = .ok record) :
    derivedFrom hookPlatform .codexHook hookFields hookBody limit = ⟨[record], 1, 0, []⟩ := by
  rw [derivedFrom, deriveEndpoint, hook.sha256, deriveCodexHook_of_capture hook.capture, hvalue]
  rfl

theorem summaryOf_hook_accepted {limit : ByteLimit} {record : CaptureRecord}
    (hvalue : hookPlatform.normalizeValue limit (.obj hookObject) = .ok record) :
    summaryOf hookPlatform .codexHook hookFields hookBody limit =
      ⟨"codex_hook", 1, 1, 0, 0, []⟩ := by
  have hnone : ∀ count, min count (U64.saturatingAdd 0 (U64.ofLength 0)) = 0 := by
    intro count
    exact Nat.min_zero count
  rw [summaryOf, derivedFrom_hook_accepted hook hvalue, summarizeBatch]
  exact congrArg (fun attributed => (⟨"codex_hook", 1, 1, 0, attributed, []⟩ : CloudIngestSummary))
    (hnone _)

end Evaluated

theorem hookReasons_differ :
    qualityErrorReasons ⟨"codex_hook", 1, 0, 0, 0, [hookRefusal]⟩ ≠
      qualityErrorReasons ⟨"codex_hook", 1, 1, 0, 0, []⟩ := by
  decide +kernel

theorem hookEvaluates : HookEvaluates := by
  have hall : hookPlatform.sha256 hookBody = hookSha256 ∧ hookBody.length ≤ 1200 ∧
      (hookCapture hookPlatform (.obj hookFields) hookSha256).toOption =
        some (some (.obj hookObject)) ∧
      ((normalizeEnvelope hookDigest true hookObject).toOption.map fun stored =>
        (jsonBytes (.obj stored.2)).length) = some 1390 ∧
      Json.parse (Json.print (.obj hookObject)) = some (.obj hookObject) ∧
      (jsonBytes (.obj hookObject)).length = 630 ∧
      (Json.obj hookObject).depth < Json.recursionLimit ∧
      hookBatchSize ⟨"codex_hook", 1, 0, 0, 0, [hookRefusal]⟩ ≤ 1200 ∧
      hookBatchSize ⟨"codex_hook", 1, 1, 0, 0, []⟩ ≤ 2000 := by
    -- one evaluation, so that every text is decoded once
    decide +kernel
  obtain ⟨hsha, hlength, hcapture, hstored, hparsed, hwritten, hdepth, hrefused, haccepted⟩ := hall
  exact ⟨hsha, hlength, hcapture, hstored, hparsed, hwritten, hdepth, hrefused, haccepted⟩

end SessionEnd

end ChipTrace
