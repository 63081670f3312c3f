/-
Structural checks of the parts of a capture envelope.  Each check reads a few
fields of the envelope, and its congruence lemma names them.
-/
import ChipTrace.Capture.Envelope
import ChipTrace.Lib.Result
import ChipTrace.Quality.Counters

namespace ChipTrace

/-- Two objects have the same fields under these keys. -/
def AgreeOn (keys : List String) (object other : JsonMap) : Prop :=
  ∀ key ∈ keys, object.get key = other.get key

def validateResponseStatus (value : Option Json) : Checked :=
  match value with
  | none | some .null => .ok ()
  | some value => do
      let status ← okOr
        (value.asU64.or (value.asStr.bind fun text =>
          (Decimal.parseUnsigned text.toList).filter (· < U64.limit)))
        "responseStatus must be an integer or null"
      bailIf (!(100 ≤ status && status ≤ 599)) "responseStatus must be between 100 and 599"

def sessionIdentity (trace : JsonMap) : Option String :=
  ["task_session_id", "session_id", "thread_id"].findSome? trace.filled?

def evaluationItems (object : JsonMap) : Option Json :=
  (object.get "evaluationEvidence").or (object.get "evaluation_evidence")

/-- The object that a record of this type must carry. -/
def validateRecordPayload (object : JsonMap) (recordType : String) : Checked :=
  match recordType with
  | "lifecycle_event" =>
      bailIf (object.object? "lifecycleEvent").isNone "lifecycle_event requires lifecycleEvent"
  | "tool_execution" =>
      bailIf (object.object? "toolExecution").isNone "tool_execution requires toolExecution"
  | "evaluation" =>
      bailIf (((evaluationItems object).bind Json.asArray).all List.isEmpty)
        "evaluation requires at least one evaluationEvidence item"
  | "rollout_event" =>
      bailIf (object.object? "rolloutEvent").isNone "rollout_event requires rolloutEvent"
  | "telemetry_batch" =>
      bailIf (object.object? "telemetryBatch").isNone "telemetry_batch requires telemetryBatch"
  | _ => .ok ()

def validateRecordType (object : JsonMap) : Checked :=
  match object.get "recordType" with
  | none => .ok ()
  | some recordType => do
      let recordType ← okOr recordType.asStr "recordType must be a string"
      if ! ["api_snapshot", "lifecycle_event", "tool_execution", "evaluation", "rollout_event",
          "telemetry_batch"].contains recordType then
        throw (.unsupported "recordType" recordType)
      if ["lifecycle_event", "tool_execution", "evaluation"].contains recordType then
        requireFilled object "sourceNamespace"
          s!"{recordType} requires a non-empty sourceNamespace"
        bailIf ((object.object? "traceContext").bind sessionIdentity).isNone
          s!"{recordType} requires traceContext.task_session_id, session_id, or thread_id"
      validateRecordPayload object recordType

section Digests

variable (sha256 : Bytes → String)

def digestOf (text : String) : String := sha256 (textBytes text)

def isHexDigest (digest : String) : Bool :=
  (textBytes digest).length == 64 && digest.toList.all isHexDigit

/-- A digest given by its characters is checked without decoding a text. -/
theorem isHexDigest_ofList (digits : List Char) : isHexDigest (String.ofList digits) =
    ((Bytes.encode digits).length == 64 && digits.all isHexDigit) := by
  rw [isHexDigest, textBytes, String.toList_ofList]

def validateNativePayload (index : Nat) (payload : Json) : Checked := do
  let some payload := payload.asObject
    | bail s!"native rolloutEvent.payloads[{index}] must be an object"
  ["raw_payload_id", "path", "mirror_path", "raw_json", "sha256"].forM fun field =>
    bailIf ((JsonMap.str? payload field).all fun value =>
        Text.isBlank value && field != "raw_json")
      s!"native rolloutEvent.payloads[{index}].{field} is required"
  let rawJson := (JsonMap.str? payload "raw_json").getD ""
  let _ ← withContext (readJson rawJson)
    s!"native rolloutEvent.payloads[{index}].raw_json must be JSON"
  bailIf (JsonMap.str? payload "sha256" != some (digestOf sha256 rawJson))
    "native rolloutEvent payload SHA-256 does not match raw bytes"
  bailIf (JsonMap.u64? payload "bytes" != some (textBytes rawJson).length)
    "native rolloutEvent payload length does not match raw bytes"

def validateNativeBundleEvidence (event : JsonMap) (sourceLine : String) : Checked := do
  let rawEventSha256 ← okOr (event.str? "raw_event_sha256")
    "native rolloutEvent.raw_event_sha256 is required"
  bailIf (rawEventSha256 != digestOf sha256 sourceLine)
    "native rolloutEvent.raw_event_sha256 does not match source_line"
  let manifestRaw ← okOr (event.str? "bundle_manifest_raw")
    "native rolloutEvent.bundle_manifest_raw is required"
  let manifestSha256 ← okOr (event.str? "bundle_manifest_sha256")
    "native rolloutEvent.bundle_manifest_sha256 is required"
  bailIf (manifestSha256 != digestOf sha256 manifestRaw)
    "native rolloutEvent manifest SHA-256 does not match raw bytes"
  let _ ← withContext (readJson manifestRaw)
    "native rolloutEvent.bundle_manifest_raw must be JSON"
  ((event.array? "payloads").getD []).zipIdx.forM fun (payload, index) =>
    validateNativePayload sha256 index payload

def isCanonicalMessage (message : Json) : Bool :=
  match message with
  | .obj fields =>
      (match JsonMap.str? fields "role" with
        | some role => ["system", "user", "assistant", "tool"].contains role
        | none => false) && JsonMap.containsKey fields "content"
  | _ => false

def validateRolloutEvent (object : JsonMap) : Checked :=
  match object.get "rolloutEvent" with
  | none => .ok ()
  | some event => do
      let event : JsonMap ← okOr event.asObject "rolloutEvent must be an object"
      ["schema_version", "source", "source_session_id", "source_line", "source_line_sha256",
        "classification"].forM fun field =>
          requireFilled event field s!"rolloutEvent.{field} is required"
      bailIf (event.str? "schema_version" != some "chiptrace.codex-rollout.v1")
        "rolloutEvent.schema_version is unsupported"
      bailIf (! ["codex_rollout_jsonl", "codex_rollout_trace_bundle"].contains
          ((event.str? "source").getD "")) "rolloutEvent.source is unsupported"
      bailIf (! ["known", "unknown"].contains ((event.str? "classification").getD ""))
        "rolloutEvent.classification must be known or unknown"
      bailIf (event.u64? "source_ordinal").isNone "rolloutEvent.source_ordinal is required"
      let sourceLine := (event.str? "source_line").getD ""
      let digest := (event.str? "source_line_sha256").getD ""
      bailIf (!isHexDigest digest)
        "rolloutEvent.source_line_sha256 must be a SHA-256 hex digest"
      bailIf (digest != digestOf sha256 sourceLine)
        "rolloutEvent.source_line_sha256 does not match source_line"
      if event.str? "source" == some "codex_rollout_trace_bundle" then
        validateNativeBundleEvidence sha256 event sourceLine
      bailIf ((object.get "rolloutMessages").any fun messages =>
          match messages.asArray with
          | none => true
          | some messages => messages.any fun message => !isCanonicalMessage message)
        "rolloutMessages must contain canonical messages"
      bailIf ((object.get "rolloutUsage").any fun usage => !usage.isObject)
        "rolloutUsage must be an object"

/-- The reason counts of a batch add up to its unknown events and errors. -/
def validateReasonCounts (batch : JsonMap) (reasons : JsonMap) : Checked := do
  let total ← reasons.foldlM (fun total (reason, count) => do
    bailIf (reason != legacyUnclassifiedQualityReason && !qualityReasonCodes.contains reason)
      "telemetryBatch.quality_error_reasons contains an unsupported code"
    let count ← okOr count.asU64
      "telemetryBatch.quality_error_reasons values must be non-negative integers"
    pure (U64.saturatingAdd total count)) 0
  let expected := U64.saturatingAdd ((batch.u64? "unknown_events").getD 0)
    (((batch.array? "conversion_errors").map List.length).getD 0)
  bailIf (total != expected)
    "telemetryBatch.quality_error_reasons total does not match quality errors"

def telemetryBatchSchemaVersion : String := "chiptrace.telemetry-batch.v1"

def validateTelemetryBatch (object : JsonMap) : Checked :=
  match object.get "telemetryBatch" with
  | none => .ok ()
  | some batch => do
      let batch : JsonMap ← okOr batch.asObject "telemetryBatch must be an object"
      bailIf (batch.str? "schema_version" != some telemetryBatchSchemaVersion)
        "telemetryBatch.schema_version is unsupported"
      bailIf (! ["otlp_logs", "otlp_traces", "codex_hook"].contains
          ((batch.str? "endpoint").getD "")) "telemetryBatch.endpoint is unsupported"
      let raw ← okOr (batch.str? "raw_json") "telemetryBatch.raw_json is required"
      let _ ← withContext (readJson raw) "telemetryBatch.raw_json must be JSON"
      bailIf (batch.u64? "raw_bytes" != some (textBytes raw).length)
        "telemetryBatch.raw_bytes does not match raw_json UTF-8 bytes"
      bailIf (batch.str? "raw_sha256" != some (digestOf sha256 raw))
        "telemetryBatch.raw_sha256 does not match raw_json"
      ["source_records", "derived_captures", "unknown_events"].forM fun field =>
        bailIf (batch.u64? field).isNone
          s!"telemetryBatch.{field} must be a non-negative integer"
      bailIf ((batch.get "attributed_quality_errors").any fun value => value.asU64.isNone)
        "telemetryBatch.attributed_quality_errors must be a non-negative integer"
      bailIf ((batch.array? "conversion_errors").all fun errors =>
          errors.any fun error => error.asStr.all String.isEmpty)
        "telemetryBatch.conversion_errors must contain strings"
      match batch.get "quality_error_reasons" with
      | none => .ok ()
      | some reasons => do
          let reasons : JsonMap ← okOr reasons.asObject
            "telemetryBatch.quality_error_reasons must be an object"
          validateReasonCounts batch reasons

end Digests

section Events

def isTerminalType (normalized : String) : Bool :=
  ["session_end", "session_ended", "task_end", "task_ended", "task_completed", "cancel",
    "cancelled", "canceled", "terminated", "abort", "aborted", "abandoned"].contains normalized ||
  ["session_cancel", "task_cancel", "session_fail", "task_fail"].any (Text.startsWith normalized)

def isTerminalStatus (status : String) : Bool :=
  ["success", "succeeded", "completed", "failed", "error", "cancelled", "canceled",
    "terminated", "aborted", "abandoned", "incomplete", "closed", "unknown"].contains status

def normalizedEventType (eventType : String) : String :=
  String.ofList ((Text.asciiLower (Text.trim eventType)).toList.map fun c =>
    if ['-', '.', ' ', ':'].contains c then '_' else c)

def validateLifecycleEvent (object : JsonMap) : Checked :=
  match object.get "lifecycleEvent" with
  | none => .ok ()
  | some event => do
      let event : JsonMap ← okOr event.asObject "lifecycleEvent must be an object"
      let eventType ← okOr (event.filled? "type") "lifecycleEvent.type is required"
      bailIf (128 < (textBytes eventType).length) "lifecycleEvent.type must be <= 128 bytes"
      ["event_id", "status", "reason", "occurred_at"].forM (validateOptionalString event)
      if isTerminalType (normalizedEventType eventType) then
        let status ← okOr ((event.str? "status").filter fun status => !status.isEmpty)
          "terminal lifecycleEvent requires status"
        if !isTerminalStatus (Text.asciiLower (Text.trim status)) then
          throw (.unsupported "terminal lifecycleEvent.status" status)

/-- A tool's name inside its namespace; the default namespace stays unwritten. -/
def canonicalRuntimeToolName (runtimeNamespace : Option String) (name : String) : String :=
  match (runtimeNamespace.map Text.trim).filter fun value => !value.isEmpty with
  | none | some "functions" => name
  | some runtimeNamespace => s!"{runtimeNamespace}.{name}"

def validateProcessOutcome (execution : JsonMap) : Checked :=
  match execution.get "process_outcome" with
  | none | some .null => .ok ()
  | some outcome => do
      let outcome : JsonMap ← okOr outcome.asObject
        "toolExecution.process_outcome must be an object or null"
      bailIf (outcome.str? "kind" != some "process")
        "toolExecution.process_outcome.kind must be process"
      requireFilled outcome "provenance" "toolExecution.process_outcome.provenance is required"
      match outcome.str? "state" with
      | some "exited" => do
          let exitCode ← okOr (outcome.i64? "exit_code")
            "exited toolExecution.process_outcome requires exit_code"
          let success ← okOr (outcome.bool? "success")
            "exited toolExecution.process_outcome requires success"
          bailIf (success != (exitCode == 0) || outcome.containsKey "session_id")
            "exited toolExecution.process_outcome is inconsistent"
      | some "running" =>
          bailIf ((outcome.i64? "session_id").isNone ||
              (outcome.get "success").all (fun value => !value.isNull) ||
              outcome.containsKey "exit_code")
            "running toolExecution.process_outcome is inconsistent"
      | _ => bail "unsupported toolExecution.process_outcome.state"

def isDescribedProperty (property : Json) : Bool :=
  match property with
  | .obj definition =>
      ["type", "oneOf", "anyOf", "$ref"].any (JsonMap.containsKey definition) &&
        (JsonMap.filled? definition "description").isSome
  | _ => false

def validateToolParameters (parameters : Json) : Checked := do
  let parameters : JsonMap ← okOr parameters.asObject
    "toolExecution.schema.parameters must be an object"
  bailIf (parameters.str? "type" != some "object" || (parameters.object? "properties").isNone)
    "toolExecution.schema.parameters must be an object JSON Schema"
  let properties : JsonMap := (parameters.object? "properties").getD []
  bailIf (properties.any fun (_, property) => !isDescribedProperty property)
    "toolExecution.schema parameter properties require type and description"
  bailIf ((parameters.get "required").any fun required =>
      match required.asArray with
      | none => true
      | some names => names.any fun name =>
          name.asStr.all fun name => !properties.containsKey name)
    "toolExecution.schema.parameters.required must reference defined properties"

def validateToolFormat (format : Json) : Checked := do
  let format : JsonMap ← okOr format.asObject "toolExecution.schema.format must be an object"
  ["type", "syntax", "definition"].forM fun field =>
    requireFilled format field s!"toolExecution.schema.format.{field} is required"

def isMissing (value : Option Json) : Bool := value.all Json.isNull

def validateToolExecutionResult (execution : JsonMap) (status : String) : Checked := do
  bailIf (status == "success" && isMissing (execution.get "result"))
    "successful toolExecution requires result"
  bailIf (["error", "cancelled", "timeout"].contains status &&
      isMissing (execution.get "result") && isMissing (execution.get "error"))
    "failed toolExecution requires result or error"

def validateToolSchema (execution schema : JsonMap) : Checked := do
  let name := (execution.str? "name").getD ""
  let runtimeTool := (execution.str? "runtime_tool").or (schema.str? "runtime_tool")
  let runtimeNamespace :=
    (execution.str? "runtime_namespace").or (schema.str? "runtime_namespace")
  bailIf (runtimeTool.any fun runtimeTool =>
      canonicalRuntimeToolName runtimeNamespace runtimeTool != name)
    "toolExecution runtime identity does not match toolExecution.name"
  bailIf (schema.str? "name" != some name)
    "toolExecution.schema.name must equal toolExecution.name"
  requireFilled schema "description" "toolExecution.schema.description is required"
  match schema.get "parameters", schema.get "format" with
  | none, none => bail "toolExecution.schema requires parameters or a native format"
  | some parameters, _ => validateToolParameters parameters
  | none, some format => validateToolFormat format

def validateToolExecution (object : JsonMap) : Checked :=
  match object.get "toolExecution" with
  | none => .ok ()
  | some execution => do
      let execution : JsonMap ← okOr execution.asObject "toolExecution must be an object"
      ["call_id", "name", "status", "initiator"].forM fun field =>
        requireFilled execution field s!"toolExecution.{field} is required"
      let status := (execution.str? "status").getD ""
      if ! ["started", "success", "error", "cancelled", "timeout", "unknown"].contains status then
        throw (.unsupported "toolExecution.status" status)
      bailIf ((execution.str? "status_scope").any fun scope => scope != "tool_dispatch")
        "toolExecution.status_scope must be tool_dispatch"
      validateOptionalString execution "status_provenance"
      validateProcessOutcome execution
      ["parent_call_id", "started_at", "finished_at", "initiator", "runtime_tool",
        "runtime_namespace"].forM (validateOptionalString execution)
      bailIf (!execution.containsKey "arguments") "toolExecution.arguments is required"
      bailIf (! ["assistant", "runtime", "user"].contains ((execution.str? "initiator").getD ""))
        "toolExecution.initiator must be assistant, runtime, or user"
      match execution.object? "schema" with
      | some schema => validateToolSchema execution schema
      | none =>
          let provenance : JsonMap := (execution.object? "schema_provenance").getD []
          bailIf (provenance.bool? "source_complete" != some false ||
              (provenance.filled? "source").isNone)
            "toolExecution without a captured schema requires explicit incomplete schema_provenance"
      validateToolExecutionResult execution status

def validateScore (item : JsonMap) (index : Nat) (field : String) : Checked :=
  match item.get field with
  | none => .ok ()
  | some (.num value) => bailIf (!(0 ≤ value && value ≤ 1))
      s!"evaluationEvidence[{index}].{field} must be between 0 and 1"
  | some _ => bail s!"evaluationEvidence[{index}].{field} must be a number"

def validateEvaluationItem (item : Json) (index : Nat) : Checked := do
  let item : JsonMap ← okOr item.asObject s!"evaluationEvidence[{index}] must be an object"
  let kind ← okOr (item.str? "kind") s!"evaluationEvidence[{index}].kind is required"
  if ! ["test", "build", "search", "user_correction", "final_acceptance",
      "evaluator"].contains kind then
    throw (.unsupported s!"evaluationEvidence[{index}].kind" kind)
  requireFilled item "source" s!"evaluationEvidence[{index}].source is required"
  validateOptionalString item "status"
  validateOptionalString item "observed_at"
  bailIf ((item.get "passed").any fun value => !value.isBoolean)
    s!"evaluationEvidence[{index}].passed must be a boolean"
  ["reward", "score"].forM (validateScore item index)
  bailIf (! ["status", "passed", "reward", "score"].any item.containsKey)
    s!"evaluationEvidence[{index}] requires status, passed, reward, or score"

def validateEvaluationEvidence (object : JsonMap) : Checked :=
  match evaluationItems object with
  | none => .ok ()
  | some items => do
      let items ← okOr items.asArray "evaluationEvidence must be an array"
      items.zipIdx.forM fun (item, index) => validateEvaluationItem item index

end Events

section Evidence

variable (sha256 : Bytes → String)

def validateEvidenceItem (field : String) (item : Json) (index : Nat) : Checked := do
  let item : JsonMap ← okOr item.asObject s!"{field}[{index}] must be an object"
  requireFilled item "field" s!"{field}[{index}].field is required"
  if field == "fieldEvidence" then
    ["value", "source", "producer", "authority"].forM fun required =>
      bailIf (!item.containsKey required) s!"{field}[{index}].{required} is required"
    ["source", "producer", "authority"].forM fun required =>
      requireFilled item required s!"{field}[{index}].{required} must be non-empty"
    bailIf ((item.get "selected").any fun value => !value.isBoolean)
      s!"{field}[{index}].selected must be a boolean"
  else
    bailIf ((item.array? "evidence").all fun evidence => evidence.length < 2)
      s!"{field}[{index}].evidence must contain conflicting candidates"

def validateFieldEvidence (object : JsonMap) : Checked :=
  ["fieldEvidence", "fieldEvidenceConflicts"].forM fun field =>
    match object.get field with
    | none => .ok ()
    | some items => do
        let items ← okOr items.asArray s!"{field} must be an array"
        items.zipIdx.forM fun (item, index) => validateEvidenceItem field item index

def fingerprintKeys : List String :=
  ["source", "request_id", "requested_model", "upstream_model", "response_model", "provider",
    "provider_source", "model_mapping_chain", "user_id", "api_key_id", "account_id", "group_id",
    "channel_id", "input_tokens", "api_input_tokens", "input_tokens_semantics", "output_tokens",
    "cache_creation_tokens", "cache_read_tokens", "observed_at", "usage_log_id"]

def gatewayEvidenceFingerprint (evidence : JsonMap) : String :=
  sha256 (jsonBytes (Json.mkObj (fingerprintKeys.filterMap fun key =>
    (evidence.get key).map fun value => (key, value))))

/-- The value of a header on one side of the exchange. -/
def headerOf (object : JsonMap) (side name : String) : Option String :=
  (object.object? side).bind fun headers => headerValue headers name

def observedRequestId (capture : JsonMap) (captureField : String) :
    Except CaptureError (Option String) :=
  match captureField with
  | "upstreamRequestId" => .ok (capture.str? "upstreamRequestId")
  | "requestId" => .ok (capture.str? "requestId")
  | "requestHeaders.x-client-request-id" =>
      .ok (headerOf capture "requestHeaders" "x-client-request-id")
  | "responseHeaders.x-client-request-id" =>
      .ok (headerOf capture "responseHeaders" "x-client-request-id")
  | "responseHeaders.x-request-id" => .ok (headerOf capture "responseHeaders" "x-request-id")
  | value => .error (.unsupported "gatewayEvidenceJoin.capture_field" value)

def isCommaMember (value member : String) : Bool :=
  (value.toList.splitOn ',').any fun part => Text.trim (String.ofList part) == member

def validateGatewayEvidenceJoin (capture evidence : JsonMap) (join : Json) : Checked := do
  let join : JsonMap ← okOr join.asObject "gatewayEvidenceJoin must be an object"
  bailIf (join.str? "schema_version" != some "chiptrace.gateway-enrichment.v1")
    "gatewayEvidenceJoin.schema_version is unsupported"
  bailIf (join.str? "mode" != some "exact_request_id")
    "gatewayEvidenceJoin.mode must be exact_request_id"
  ["request_id", "capture_request_id", "capture_field", "transform",
    "usage_fact_sha256"].forM fun field =>
      requireFilled join field s!"gatewayEvidenceJoin.{field} is required"
  let requestId := (join.str? "request_id").getD ""
  bailIf (evidence.str? "request_id" != some requestId)
    "gatewayEvidenceJoin.request_id must equal gatewayEvidence.request_id"
  let captured := (join.str? "capture_request_id").getD ""
  let transform := (join.str? "transform").getD ""
  let transformed ← match transform with
    | "exact" | "comma_separated_member" => .ok captured
    | "sub2api_client_prefix" => .ok s!"client:{captured}"
    | value => .error (CaptureError.unsupported "gatewayEvidenceJoin.transform" value)
  bailIf (transformed != requestId)
    "gatewayEvidenceJoin request-id transformation does not match usage evidence"
  let observed ← observedRequestId capture ((join.str? "capture_field").getD "")
  let observedMatches := if transform == "comma_separated_member" then
      observed.any fun value => isCommaMember value captured
    else observed == some captured
  bailIf (!observedMatches)
    "gatewayEvidenceJoin.capture_request_id does not match the captured field"
  let digest := (join.str? "usage_fact_sha256").getD ""
  bailIf (!isHexDigest digest)
    "gatewayEvidenceJoin.usage_fact_sha256 must be a SHA-256 hex digest"
  bailIf (digest != gatewayEvidenceFingerprint sha256 evidence)
    "gatewayEvidenceJoin.usage_fact_sha256 does not match gatewayEvidence"

/-- The input tokens that the gateway reports are the fresh and the cached ones. -/
def tokensInconsistent (evidence : JsonMap) : Bool :=
  match evidence.u64? "input_tokens", evidence.u64? "cache_read_tokens",
      evidence.u64? "api_input_tokens" with
  | some input, some cached, some apiInput => apiInput != U64.saturatingAdd input cached
  | _, _, _ => false

def validateGatewayFields (evidence : JsonMap) : Checked := do
  ["source", "request_id", "requested_model", "provider"].forM fun field =>
    requireFilled evidence field s!"gatewayEvidence.{field} is required"
  bailIf (! ["sub2api_usage_log", "sub2api.usage_logs"].contains
      ((evidence.str? "source").getD "")) "gatewayEvidence.source must identify sub2api usage logs"
  ["upstream_model", "response_model", "model_mapping_chain", "provider_source",
    "observed_at"].forM (validateOptionalString evidence)
  ["user_id", "api_key_id", "account_id", "group_id", "channel_id",
    "usage_log_id"].forM fun field =>
      bailIf ((evidence.get field).any fun value =>
          !value.isNull && !value.isString && value.asI64.isNone && value.asU64.isNone)
        s!"gatewayEvidence.{field} must be a string, integer, or null"
  ["input_tokens", "api_input_tokens", "output_tokens", "cache_creation_tokens",
    "cache_read_tokens"].forM fun field =>
      bailIf ((evidence.get field).any fun value => value.asU64.isNone)
        s!"gatewayEvidence.{field} must be a non-negative integer"
  bailIf ((evidence.str? "input_tokens_semantics").any fun semantics =>
      semantics != "sub2api_non_cached_input")
    "gatewayEvidence.input_tokens_semantics is unsupported"
  bailIf (tokensInconsistent evidence) "gatewayEvidence.api_input_tokens is inconsistent"

def captureStages : List String :=
  ["ingress", "upstream_request", "upstream_response", "egress", "combined", "event"]

def validateGatewayEvidence (object : JsonMap) : Checked := do
  ["requestId", "upstreamRequestId", "captureStage"].forM (validateOptionalString object)
  match object.str? "captureStage" with
  | some stage =>
      if !captureStages.contains stage then throw (.unsupported "captureStage" stage)
  | none => pure ()
  match object.get "gatewayEvidence" with
  | none =>
      bailIf (object.containsKey "gatewayEvidenceJoin")
        "gatewayEvidenceJoin requires gatewayEvidence"
  | some evidence => do
      let evidence : JsonMap ← okOr evidence.asObject "gatewayEvidence must be an object"
      validateGatewayFields evidence
      match object.get "gatewayEvidenceJoin" with
      | none => .ok ()
      | some join => validateGatewayEvidenceJoin sha256 object evidence join

def validateTraceContext (object : JsonMap) : Checked :=
  match object.object? "traceContext" with
  | none => .ok ()
  | some trace => do
      ["task_session_id", "session_id", "thread_id", "conversation_id", "trace_id", "span_id",
        "parent_span_id", "task_id", "root_session_id", "parent_session_id", "parent_thread_id",
        "goal_id", "root_turn_id", "turn_id", "agent_id", "agent_path", "branch_id",
        "previous_response_id", "traceparent", "tracestate",
        "trace_flags"].forM (validateOptionalString trace)
      bailIf ((trace.get "session_final").any fun value => !value.isBoolean)
        "traceContext.session_final must be a boolean"

def deliveryCountFields : List String :=
  ["responseBytesForwarded", "responseBytesForwardedAtClientClose",
    "responseProtocolTerminalByteOffset", "responseFramingDoneByteOffset"]

def deliveryFlagFields : List String :=
  ["clientRequestAborted", "clientResponseClosedBeforeFinish", "clientResponseFinished",
    "responseProtocolTerminalObservedAtClientClose", "responseFramingDoneObservedAtClientClose"]

def validateDeliveryCount (object : JsonMap) (field : String) : Checked :=
  bailIf ((object.get field).any fun value => !value.isNull && value.asU64.isNone)
    s!"{field} must be a non-negative integer or null"

def validateDeliveryFlag (object : JsonMap) (field : String) : Checked :=
  bailIf ((object.get field).any fun value => !value.isNull && !value.isBoolean)
    s!"{field} must be a boolean or null"

def validateResponseDeliveryEvidence (object : JsonMap) : Checked := do
  deliveryCountFields.forM (validateDeliveryCount object)
  deliveryFlagFields.forM (validateDeliveryFlag object)
  bailIf (match object.u64? "responseBytesForwarded",
      object.u64? "responseBytesForwardedAtClientClose" with
    | some forwarded, some atClose => decide (forwarded < atClose)
    | _, _ => false) "responseBytesForwardedAtClientClose exceeds responseBytesForwarded"

end Evidence

section Congruence

variable {sha256 : Bytes → String} {object other : JsonMap}

theorem AgreeOn.mono {keys : List String} (h : AgreeOn keys object other)
    (fewer : List String) (hfewer : ∀ key ∈ fewer, key ∈ keys) : AgreeOn fewer object other :=
  fun key hkey => h key (hfewer key hkey)

def recordTypeKeys : List String :=
  ["recordType", "sourceNamespace", "traceContext", "lifecycleEvent", "toolExecution",
    "evaluationEvidence", "evaluation_evidence", "rolloutEvent", "telemetryBatch"]

theorem validateRecordType_congr (h : AgreeOn recordTypeKeys object other) :
    validateRecordType object = validateRecordType other := by
  simp only [AgreeOn, recordTypeKeys, List.forall_mem_cons, List.not_mem_nil, false_implies,
    implies_true, and_true] at h
  obtain ⟨htype, hnamespace, htrace, hlifecycle, htool, heval, heval', hrollout, hbatch⟩ := h
  simp only [validateRecordType, validateRecordPayload, evaluationItems, requireFilled,
    JsonMap.filled?, JsonMap.str?, JsonMap.object?, htype, hnamespace, htrace, hlifecycle,
    htool, heval, heval', hrollout, hbatch]

def rolloutKeys : List String := ["rolloutEvent", "rolloutMessages", "rolloutUsage"]

theorem validateRolloutEvent_congr (h : AgreeOn rolloutKeys object other) :
    validateRolloutEvent sha256 object = validateRolloutEvent sha256 other := by
  simp only [AgreeOn, rolloutKeys, List.forall_mem_cons, List.not_mem_nil, false_implies,
    implies_true, and_true] at h
  obtain ⟨hevent, hmessages, husage⟩ := h
  simp only [validateRolloutEvent, hevent, hmessages, husage]

theorem validateTelemetryBatch_congr (h : AgreeOn ["telemetryBatch"] object other) :
    validateTelemetryBatch sha256 object = validateTelemetryBatch sha256 other := by
  simp only [validateTelemetryBatch, h "telemetryBatch" List.mem_cons_self]

theorem validateLifecycleEvent_congr (h : AgreeOn ["lifecycleEvent"] object other) :
    validateLifecycleEvent object = validateLifecycleEvent other := by
  simp only [validateLifecycleEvent, h "lifecycleEvent" List.mem_cons_self]

theorem validateToolExecution_congr (h : AgreeOn ["toolExecution"] object other) :
    validateToolExecution object = validateToolExecution other := by
  simp only [validateToolExecution, h "toolExecution" List.mem_cons_self]

theorem evaluationItems_congr (h : AgreeOn ["evaluationEvidence", "evaluation_evidence"] object
    other) : evaluationItems object = evaluationItems other := by
  simp only [evaluationItems, h "evaluationEvidence" (by simp),
    h "evaluation_evidence" (by simp)]

theorem validateEvaluationEvidence_congr
    (h : AgreeOn ["evaluationEvidence", "evaluation_evidence"] object other) :
    validateEvaluationEvidence object = validateEvaluationEvidence other := by
  simp only [validateEvaluationEvidence, evaluationItems_congr h]

theorem validateFieldEvidence_congr
    (h : AgreeOn ["fieldEvidence", "fieldEvidenceConflicts"] object other) :
    validateFieldEvidence object = validateFieldEvidence other := by
  refine List.forM_congr_of_mem fun field hfield => ?_
  rw [h field hfield]

theorem validateTraceContext_congr (h : AgreeOn ["traceContext"] object other) :
    validateTraceContext object = validateTraceContext other := by
  simp only [validateTraceContext, JsonMap.object?, h "traceContext" (by simp)]

def gatewayKeys : List String :=
  ["requestId", "upstreamRequestId", "captureStage", "gatewayEvidence", "gatewayEvidenceJoin"]

/-- The join reads the header sides through the two request identifier headers. -/
theorem validateGatewayEvidence_congr (h : AgreeOn gatewayKeys object other)
    (hheaders : ∀ side ∈ ["requestHeaders", "responseHeaders"],
      ∀ name ∈ ["x-client-request-id", "x-request-id"],
        headerOf object side name = headerOf other side name) :
    validateGatewayEvidence sha256 object = validateGatewayEvidence sha256 other := by
  have hoptional : ["requestId", "upstreamRequestId", "captureStage"].forM
        (validateOptionalString object) =
      ["requestId", "upstreamRequestId", "captureStage"].forM (validateOptionalString other) := by
    refine List.forM_congr_of_mem fun field hfield => validateOptionalString_congr ?_
    exact h.mono _ (by decide) field hfield
  have hobserved : observedRequestId object = observedRequestId other := by
    funext captureField
    simp only [observedRequestId, JsonMap.str?, h "requestId" (by decide),
      h "upstreamRequestId" (by decide),
      hheaders "requestHeaders" (by simp) "x-client-request-id" (by simp),
      hheaders "responseHeaders" (by simp) "x-client-request-id" (by simp),
      hheaders "responseHeaders" (by simp) "x-request-id" (by simp)]
  simp only [validateGatewayEvidence, validateGatewayEvidenceJoin, hoptional, hobserved,
    JsonMap.str?, JsonMap.containsKey, h "captureStage" (by decide),
    h "gatewayEvidence" (by decide), h "gatewayEvidenceJoin" (by decide)]

theorem validateResponseDeliveryEvidence_congr
    (h : AgreeOn (deliveryCountFields ++ deliveryFlagFields) object other) :
    validateResponseDeliveryEvidence object = validateResponseDeliveryEvidence other := by
  have hcounts : deliveryCountFields.forM (validateDeliveryCount object) =
      deliveryCountFields.forM (validateDeliveryCount other) := by
    refine List.forM_congr_of_mem fun field hfield => ?_
    rw [validateDeliveryCount, h.mono deliveryCountFields (by decide) field hfield,
      validateDeliveryCount]
  have hflags : deliveryFlagFields.forM (validateDeliveryFlag object) =
      deliveryFlagFields.forM (validateDeliveryFlag other) := by
    refine List.forM_congr_of_mem fun field hfield => ?_
    rw [validateDeliveryFlag, h.mono deliveryFlagFields (by decide) field hfield,
      validateDeliveryFlag]
  simp only [validateResponseDeliveryEvidence, hcounts, hflags, JsonMap.u64?,
    h "responseBytesForwarded" (by decide), h "responseBytesForwardedAtClientClose" (by decide)]

end Congruence

end ChipTrace
