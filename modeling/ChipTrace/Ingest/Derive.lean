/-
Derivation of captures from OTLP log records: the attribute map of a record, the
session starts and tool results that become captures, and the incomplete events
that stand for the records which cannot.
-/
import ChipTrace.Turns.Otlp

namespace ChipTrace

/-- Where and why the JSON reader stopped. -/
structure JsonFault where
  message : String
  line : Nat
  column : Nat

def JsonFault.text (fault : JsonFault) : String :=
  s!"{fault.message} at line {fault.line} column {fault.column}"

/-- Digests, diagnostic texts and clock arithmetic of the libraries. -/
structure Platform where
  sha256 : Bytes → String
  /-- A text quoted for a diagnostic. -/
  quoted : String → String
  /-- The JSON reader's fault for bytes that it refuses. -/
  jsonFault : Bytes → JsonFault
  /-- The text decoder's message for bytes that it refuses. -/
  utf8Error : Bytes → String
  formatUnixNanos : Int → Option String
  /-- The RFC 3339 time so many milliseconds before another. -/
  subtractMillis : String → Nat → Option String

/-- A byte limit; `none` is the greatest machine size, which no length exceeds. -/
abbrev ByteLimit := Option Nat

namespace Platform

variable (platform : Platform)

/-- The chain of messages of an error. -/
def render (jsonText : String) : CaptureError → String
  | .json => jsonText
  | .message text => text
  | .unsupported field value => s!"unsupported {field} {platform.quoted value}"
  | .context text cause => s!"{text}: {render jsonText cause}"

def normalizeWithin (limit : ByteLimit) (raw : Bytes) : Except CaptureError CaptureRecord :=
  match limit with
  | some maxBytes => normalizeCapture platform.sha256 raw maxBytes
  | none => normalizeUnbounded platform.sha256 raw true

def normalizeValue (limit : ByteLimit) (value : Json) : Except String CaptureRecord :=
  match platform.normalizeWithin limit (jsonBytes value) with
  | .ok record => .ok record
  | .error error => .error (platform.render (platform.jsonFault (jsonBytes value)).text error)

/-- A digest of texts, each preceded by its length. -/
def stableDigest (components : List String) : String :=
  platform.sha256 (components.flatMap fun component =>
    (List.range 8).reverse.map (fun i => UInt8.ofNat ((textBytes component).length / 256 ^ i)) ++
      textBytes component)

end Platform

theorem normalizeValue_ok_iff {platform : Platform} {limit : ByteLimit} {value : Json}
    {record : CaptureRecord} :
    platform.normalizeValue limit value = .ok record ↔
      platform.normalizeWithin limit (jsonBytes value) = .ok record := by
  rw [Platform.normalizeValue]
  cases platform.normalizeWithin limit (jsonBytes value) <;> simp

def cloudSourceNamespace : String := "stock-codex-cloud"

section Values

/-- An `AnyValue` as plain JSON, down to a depth. -/
def otlpAnyValueWithin : Nat → Json → Json
  | 0, value => value
  | depth + 1, value =>
      match value with
      | .obj object =>
          match JsonMap.get object "stringValue" with
          | some value => value
          | none =>
          match JsonMap.get object "boolValue" with
          | some value => value
          | none =>
          match JsonMap.get object "intValue" with
          | some value =>
              match value.asI64.or ((value.asStr.bind fun text =>
                  Decimal.parseSigned text.toList).filter fun integer =>
                    -2 ^ 63 ≤ integer && integer < 2 ^ 63) with
              | some integer => .num integer
              | none => value
          | none =>
          match (JsonMap.get object "doubleValue").or (JsonMap.get object "bytesValue") with
          | some value => value
          | none =>
          match ((JsonMap.get object "arrayValue").bind (Json.get? · "values")).bind
              Json.asArray with
          | some values => .arr (values.map (otlpAnyValueWithin depth))
          | none =>
          match ((JsonMap.get object "kvlistValue").bind (Json.get? · "values")).bind
              Json.asArray with
          | some values => Json.mkObj (values.filterMap fun item =>
              match (item.get? "key").bind Json.asStr, item.get? "value" with
              | some key, some value => some (key, otlpAnyValueWithin depth value)
              | _, _ => none)
          | none => .obj object
      | value => value

/-- Nesting is bounded by the depth of the value. -/
def otlpAnyValue (value : Json) : Json := otlpAnyValueWithin (value.depth + 1) value

abbrev AttributeMap := Table String Json

/-- The attributes of a list as plain values, in its order. -/
def attributeValues (attributes : Option Json) : List (String × Json) :=
  (itemsOf attributes).filterMap fun entry => do
    let key ← otlpAttributeKey entry
    let value ← entry.get? "value"
    pure (key, otlpAnyValue value)

def attributesMap (attributes : Option Json) : Except String AttributeMap := do
  validateOtlpAttributes attributes
  pure (Table.empty.insertAll (attributeValues attributes))

def attributeString (attributes : AttributeMap) (key : String) : Option String :=
  ((attributes.get? key).bind Json.asStr).filter fun value => !Text.isBlank value

def requiredAttribute (attributes : AttributeMap) (key : String) : Except String String :=
  match attributeString attributes key with
  | some value => .ok value
  | none => .error s!"{key} is required"

def firstAttributeString (attributes : AttributeMap) (keys : List String) : Option String :=
  keys.findSome? (attributeString attributes)

/-- A boolean, or the text of one. -/
def readBool (value : Json) : Option Bool :=
  value.asBool.or (value.asStr.bind fun text =>
    match text with
    | "true" => some true
    | "false" => some false
    | _ => none)

def attributeBool (attributes : AttributeMap) (key : String) : Option Bool :=
  (attributes.get? key).bind readBool

def valueU64 (value : Json) : Option Nat :=
  value.asU64.or (value.asStr.bind fun text =>
    (Decimal.parseUnsigned text.toList).filter (· < U64.limit))

def optionalNonemptyString (value : Json) (key : String) : Option String :=
  ((value.get? key).bind Json.asStr).filter fun value => !Text.isBlank value

/-- A missing text is null. -/
def optionalText (text : Option String) : Json := (text.map Json.str).getD .null

def parseJsonStringOrClone (value : Json) : Json :=
  (value.asStr.bind parseText).getD value

def removeNullFields (fields : List (String × Json)) : Json :=
  Json.mkObj (fields.filter fun field => !field.2.isNull)

end Values

section Records

variable (platform : Platform)

def recordTimestamp (record : Json) (attributes : AttributeMap) : Option String :=
  (attributeString attributes "event.timestamp").or do
    let text ← (optionalNonemptyString record "timeUnixNano").or
      (optionalNonemptyString record "observedTimeUnixNano")
    let nanos ← (Decimal.parseSigned text.toList).filter fun nanos =>
      -2 ^ 127 ≤ nanos && nanos < 2 ^ 127
    platform.formatUnixNanos nanos

def startedAt (attributes : AttributeMap) (finishedAt : Option String) : Option String := do
  let durationMs ← (attributes.get? "duration_ms").bind valueU64
  let finished ← finishedAt
  if durationMs < 2 ^ 63 then platform.subtractMillis finished durationMs else none

def logTurnAliases : List String := ["turn.id", "turn_id", "codex.turn_id"]

def logRootTurnAliases : List String := ["root_turn.id", "root_turn_id", "codex.root_turn_id"]

def traceContextFields (record : Json) (attributes : AttributeMap) (sessionId : String) :
    List (String × Json) :=
  [("session_id", .str sessionId), ("thread_id", .str sessionId),
    ("conversation_id", .str sessionId),
    ("trace_id", optionalText (optionalNonemptyString record "traceId")),
    ("span_id", optionalText (optionalNonemptyString record "spanId")),
    ("parent_span_id", optionalText ((attributeString attributes "parent.span_id").or
      (attributeString attributes "parent_span_id"))),
    ("turn_id", optionalText (firstAttributeString attributes logTurnAliases)),
    ("root_turn_id", optionalText (firstAttributeString attributes logRootTurnAliases)),
    ("agent_id", optionalText (firstAttributeString attributes
      ["agent.id", "agent_id", "codex.agent_id"])),
    ("branch_id", optionalText (firstAttributeString attributes ["branch.id", "branch_id"]))]

def traceContext (record : Json) (attributes : AttributeMap) (sessionId : String) : Json :=
  removeNullFields (traceContextFields record attributes sessionId)

/-- A capture of one derived event. -/
def derivedCapture (recordType captureId : String) (fields : List (String × Json)) : Json :=
  Json.mkObj ([("recordType", .str recordType), ("captureId", .str captureId),
    ("captureStage", .str "event"), ("sourceNamespace", .str cloudSourceNamespace)] ++ fields)

/-- The incomplete event that stands for a record of a known session. -/
def telemetryIncompleteCapture (record : Json) (attributes : AttributeMap)
    (rawSha256 : String) (ordinal : Nat) (reason sessionId : String) : Json :=
  let occurredAt := optionalText (recordTimestamp platform record attributes)
  let eventId := platform.stableDigest [rawSha256, toString ordinal, "telemetry_incomplete"]
  derivedCapture "lifecycle_event" s!"cap-cloud-{eventId}"
    [("receivedAt", occurredAt), ("traceContext", traceContext record attributes sessionId),
      ("observedLifecycleEvents", .arr [.str "telemetry_incomplete"]),
      ("lifecycleEvent", Json.mkObj
        [("event_id", .str s!"otel-{eventId}"), ("type", .str "telemetry_incomplete"),
          ("status", .str "incomplete"), ("reason", .str reason), ("occurred_at", occurredAt),
          ("source_event_name", optionalText (attributeString attributes "event.name"))])]

def deriveTelemetryIncomplete (record : Json) (attributes : AttributeMap) (rawSha256 : String)
    (ordinal : Nat) (reason : String) (limit : ByteLimit) :
    Except String (Option CaptureRecord) :=
  match attributeString attributes "conversation.id" with
  | none => .ok none
  | some sessionId =>
      (platform.normalizeValue limit (telemetryIncompleteCapture platform record attributes
        rawSha256 ordinal reason sessionId)).map some

def conversationStartCapture (record : Json) (attributes : AttributeMap) (rawSha256 : String)
    (ordinal : Nat) : Except String Json := do
  let sessionId ← requiredAttribute attributes "conversation.id"
  let occurredAt := optionalText (recordTimestamp platform record attributes)
  let eventId := platform.stableDigest [rawSha256, toString ordinal, "session_start"]
  pure (derivedCapture "lifecycle_event" s!"cap-cloud-{eventId}"
    [("requestedModelAlias", optionalText (attributeString attributes "model")),
      ("receivedAt", occurredAt), ("traceContext", traceContext record attributes sessionId),
      ("observedLifecycleEvents", .arr [.str "session_start"]),
      ("lifecycleEvent", Json.mkObj
        [("event_id", .str s!"otel-{eventId}"), ("type", .str "session_start"),
          ("status", .str "started"), ("occurred_at", occurredAt),
          ("source_event_name", .str "codex.conversation_starts")])])

def isStockUnifiedExecTool (toolNamespace : Option String) (name : String) : Bool :=
  (toolNamespace.all fun value => value == "" || value == "functions") &&
    (name == "exec_command" || name == "write_stdin")

/-- What the header lines of a tool's output have told so far. -/
structure OutcomeScan where
  sawWallTime : Bool
  sawOutputBoundary : Bool
  outcome : Option Json
  ambiguous : Bool

def processProvenance : String := "stock_codex.unified_exec.log_output.header"

def exitedOutcome (exitCode : Int) : Json :=
  Json.mkObj [("kind", .str "process"), ("state", .str "exited"), ("exit_code", .num exitCode),
    ("success", .bool (exitCode == 0)), ("provenance", .str processProvenance)]

def runningOutcome (sessionId : Int) : Json :=
  Json.mkObj [("kind", .str "process"), ("state", .str "running"), ("session_id", .num sessionId),
    ("success", .null), ("provenance", .str processProvenance)]

/-- The integer behind a line's fixed text, within a machine size. -/
def lineInteger (line pattern : String) (bits : Nat) : Option Int :=
  ((Text.stripPrefix? line pattern).bind fun value => Decimal.parseSigned value.toList).filter
    fun value => -2 ^ (bits - 1) ≤ value && value < 2 ^ (bits - 1)

/-- One line; nothing after the output boundary or a second outcome is read. -/
def scanOutcomeLine (scan : OutcomeScan) (line : String) : OutcomeScan :=
  let outcome? := ((lineInteger line "Process exited with code " 32).map exitedOutcome).or
    ((lineInteger line "Process running with session ID " 64).map runningOutcome)
  if scan.sawOutputBoundary || scan.ambiguous then scan
  else if line == "Output:" then { scan with sawOutputBoundary := true }
  else if Text.startsWith line "Wall time: " && Text.endsWith line " seconds" then
    { scan with sawWallTime := true }
  else match outcome? with
    | none => scan
    | some outcome =>
        if scan.outcome.isSome then { scan with ambiguous := true }
        else { scan with outcome := some outcome }

def processOutcome (runtimeNamespace : Option String) (runtimeTool : String) (output : Json) :
    Option Json :=
  if !isStockUnifiedExecTool runtimeNamespace runtimeTool then none
  else do
    let output ← output.asStr
    let scan := (Text.lines output).foldl scanOutcomeLine ⟨false, false, none, false⟩
    if scan.ambiguous then none
    else if scan.sawWallTime && scan.sawOutputBoundary then scan.outcome
    else none

def toolResultCapture (record : Json) (attributes : AttributeMap) (rawSha256 : String)
    (ordinal : Nat) : Except String Json := do
  let sessionId ← requiredAttribute attributes "conversation.id"
  let callId ← requiredAttribute attributes "call_id"
  let runtimeTool ← requiredAttribute attributes "tool_name"
  let runtimeNamespace := attributeString attributes "tool_namespace"
  let name := canonicalRuntimeToolName runtimeNamespace runtimeTool
  let arguments ← match attributes.get? "arguments" with
    | some value => pure (parseJsonStringOrClone value)
    | none => .error "arguments is required"
  let output ← match attributes.get? "output" with
    | some value => pure value
    | none => .error "output is required"
  let success ← match attributeBool attributes "success" with
    | some success => pure success
    | none => .error "success is required"
  let outputTruncated := attributeBool attributes "output_truncated"
  let finishedAt := recordTimestamp platform record attributes
  let startedText := optionalText (startedAt platform attributes finishedAt)
  let digest := platform.stableDigest [rawSha256, toString ordinal, "tool_result"]
  pure (derivedCapture "tool_execution" s!"cap-cloud-{digest}"
    [("requestedModelAlias", optionalText (attributeString attributes "model")),
      ("receivedAt", optionalText finishedAt), ("startedAt", startedText),
      ("finishedAt", optionalText finishedAt),
      ("traceContext", traceContext record attributes sessionId),
      ("toolExecution", Json.mkObj
        [("call_id", .str callId),
          ("parent_call_id", optionalText (attributeString attributes "parent_call_id")),
          ("name", .str name), ("runtime_tool", .str runtimeTool),
          ("runtime_namespace", optionalText runtimeNamespace),
          ("status", .str (if success then "success" else "error")),
          ("status_scope", .str "tool_dispatch"),
          ("status_provenance", .str "codex.tool_result.success"),
          ("initiator", .str "assistant"), ("arguments", arguments), ("result", output),
          ("error", if success then .null else output),
          ("process_outcome", (processOutcome runtimeNamespace runtimeTool output).getD .null),
          ("schema_provenance", Json.mkObj
            [("source", .str "openai_wire_tool_definition"), ("source_complete", .bool false),
              ("reason", .str ("OTLP tool results do not contain Tool Schema; " ++
                "Assembly must join the observed Wire definition"))]),
          ("started_at", startedText), ("finished_at", optionalText finishedAt),
          ("model_call_matched", .bool false),
          ("result_content_captured", .bool (outputTruncated == some false)),
          ("output_truncated", (outputTruncated.map Json.bool).getD .null),
          ("duration_ms", (attributes.get? "duration_ms").getD .null),
          ("tool_result_seq", (attributes.get? "tool_result_seq").getD .null),
          ("source_event_name", .str "codex.tool_result")])])

end Records

section Logs

/-- The captures, counts and errors of an export so far. -/
structure DerivedBatch where
  records : List CaptureRecord
  sourceRecords : Nat
  unknownEvents : Nat
  errors : List String

namespace DerivedBatch

def empty : DerivedBatch := ⟨[], 0, 0, []⟩

def report (batch : DerivedBatch) (error : String) : DerivedBatch :=
  { batch with errors := batch.errors ++ [error] }

end DerivedBatch

/-- What one log record adds to its export. -/
structure LogOutcome where
  records : List CaptureRecord
  unknown : Bool
  errors : List String

def LogOutcome.refuse (error : String) : LogOutcome := ⟨[], false, [error]⟩

def DerivedBatch.add (batch : DerivedBatch) (outcome : LogOutcome) : DerivedBatch :=
  { batch with
    records := batch.records ++ outcome.records
    unknownEvents :=
      if outcome.unknown then U64.saturatingAdd batch.unknownEvents 1 else batch.unknownEvents
    errors := batch.errors ++ outcome.errors }

/-- Events that need no capture of their own. -/
def silentLogEvents : List String :=
  ["codex.user_prompt", "codex.api_request", "codex.sse_event", "codex.tool_decision",
    "codex.sandbox_outcome", "codex.startup_phase", "codex.turn_ttft", "codex.turn_cost",
    "codex.plugin_install_elicitation_sent", "codex.plugin_install_suggestion",
    "codex.websocket_connect", "codex.websocket_request", "codex.auth_recovery",
    "codex.agent_communication"]

def isKnownLogEvent (eventName : String) : Bool :=
  eventName == "codex.conversation_starts" || eventName == "codex.tool_result" ||
    silentLogEvents.contains eventName

variable (platform : Platform)

def deriveLogEvent (record : Json) (attributes : AttributeMap) (rawSha256 : String)
    (ordinal : Nat) (eventName : String) (limit : ByteLimit) :
    Except String (Option CaptureRecord) :=
  if eventName == "codex.conversation_starts" then do
    let capture ← conversationStartCapture platform record attributes rawSha256 ordinal
    (platform.normalizeValue limit capture).map some
  else if eventName == "codex.tool_result" then do
    let capture ← toolResultCapture platform record attributes rawSha256 ordinal
    (platform.normalizeValue limit capture).map some
  else if silentLogEvents.contains eventName then .ok none
  else deriveTelemetryIncomplete platform record attributes rawSha256 ordinal
    s!"unsupported OTLP log event {platform.quoted eventName}" limit

/-- A log record whose attributes are readable; a failed derivation leaves an incomplete
event where the session is known. -/
def deriveReadableLog (record : Json) (attributes : AttributeMap) (rawSha256 : String)
    (ordinal : Nat) (limit : ByteLimit) : LogOutcome :=
  let eventName := (attributeString attributes "event.name").getD ""
  let unknown := !isKnownLogEvent eventName
  match deriveLogEvent platform record attributes rawSha256 ordinal eventName limit with
  | .ok derived => ⟨derived.toList, unknown, []⟩
  | .error cause =>
      let error := s!"logRecords[{ordinal}] {eventName}: {cause}"
      match deriveTelemetryIncomplete platform record attributes rawSha256 ordinal error limit with
      | .ok (some incomplete) => ⟨[incomplete], unknown, [error]⟩
      | _ => ⟨[], unknown, [error]⟩

/-- A log record under the attributes of its resource and scope. -/
def deriveLogRecord (resourceLog scopeLog record : Json)
    (resourceAttributes scopeAttributes : AttributeMap) (rawSha256 : String) (ordinal : Nat)
    (limit : ByteLimit) : LogOutcome :=
  match attributesMap (record.get? "attributes") with
  | .error error => .refuse s!"logRecords[{ordinal}]: {error}"
  | .ok recordAttributes =>
      match validateOtlpIdentityLayers
        [(resourceLog.get? "resource").bind (Json.get? · "attributes"),
          (scopeLog.get? "scope").bind (Json.get? · "attributes"),
          record.get? "attributes"] with
      | .error error => .refuse s!"logRecords[{ordinal}]: {error}"
      | .ok () =>
          deriveReadableLog platform record
            ((resourceAttributes.insertAll scopeAttributes.entries).insertAll
              recordAttributes.entries) rawSha256 ordinal limit

def deriveLog (resourceLog scopeLog : Json)
    (resourceAttributes scopeAttributes : Option AttributeMap) (rawSha256 : String)
    (limit : ByteLimit) (batch : DerivedBatch) (record : Json) : DerivedBatch :=
  let ordinal := batch.sourceRecords
  let batch := { batch with sourceRecords := U64.saturatingAdd batch.sourceRecords 1 }
  match resourceAttributes, scopeAttributes with
  | some resourceAttributes, some scopeAttributes =>
      batch.add (deriveLogRecord platform resourceLog scopeLog record resourceAttributes
        scopeAttributes rawSha256 ordinal limit)
  | _, _ => batch

/-- The attributes of a metadata message. -/
def messageAttributes (message : Option Json) (field : String) : Except String AttributeMap := do
  let attributes ← otlpMessageAttributes message field
  attributesMap attributes

/-- The attributes, or their error under a path. -/
def DerivedBatch.readAttributes (batch : DerivedBatch) (path : String)
    (attributes : Except String AttributeMap) : DerivedBatch × Option AttributeMap :=
  match attributes with
  | .ok attributes => (batch, some attributes)
  | .error error => (batch.report s!"{path}: {error}", none)

def deriveScopeLog (resourceLog : Json) (resourceIndex : Nat)
    (resourceAttributes : Option AttributeMap) (rawSha256 : String) (limit : ByteLimit)
    (batch : DerivedBatch) (numbered : Json × Nat) : DerivedBatch :=
  let scopeLog := numbered.1
  let (batch, scopeAttributes) := batch.readAttributes
    s!"resourceLogs[{resourceIndex}].scopeLogs[{numbered.2}]"
    (messageAttributes (scopeLog.get? "scope") "scope")
  (itemsOf (scopeLog.get? "logRecords")).foldl (deriveLog platform resourceLog scopeLog
    resourceAttributes scopeAttributes rawSha256 limit) batch

def deriveResourceLog (rawSha256 : String) (limit : ByteLimit) (batch : DerivedBatch)
    (numbered : Json × Nat) : DerivedBatch :=
  let resourceLog := numbered.1
  let (batch, resourceAttributes) := batch.readAttributes s!"resourceLogs[{numbered.2}]"
    (messageAttributes (resourceLog.get? "resource") "resource")
  (itemsOf (resourceLog.get? "scopeLogs")).zipIdx.foldl (deriveScopeLog platform resourceLog
    numbered.2 resourceAttributes rawSha256 limit) batch

/-- Malformed containers are reported; what can be read is still derived. -/
def deriveOtlpLogs (envelope : Json) (rawSha256 : String) (limit : ByteLimit) : DerivedBatch :=
  let start := match validateOtlpStructure "otlp_logs" envelope with
    | .ok () => DerivedBatch.empty
    | .error error => DerivedBatch.empty.report error
  (itemsOf (envelope.get? "resourceLogs")).zipIdx.foldl (deriveResourceLog platform rawSha256
    limit) start

end Logs

end ChipTrace
