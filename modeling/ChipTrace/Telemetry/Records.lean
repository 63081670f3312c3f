/-
OTLP records of model interactions and runtime spans: trace and span identities,
bounded payload attributes and the record of one span.
-/
import ChipTrace.Capture.Envelope

namespace ChipTrace.Telemetry

def otlpPayloadAttributeMaxBytes : Nat := 20 * 1024

/-- The version of the package that writes the records. -/
def packageVersion : String := "0.6.0"

section Pointers

/-- An array index in a pointer: no sign and no leading zero. -/
def parseIndex (token : String) : Option Nat :=
  if Text.startsWith token "+" || (Text.startsWith token "0" && token.length != 1) then none
  else Decimal.parseUnsigned token.toList

def pointerStep (value : Json) (token : String) : Option Json :=
  match value with
  | .obj fields => OrdMap.lookup token fields
  | .arr items => (parseIndex token).bind fun index => items[index]?
  | _ => none

/-- The value at a path of tokens. -/
def pointer (value : Json) (tokens : List String) : Option Json :=
  tokens.foldl (fun found token => found.bind (pointerStep · token)) (some value)

def stringField (value : Json) (name : String) : Option String :=
  (value.get? name).bind Json.asStr

def pointerStr (value : Json) (tokens : List String) : Option String :=
  (pointer value tokens).bind Json.asStr

def pointerOrNull (value : Json) (tokens : List String) : Json :=
  (pointer value tokens).getD .null

def fieldOrNull (value : Json) (name : String) : Json := (value.get? name).getD .null

def optionalStr : Option String → Json
  | some text => .str text
  | none => .null

def arrayLen (value : Json) (tokens : List String) : Nat :=
  (((pointer value tokens).bind Json.asArray).map List.length).getD 0

end Pointers

section Identities

variable (sha256 : Bytes → String)

/-- Hexadecimal digits of a given number, not all of them zero. -/
def validOtelHex (value : String) (length : Nat) : Bool :=
  value.toList.length == length && value.toList.all isHexDigit && value.toList.any (· != '0')

/-- The first characters of a digest. -/
def digestPrefix (length : Nat) (seed : String) : String :=
  String.ofList ((sha256 (textBytes seed)).toList.take length)

def presentStr (value : Json) (tokens : List String) : Option String :=
  (pointerStr value tokens).filter fun text => !Text.isBlank text

def sessionId (value : Json) : Option String :=
  (presentStr value ["trace_context", "session_id"]).or
    (presentStr value ["trace_context", "task_session_id"])

def projectionTraceScope (value : Json) (identityField : String) : String :=
  match presentStr value ["trace_context", "task_session_id"] with
  | some taskSessionId => "task:" ++ taskSessionId
  | none =>
      match presentStr value ["trace_context", "session_id"] with
      | some sessionId => "session:" ++ sessionId
      | none =>
          let turn := (pointer value ["trace_context", "root_turn_id"]).or
            (pointer value ["trace_context", "turn_id"])
          match (turn.bind Json.asStr).filter fun text => !Text.isBlank text with
          | some turnId => "turn:" ++ turnId
          | none => (stringField value identityField).getD "missing"

/-- The trace named by a `traceparent` or by a trace id of its own. -/
def nativeTraceId (value : Json) : Option String :=
  let traceparent := (pointerStr value ["trace_context", "traceparent"]).bind fun text =>
    ((text.toList.splitOn '-')[1]?).map String.ofList
  (traceparent.filter fun text => validOtelHex text 32).or
    ((pointerStr value ["trace_context", "trace_id"]).filter fun text => validOtelHex text 32)

def projectionSpanId (value : Json) (identityField : String) : String :=
  digestPrefix sha256 16 ((stringField value identityField).getD "missing")

/-- The trace id and the span id of an interaction or a runtime span. -/
def projectionIds (value : Json) (identityField : String) : String × String :=
  let canonicalSessionScoped := (presentStr value ["trace_context", "task_session_id"]).isSome ||
    (presentStr value ["trace_context", "session_id"]).isSome
  let seeded := digestPrefix sha256 32 (projectionTraceScope value identityField)
  let traceId := if canonicalSessionScoped then seeded
    else ((nativeTraceId value).map Text.asciiLower).getD seeded
  (traceId, projectionSpanId sha256 value identityField)

end Identities

section Attributes

variable (sha256 : Bytes → String)

def otlpAttr (key : String) (value : Json) : Json :=
  let encoded := match value with
    | .bool value => Json.mkObj [("boolValue", .bool value)]
    | .num value => Json.mkObj [("intValue", .str (String.ofList (Json.printNumber value)))]
    | .null => Json.mkObj [("stringValue", .str "")]
    | .str value => Json.mkObj [("stringValue", .str value)]
    | value => Json.mkObj [("stringValue", .str (String.ofList (Json.print value)))]
  Json.mkObj [("key", .str key), ("value", encoded)]

/-- The longest start of a text with at most so many bytes that splits no character. -/
def utf8Prefix (maximum : Nat) : List Char → List Char
  | [] => []
  | c :: rest =>
      let size := (String.utf8EncodeChar c).length
      if size ≤ maximum then c :: utf8Prefix (maximum - size) rest else []

def payloadSummary (source encoding : String) (prefixBytes : Nat) : String :=
  String.ofList (Json.print (Json.mkObj [("truncated", .bool true), ("encoding", .str encoding),
    ("original_bytes", .num (textBytes source).length), ("sha256", .str (sha256 (textBytes source))),
    ("preview", .str (String.ofList (utf8Prefix prefixBytes source.toList)))]))

/-- The summary with the longest preview that fits, the preview halved until it does. -/
def boundedSummary (source encoding : String) : Nat → Nat → String
  | 0, prefixBytes => payloadSummary sha256 source encoding prefixBytes
  | rounds + 1, prefixBytes =>
      let encoded := payloadSummary sha256 source encoding prefixBytes
      if (textBytes encoded).length ≤ otlpPayloadAttributeMaxBytes || prefixBytes == 0 then encoded
      else boundedSummary source encoding rounds (prefixBytes / 2)

def boundedPayloadValue (value? : Option Json) : Json :=
  let value := value?.getD .null
  let (source, encoding) := match value with
    | .str text => (text, "utf8")
    | value => (String.ofList (Json.print value), "json")
  if (textBytes source).length ≤ otlpPayloadAttributeMaxBytes then value
  else
    let prefixBytes := otlpPayloadAttributeMaxBytes / 2
    .str (boundedSummary sha256 source encoding prefixBytes prefixBytes)

def compactRefs (value : Json) : Json :=
  .arr ((((value.get? "raw_capture_refs").bind Json.asArray).getD []).map fun reference =>
    Json.mkObj [("capture_id", fieldOrNull reference "capture_id"),
      ("request_body_sha256", fieldOrNull reference "request_body_sha256"),
      ("response_body_sha256", fieldOrNull reference "response_body_sha256")])

end Attributes

section Records

variable (sha256 : Bytes → String) (unixNanos : String → Option Int)

/-- Nanoseconds since the epoch; digits are taken to be that already. -/
def rfc3339Nanos (value? : Option String) : String :=
  match value? with
  | none => "0"
  | some value =>
      if value != "" && value.toList.all Decimal.isDigit then value
      else (((unixNanos value).filter (0 ≤ ·)).map fun nanos =>
        String.ofList (Json.printNumber nanos)).getD "0"

def statusCode : String → String
  | "failed" => "STATUS_CODE_ERROR"
  | "completed" => "STATUS_CODE_OK"
  | _ => "STATUS_CODE_UNSET"

/-- The parent that is written into a span: a valid span id other than its own. -/
def writtenParent (spanId : String) (parentSpanId : Option String) : Option String :=
  ((parentSpanId.filter fun value => validOtelHex value 16).filter (· != spanId)).map
    Text.asciiLower

def otlpSpan (traceId spanId : String) (parentSpanId : Option String) (name : String)
    (timing : Option String × Option String) (status : String) (attributes : List Json) : Json :=
  Json.mkObj ([("traceId", .str traceId), ("spanId", .str spanId), ("name", .str name),
      ("kind", .str "SPAN_KIND_INTERNAL"),
      ("startTimeUnixNano", .str (rfc3339Nanos unixNanos timing.1)),
      ("endTimeUnixNano", .str (rfc3339Nanos unixNanos timing.2)),
      ("attributes", .arr attributes),
      ("status", Json.mkObj [("code", .str (statusCode status)), ("message", .str status)])] ++
    ((writtenParent spanId parentSpanId).map fun parent => ("parentSpanId", .str parent)).toList)

/-- The record around a span. -/
def otlpRecord (span : Json) : Json :=
  Json.mkObj [("resourceSpans", .arr [Json.mkObj [
    ("resource", Json.mkObj [("attributes", .arr [otlpAttr "service.name" (.str "chiptrace")])]),
    ("scopeSpans", .arr [Json.mkObj [
      ("scope", Json.mkObj [("name", .str "chiptrace.otlp-export"),
        ("version", .str packageVersion)]),
      ("spans", .arr [span])]])]])]

def interactionAttributes (interaction : Json) : List Json :=
  let session := optionalStr (sessionId interaction)
  [otlpAttr "openinference.span.kind" (.str "LLM"),
    otlpAttr "session.id" session,
    otlpAttr "gen_ai.conversation.id" session,
    otlpAttr "gen_ai.operation.name" (.str "chat"),
    otlpAttr "chiptrace.protocol.endpoint"
      (.str ((pointerStr interaction ["protocol", "endpoint"]).getD "unknown")),
    otlpAttr "gen_ai.provider.name"
      (pointerOrNull interaction ["extensions", "routing", "provider_observation"]),
    otlpAttr "gen_ai.request.model" (pointerOrNull interaction ["request", "model"]),
    otlpAttr "gen_ai.response.model" (pointerOrNull interaction ["response", "model"]),
    otlpAttr "gen_ai.response.id" (pointerOrNull interaction ["response", "id"]),
    otlpAttr "gen_ai.response.tool_calls.count" (.num (arrayLen interaction ["model_tool_calls"])),
    otlpAttr "gen_ai.usage.input_tokens" (pointerOrNull interaction ["usage", "input_tokens"]),
    otlpAttr "gen_ai.usage.output_tokens" (pointerOrNull interaction ["usage", "output_tokens"]),
    otlpAttr "gen_ai.usage.cached_input_tokens"
      (pointerOrNull interaction ["usage", "cached_input_tokens"]),
    otlpAttr "gen_ai.usage.reasoning_tokens"
      (pointerOrNull interaction ["usage", "reasoning_tokens"]),
    otlpAttr "gen_ai.usage.total_tokens" (pointerOrNull interaction ["usage", "total_tokens"]),
    otlpAttr "input.mime_type" (.str "application/json"),
    otlpAttr "input.value"
      (boundedPayloadValue sha256 (pointer interaction ["request", "input_items"])),
    otlpAttr "output.mime_type" (.str "application/json"),
    otlpAttr "output.value"
      (boundedPayloadValue sha256 (pointer interaction ["response", "output_items"])),
    otlpAttr "chiptrace.raw_capture_refs" (compactRefs interaction)]

def interactionOtlp (interaction : Json) (parentSpanId : Option String) : Json :=
  let (traceId, spanId) := projectionIds sha256 interaction "interaction_id"
  otlpRecord (otlpSpan unixNanos traceId spanId parentSpanId "openai.model_interaction"
    (pointerStr interaction ["timing", "started_at"],
      pointerStr interaction ["timing", "finished_at"])
    ((pointerStr interaction ["response", "status"]).getD "incomplete")
    (interactionAttributes sha256 interaction))

def openinferenceKind : String → String
  | "task_root" | "agent" | "turn" | "rollout" => "AGENT"
  | "inference" => "LLM"
  | _ => "TOOL"

def operationName : String → String
  | "AGENT" => "invoke_agent"
  | "LLM" => "chat"
  | _ => "execute_tool"

def isToolAttribute (entry : Json) : Bool :=
  (stringField entry "key").any fun key =>
    Text.startsWith key "tool." || Text.startsWith key "gen_ai.tool."

def runtimeAttributes (span : Json) (kind : String) : List Json :=
  let session := optionalStr (sessionId span)
  let attributes :=
    [otlpAttr "openinference.span.kind" (.str kind),
      otlpAttr "session.id" session,
      otlpAttr "gen_ai.conversation.id" session,
      otlpAttr "gen_ai.operation.name" (.str (operationName kind)),
      otlpAttr "gen_ai.tool.name" (fieldOrNull span "name"),
      otlpAttr "gen_ai.tool.call.id" (fieldOrNull span "call_id"),
      otlpAttr "tool.name" (fieldOrNull span "name"),
      otlpAttr "tool.id" (fieldOrNull span "call_id"),
      otlpAttr "tool.parameters" (boundedPayloadValue sha256 (span.get? "arguments")),
      otlpAttr "tool.json_schema" (boundedPayloadValue sha256 (span.get? "tool_schema")),
      otlpAttr "input.mime_type" (.str "application/json"),
      otlpAttr "input.value" (boundedPayloadValue sha256 (span.get? "arguments")),
      otlpAttr "output.mime_type" (.str "application/json"),
      otlpAttr "output.value"
        (boundedPayloadValue sha256 ((span.get? "result").or (span.get? "error"))),
      otlpAttr "chiptrace.parent_span_id" (fieldOrNull span "parent_span_id"),
      otlpAttr "chiptrace.raw_capture_refs" ((span.get? "raw_capture_refs").getD (.arr [])),
      otlpAttr "chiptrace.runtime.lifecycle_status" (fieldOrNull span "status"),
      otlpAttr "chiptrace.runtime.semantic_status"
        (pointerOrNull span ["extensions", "semantic_status"]),
      otlpAttr "chiptrace.runtime.semantic_status_provenance"
        (pointerOrNull span ["extensions", "semantic_status_provenance"]),
      otlpAttr "chiptrace.runtime.dispatch_status"
        (pointerOrNull span ["extensions", "dispatch_status"]),
      otlpAttr "chiptrace.runtime.dispatch_status_provenance"
        (pointerOrNull span ["extensions", "dispatch_status_provenance"]),
      otlpAttr "chiptrace.runtime.process_outcome"
        (boundedPayloadValue sha256 (pointer span ["extensions", "process_outcome"]))]
  if kind = "TOOL" then attributes else attributes.filter fun entry => !isToolAttribute entry

/-- The status of a tool span comes from what the tool said, where it said something. -/
def runtimeStatus (kind lifecycleStatus : String) (semanticStatus : Option String) : String :=
  if kind = "TOOL" then
    match semanticStatus with
    | some "success" | some "completed" => "completed"
    | some "error" | some "failed" => "failed"
    | some "cancelled" => "cancelled"
    | some "timeout" => "timeout"
    | some "running" => "running"
    | some "unknown" => if lifecycleStatus = "completed" then "unknown" else lifecycleStatus
    | _ => lifecycleStatus
  else lifecycleStatus

def runtimeOtlp (span : Json) (parentSpanId : Option String) : Json :=
  let (traceId, spanId) := projectionIds sha256 span "span_id"
  let kind := openinferenceKind ((stringField span "span_kind").getD "runtime")
  otlpRecord (otlpSpan unixNanos traceId spanId parentSpanId
    ((stringField span "name").getD "runtime")
    (stringField span "started_at", stringField span "finished_at")
    (runtimeStatus kind ((stringField span "status").getD "unknown")
      (pointerStr span ["extensions", "semantic_status"]))
    (runtimeAttributes sha256 span kind))

end Records

end ChipTrace.Telemetry
