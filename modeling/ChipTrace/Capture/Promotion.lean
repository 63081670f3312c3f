/-
Promotion of the protocol fields of an envelope: for each trace field the
candidates of all sources are collected, one of them is selected, and the
candidates, their conflicts and the request identifiers are recorded as evidence.
-/
import ChipTrace.Capture.Validators
import ChipTrace.Lib.Json.Validity
import ChipTrace.Lib.KeepFirst

namespace ChipTrace

structure FieldCandidate where
  value : Json
  source : String
  producer : String
  authority : String
  deriving DecidableEq

def traceAliases : List (String × List String) :=
  [("task_session_id", ["task_session_id", "taskSessionId"]),
    ("session_id", ["session_id", "sessionId"]),
    ("thread_id", ["thread_id", "threadId"]),
    ("conversation_id", ["conversation_id", "conversationId"]),
    ("trace_id", ["trace_id", "traceId"]),
    ("span_id", ["span_id", "spanId"]),
    ("parent_span_id", ["parent_span_id", "parentSpanId"]),
    ("task_id", ["task_id", "taskId"]),
    ("root_session_id", ["root_session_id", "rootSessionId"]),
    ("parent_session_id", ["parent_session_id", "parentSessionId"]),
    ("goal_id", ["goal_id", "goalId"]),
    ("root_turn_id", ["root_turn_id", "rootTurnId"]),
    ("turn_id", ["turn_id", "turnId"]),
    ("agent_id", ["agent_id", "agentId"]),
    ("agent_path", ["agent_path", "agentPath", "agent_name"]),
    ("branch_id", ["branch_id", "branchId"]),
    ("previous_response_id", ["previous_response_id", "previousResponseId"]),
    ("session_final", ["session_final", "sessionFinal"]),
    ("traceparent", ["traceparent"]),
    ("trace_flags", ["trace_flags", "traceFlags"]),
    ("tracestate", ["tracestate"])]

def chiptraceHeader (field : String) : Option String :=
  match field with
  | "task_session_id" => some "x-chiptrace-task-session-id"
  | "session_id" => some "x-chiptrace-session-id"
  | "thread_id" => some "x-chiptrace-thread-id"
  | "root_session_id" => some "x-chiptrace-root-session-id"
  | "parent_session_id" => some "x-chiptrace-parent-session-id"
  | "goal_id" => some "x-chiptrace-goal-id"
  | "root_turn_id" => some "x-chiptrace-root-turn-id"
  | "turn_id" => some "x-chiptrace-turn-id"
  | "agent_id" => some "x-chiptrace-agent-id"
  | "branch_id" => some "x-chiptrace-branch-id"
  | "previous_response_id" => some "x-chiptrace-previous-response-id"
  | _ => none

def protocolValuePresent (value : Json) : Bool :=
  (value.asStr.any fun text => !Text.isBlank text) || value.isBoolean

/-- Everything that a trace field is looked up in. -/
structure CandidateSources where
  evidenced : List String
  captured : JsonMap
  requestHeaders : JsonMap
  topLevel : JsonMap
  metadata : JsonMap
  turnMetadata : JsonMap
  request : JsonMap

/-- The fields that the evidence of an envelope speaks about. -/
def evidenceFields (object : JsonMap) : List String :=
  ((object.array? "fieldEvidence").getD []).filterMap fun item =>
    (item.get? "field").bind Json.asStr

def requestOf (object : JsonMap) : JsonMap :=
  ((extractBody (object.get "requestBody")).bind Json.asObject).getD []

def metadataOf (request : JsonMap) : JsonMap :=
  (((request.get "client_metadata").or (request.get "metadata")).bind Json.asObject).getD []

def turnMetadataOf (metadata : JsonMap) : JsonMap :=
  (((metadata.str? "x-codex-turn-metadata").bind parseText).bind Json.asObject).getD []

/-- The sources of an envelope whose request body is this object. -/
def sourcesWith (object request : JsonMap) : CandidateSources where
  evidenced := evidenceFields object
  captured := (object.object? "traceContext").getD []
  requestHeaders := (object.object? "requestHeaders").getD []
  topLevel := object
  metadata := metadataOf request
  turnMetadata := turnMetadataOf (metadataOf request)
  request := request

def sourcesOf (object : JsonMap) : CandidateSources := sourcesWith object (requestOf object)

def objectCandidates (object : JsonMap) (aliases : List String)
    (origin producer authority : String) : List FieldCandidate :=
  aliases.filterMap fun name =>
    ((object.get name).filter protocolValuePresent).map fun value =>
      ⟨value, s!"{origin}.{name}", producer, authority⟩

def traceField (field : String) : String := "traceContext." ++ field

namespace CandidateSources

variable (sources : CandidateSources)

/-- The trace context counts as a source until its field has evidence. -/
def capturedCandidates (field : String) (aliases : List String) : List FieldCandidate :=
  if sources.evidenced.contains (traceField field) then []
  else objectCandidates sources.captured aliases "capture.traceContext" "capture_producer"
    "producer_asserted"

def headerCandidates (field : String) : List FieldCandidate :=
  match chiptraceHeader field with
  | none => []
  | some header =>
      match headerValue sources.requestHeaders header with
      | none => []
      | some value =>
          [⟨.str value, s!"requestHeaders.{header}", "agent_harness", "client_asserted"⟩]

/-- The candidates of one field before those of the W3C headers. -/
def fieldCandidates (field : String) (aliases : List String) : List FieldCandidate :=
  sources.headerCandidates field ++
    objectCandidates sources.topLevel aliases "capture" "capture_producer"
      "producer_asserted" ++
    objectCandidates sources.metadata aliases "requestBody.client_metadata" "codex_client"
      "client_asserted" ++
    objectCandidates sources.turnMetadata aliases
      "requestBody.client_metadata.x-codex-turn-metadata" "codex_client" "client_asserted" ++
    objectCandidates sources.request aliases "requestBody" "codex_client" "client_asserted"

end CandidateSources

def isAllZero (text : String) : Bool := text.toList.all (· == '0')

def w3cCandidate (source field value : String) : String × FieldCandidate :=
  (field, ⟨.str value, source, "w3c_trace_context", "protocol_observed"⟩)

def w3cTraceContext (headers : JsonMap) : List (String × FieldCandidate) :=
  match headerValue headers "traceparent" with
  | none => []
  | some raw =>
      match TraceParent.captures (Text.trim raw) with
      | none => []
      | some groups =>
          if groups.version == "ff" || isAllZero groups.trace || isAllZero groups.parent then []
          else
            [("traceparent", raw), ("trace_id", groups.trace), ("parent_span_id", groups.parent),
                ("trace_flags", groups.flags)].map (fun (field, value) =>
              w3cCandidate "requestHeaders.traceparent" field (Text.asciiLower value)) ++
            ((headerValue headers "tracestate").map
              (w3cCandidate "requestHeaders.tracestate" "tracestate")).toList

namespace CandidateSources

variable (sources : CandidateSources)

/-- All candidates in the order in which they are collected. -/
def keyedCandidates : List (String × FieldCandidate) :=
  (traceAliases.flatMap fun (field, aliases) =>
    (sources.capturedCandidates field aliases ++ sources.fieldCandidates field aliases).map
      fun candidate => (field, candidate)) ++ w3cTraceContext sources.requestHeaders

def byField : Table String (List FieldCandidate) :=
  Table.empty.pushAll sources.keyedCandidates

/-- The candidates of a field that do not come from the trace context. -/
def observedCandidates (field : String) (aliases : List String) : List FieldCandidate :=
  sources.fieldCandidates field aliases ++
    valuesOf field (w3cTraceContext sources.requestHeaders)

end CandidateSources

section Evidence

def fieldCandidateJson (candidate : FieldCandidate) : Json :=
  Json.mkObj [("value", candidate.value), ("source", .str candidate.source),
    ("producer", .str candidate.producer), ("authority", .str candidate.authority)]

def evidenceItem (field : String) (selected : Option Json) (candidate : FieldCandidate) : Json :=
  Json.mkObj [("value", candidate.value), ("source", .str candidate.source),
    ("producer", .str candidate.producer), ("authority", .str candidate.authority),
    ("field", .str (traceField field)), ("selected", .bool (selected == some candidate.value))]

def conflictItem (field : String) (candidates : List FieldCandidate) : Json :=
  Json.mkObj [("field", .str (traceField field)),
    ("evidence", .arr (candidates.map fieldCandidateJson))]

/-- Candidates with more than one value between them. -/
def valuesDiffer (candidates : List FieldCandidate) : Bool :=
  1 < (candidates.map fun candidate => jsonBytes candidate.value).dedup.length

def selectedValue (trace : JsonMap) (field : String) (candidates : List FieldCandidate) :
    Option Json :=
  ((trace.get field).filter protocolValuePresent).or (candidates.head?.map (·.value))

/-- The loop state of the promotion. -/
structure Promoted where
  trace : JsonMap
  evidence : List Json
  conflicts : List Json

def promoteField (state : Promoted) (entry : String × List FieldCandidate) : Promoted :=
  let (field, candidates) := entry
  let selected := selectedValue state.trace field candidates
  { trace := match selected with
      | some value => state.trace.orInsert field value
      | none => state.trace
    evidence := state.evidence ++ candidates.map (evidenceItem field selected)
    conflicts :=
      if valuesDiffer candidates then state.conflicts ++ [conflictItem field candidates]
      else state.conflicts }

def promoteTrace (sources : CandidateSources) : Promoted :=
  sources.byField.entries.foldl promoteField ⟨sources.captured, [], []⟩

/-- A request identifier of the envelope with what the headers observed. -/
structure RequestId where
  existing : Option String
  requestObserved : Option String
  responseObserved : Option String

def requestId (object : JsonMap) (field header : String) : RequestId where
  existing := object.filled? field
  requestObserved := headerOf object "requestHeaders" header
  responseObserved := headerOf object "responseHeaders" header

namespace RequestId

variable (id : RequestId)

/-- The response attests the identifier that the gateway used. -/
def observed : Option String := id.responseObserved.or id.requestObserved

def selected : Option String := id.existing.or id.observed

def evidence (field header producer : String) (evidenced : Bool) : List Json :=
  let assertion := if evidenced then none else id.existing
  [(assertion, s!"capture.{field}", "producer_asserted"),
    (id.requestObserved, s!"requestHeaders.{header}", "protocol_observed"),
    (id.responseObserved, s!"responseHeaders.{header}", "protocol_observed")].filterMap
      fun (value, source, authority) => value.map fun value =>
        Json.mkObj [("field", .str field), ("value", .str value), ("source", .str source),
          ("producer", .str producer), ("authority", .str authority),
          ("selected", .bool (id.selected == some value))]

end RequestId

/-- An identifier without a value of its own is filled from the headers. -/
def RequestId.fill (id : RequestId) (object : JsonMap) (field : String) : JsonMap :=
  match id.existing, id.observed with
  | none, some value => object.insert field (.str value)
  | _, _ => object

def promoteRequestId (object : JsonMap) (field header producer : String)
    (evidenced : List String) : JsonMap × List Json :=
  let id := requestId object field header
  (id.fill object field, id.evidence field header producer (evidenced.contains field))

def mergeArrayField (object : JsonMap) (field : String) (additions : List Json) : JsonMap :=
  object.insert field
    (.arr (keepFirst jsonBytes ((object.array? field).getD [] ++ additions)))

def isPresent (value : Option Json) : Bool := value.any fun value => !value.isNull

def captureStage (requestPresent responsePresent : Bool) : String :=
  match requestPresent, responsePresent with
  | true, true => "combined"
  | true, false => "ingress"
  | false, true => "egress"
  | false, false => "event"

def promoteProtocolFields (object : JsonMap) : JsonMap :=
  let sources := sourcesOf object
  let promoted := promoteTrace sources
  let object := object.insert "traceContext" (.obj promoted.trace)
  let (object, requestEvidence) :=
    promoteRequestId object "requestId" "x-client-request-id" "sub2api" sources.evidenced
  let (object, upstreamEvidence) :=
    promoteRequestId object "upstreamRequestId" "x-request-id" "upstream_provider"
      sources.evidenced
  let object := mergeArrayField object "fieldEvidence"
    (promoted.evidence ++ requestEvidence ++ upstreamEvidence)
  let object := mergeArrayField object "fieldEvidenceConflicts" promoted.conflicts
  object.orInsert "captureStage" (.str (captureStage (isPresent (object.get "requestBody"))
    (isPresent (object.get "responseBody"))))

end Evidence

end ChipTrace
