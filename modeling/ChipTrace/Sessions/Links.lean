/-
What ties captures together across a corpus: captures of one request share their task, and the
lifecycle of a subagent ties its Session to the one above it.
-/
import ChipTrace.Lib.OrdSet
import ChipTrace.Sessions.Identity

namespace ChipTrace.Assemble

section TaskLinks

structure TaskLinkTarget where
  taskSessionId : String
  sourceCaptureId : String
  deriving DecidableEq

/-- The task that a capture names itself. -/
def explicitTaskSessionId (capture : Json) : Option String :=
  let captured := (capture.get? "traceContext").bind fun context =>
    context.get? "task_session_id"
  ((captured.or (capture.get? "task_session_id")).bind Json.asStr).filter
    fun value => !Text.isBlank value

def headerString (capture : Json) (field name : String) : Option String :=
  (((capture.get? field).bind Json.asObject).bind fun headers =>
    headerValue headers name).filter fun value => !Text.isBlank value

def prefixed (kind : String) (values : List (Option String)) : List String :=
  values.filterMap fun value => value.map fun value => s!"{kind}:{value}"

def captureCorrelationKeys (capture : Json) : OrdSet String :=
  let response := extractBody (capture.get? "responseBody")
  let gateway := (((capture.get? "gatewayEvidence").bind fun evidence =>
    evidence.get? "request_id").bind Json.asStr).filter fun value => !Text.isBlank value
  OrdSet.ofList
    (prefixed "upstream"
        [stringField capture "upstreamRequestId",
          headerString capture "responseHeaders" "x-request-id"] ++
      prefixed "client"
        [stringField capture "requestId",
          headerString capture "requestHeaders" "x-client-request-id",
          headerString capture "responseHeaders" "x-client-request-id"] ++
      prefixed "response"
        [stringField capture "responseId",
          response.bind fun response => stringField response "id"] ++
      prefixed "gateway" [gateway])

def namespacedTaskCorrelationKeys (capture : Json) : List (String × String) :=
  let space := namespaceOf capture
  (captureCorrelationKeys capture).keys.map fun display => (s!"{space}\x00{display}", display)

def registerTaskLink (target : TaskLinkTarget) (links : Table String TaskLinkTarget)
    (key : String × String) : Except String (Table String TaskLinkTarget) :=
  match links.get? key.1 with
  | some existing =>
      if existing.taskSessionId ≠ target.taskSessionId then
        .error s!"exact request identity \"{key.2}\" in one source namespace maps to multiple task Sessions: {existing.taskSessionId} and {target.taskSessionId}"
      else .ok links
  | none => .ok (links.insert key.1 target)

def registerTaskLinks (links : Table String TaskLinkTarget) (capture : Json) :
    Except String (Table String TaskLinkTarget) :=
  match explicitTaskSessionId capture with
  | none => .ok links
  | some taskSessionId =>
      (namespacedTaskCorrelationKeys capture).foldlM
        (registerTaskLink ⟨taskSessionId, captureIdOf capture⟩) links

def buildTaskLinkIndex (captures : List Json) : Except String (Table String TaskLinkTarget) :=
  captures.foldlM registerTaskLinks Table.empty

def contextForLinking (object : JsonMap) : Except String JsonMap :=
  match object.get "traceContext" with
  | none => .ok []
  | some (.obj context) => .ok context
  | some _ => .error "traceContext must be an object for task linking"

def evidenceForLinking (object : JsonMap) : Except String (List Json) :=
  match object.get "fieldEvidence" with
  | none => .ok []
  | some (.arr evidence) => .ok evidence
  | some _ => .error "fieldEvidence must be an array for task linking"

/-- Note the task in the trace context, with the evidence for it. -/
def linkCapture (object : JsonMap) (taskSessionId : String) (matchedKeys sources : List String) :
    Except String JsonMap := do
  let context ← contextForLinking object
  let object := object.insert "traceContext"
    (.obj (JsonMap.insert context "task_session_id" (.str taskSessionId)))
  let evidence ← evidenceForLinking object
  pure (object.insert "fieldEvidence" (.arr (evidence ++ [Json.mkObj
    [("field", .str "traceContext.task_session_id"),
      ("value", .str taskSessionId),
      ("source", .str "chiptrace.assembly.exact_request_identity_join"),
      ("producer", .str "chiptrace-assembly"),
      ("authority", .str "derived"),
      ("selected", .bool true),
      ("correlation_keys", .arr (matchedKeys.map .str)),
      ("source_capture_ids", .arr (sources.map .str))]])))

/-- A capture without a task of its own gets that of the request it is part of. -/
def applyExactTaskLink (links : Table String TaskLinkTarget) (capture : Json) :
    Except String (Json × Bool) :=
  if (explicitTaskSessionId capture).isSome then .ok (capture, false)
  else
    let found := (namespacedTaskCorrelationKeys capture).filterMap fun key =>
      (links.get? key.1).map fun target => (key.2, target)
    match (OrdSet.ofList (found.map fun entry => entry.2.taskSessionId)).keys with
    | [] => .ok (capture, false)
    | [taskSessionId] =>
        match capture with
        | .obj object => do
            let linked ← linkCapture object taskSessionId (found.map Prod.fst)
              (OrdSet.ofList (found.map fun entry => entry.2.sourceCaptureId)).keys
            pure (.obj linked, true)
        | _ => .error "Capture must be an object for task linking"
    | _ => .error "Capture matches exact request identities from multiple task Sessions"

end TaskLinks

section Lineage

structure ChildSession where
  parentSessionId : String
  rootTurnId : Option String
  deriving DecidableEq

abbrev StockSessionLineage := Table String ChildSession

structure StockSessionSelection where
  rootSessionId : String
  members : Table String ChildSession

def uniqueIdentity (label : String) (values : List (Option String)) :
    Except String (Option String) :=
  match (OrdSet.ofList (values.filterMap id)).keys with
  | [] => .ok none
  | [value] => .ok (some value)
  | values => .error s!"{label} has conflicting explicit identities: {values}"

def filledField (object : Option JsonMap) (key : String) : Option String :=
  (object.bind fun object => object.str? key).filter fun value => !Text.isBlank value

namespace StockSessionLineage

/-- Note the parent of the Session that a subagent lifecycle event is about. -/
def observe (lineage : StockSessionLineage) (capture : Json) :
    Except String StockSessionLineage := do
  let event : Option JsonMap := (capture.get? "lifecycleEvent").bind Json.asObject
  let eventType := event.bind fun event => event.str? "type"
  if eventType != some "subagent_spawn" && eventType != some "subagent_join" then
    return lineage
  let source : Option JsonMap := event.bind fun event => event.object? "source_event"
  let trace : Option JsonMap := (capture.get? "traceContext").bind Json.asObject
  let child ← uniqueIdentity "subagent child Session"
    [filledField source "agent_id", filledField source "agent_thread_id",
      filledField trace "agent_id"]
  let child ← okOrText child "subagent lifecycle event has no child Session identity"
  let parent ← uniqueIdentity "subagent parent Session"
    [filledField trace "session_id", filledField source "session_id"]
  let parent ← okOrText parent "subagent lifecycle event has no parent Session identity"
  if child = parent then
    throw "subagent lifecycle event links a Session to itself"
  let rootTurnId ← uniqueIdentity "subagent root turn"
    [filledField trace "root_turn_id", filledField trace "turn_id", filledField source "turn_id"]
  match lineage.get? child with
  | none => return lineage.insert child ⟨parent, rootTurnId⟩
  | some existing =>
      if existing.parentSessionId ≠ parent then
        throw s!"subagent Session \"{child}\" has multiple explicit parents"
      if existing.rootTurnId.isSome && rootTurnId.isSome && existing.rootTurnId != rootTurnId then
        throw s!"subagent Session \"{child}\" has multiple explicit root turns"
      return lineage.insert child { existing with rootTurnId := existing.rootTurnId.or rootTurnId }
where
  okOrText (value : Option String) (message : String) : Except String String :=
    match value with
    | some value => .ok value
    | none => .error message

/-- The Sessions below those of the queue; every child is met once. -/
def descend (lineage : StockSessionLineage) : Nat → List String → OrdSet String →
    Table String ChildSession → Except String (Table String ChildSession)
  | 0, _, _, members => .ok members
  | _, [], _, members => .ok members
  | fuel + 1, parent :: queue, visited, members => do
      let children := lineage.entries.filter fun entry => entry.2.parentSessionId = parent
      match children.find? fun entry => visited.keys.contains entry.1 with
      | some entry => .error s!"subagent Session lineage contains a cycle at \"{entry.1}\""
      | none =>
          descend lineage fuel (queue ++ children.map Prod.fst)
            (visited.addAll (children.map Prod.fst)) (members.insertAll children)

def selection (lineage : StockSessionLineage) (rootSessionId : String) :
    Except String StockSessionSelection := do
  let members ← descend lineage (lineage.len + 1) [rootSessionId]
    (OrdSet.ofList [rootSessionId]) Table.empty
  pure ⟨rootSessionId, members⟩

end StockSessionLineage

namespace StockSessionSelection

def allowsSessionId (selection : StockSessionSelection) (sessionId : String) : Bool :=
  sessionId == selection.rootSessionId || (selection.members.get? sessionId).isSome

def contains (selection : StockSessionSelection) (capture : Json) : Bool :=
  (capturedTraceText capture "session_id").any selection.allowsSessionId

def insertConsistent (key expected : String) (trace : JsonMap) : Except String JsonMap :=
  match filledField (some trace) key with
  | some existing =>
      if existing ≠ expected then
        .error s!"traceContext.{key} conflicts with explicit subagent lineage"
      else .ok trace
  | none => .ok (trace.insert key (.str expected))

/-- A capture of a child Session is moved to the selected one. -/
def canonicalize (selection : StockSessionSelection) (capture : Json) :
    Except String (Json × Bool) :=
  match capturedTraceText capture "session_id" with
  | none => .ok (capture, false)
  | some source =>
      if source = selection.rootSessionId then .ok (capture, false)
      else
        match selection.members.get? source, capture, (capture.get? "traceContext").bind
            Json.asObject with
        | none, _, _ => .ok (capture, false)
        | some lineage, .obj object, some trace => do
            let trace ← insertConsistent "source_session_id" source trace
            let trace ← match filledField (some trace) "conversation_id" with
              | some conversation => insertConsistent "source_conversation_id" conversation trace
              | none => pure trace
            let trace ← insertConsistent "root_session_id" selection.rootSessionId trace
            let trace ← insertConsistent "parent_session_id" lineage.parentSessionId trace
            let trace ← insertConsistent "agent_id" source trace
            let trace := trace.orInsert "thread_id" (.str source)
            let trace := trace.insert "conversation_id" (.str selection.rootSessionId)
            let trace ← match lineage.rootTurnId with
              | some rootTurnId => insertConsistent "root_turn_id" rootTurnId trace
              | none => pure trace
            let trace := trace.insert "session_id" (.str selection.rootSessionId)
            let trace := trace.insert "session_lineage_evidence" (.str "subagent_lifecycle")
            pure (.obj (JsonMap.insert object "traceContext" (.obj trace)), true)
        | some _, _, _ => .error "selected child Capture has no traceContext object"

end StockSessionSelection

end Lineage

end ChipTrace.Assemble
