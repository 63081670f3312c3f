/-
The assembly of captures into Sessions: captures are read once, linked, selected and written to
partitions; the captures of a partition are grouped by their Session, every group becomes one
record, and the records of one task are given the graph of their Sessions.
-/
import ChipTrace.Lib.Grouping
import ChipTrace.Sessions.Batches

namespace ChipTrace.Assemble

def sessionSchemaVersion : String := "chiptrace.session.v1"

/-- What a Session record says besides its identity and its place in the task. -/
structure SessionContent where
  provider : Json
  model : Json
  createdAt : Json
  endedAt : Json
  status : Json
  isFinalSnapshot : Json
  sourceRequestCount : Json
  systemPrompt : Json
  tools : Json
  messages : Json
  usage : Json
  details : JsonMap
  divergences : Nat

/-- What the assembly is given: digests, the order of the captures of a group, the rest of a
record, the schema of records, and the current adapter of telemetry batches. -/
structure Assembler where
  sha256 : String → String
  keyHash : String → Nat
  sortCaptures : List Json → List Json
  sorted_perm : ∀ captures, (sortCaptures captures).Perm captures
  content : List Json → Except String SessionContent
  validateSession : Json → Except String Unit
  revalidateTelemetryBatch : Json → Except String BatchQuality

section Trace

/-- The trace of a Session while the traces of its captures are merged. -/
structure TraceMerge where
  trace : JsonMap := []
  collected : Table String (OrdSet String) := Table.empty
  turnIds : OrdSet String := Table.empty
  previousResponseIds : OrdSet String := Table.empty
  spanIds : OrdSet String := Table.empty
  parentSpanIds : OrdSet String := Table.empty
  conflicts : OrdSet String := Table.empty

def TraceMerge.addScoped (merge : TraceMerge) (key : String) (value : Option String) :
    TraceMerge :=
  match value with
  | some value =>
      { merge with collected :=
          merge.collected.insert key (((merge.collected.get? key).getD Table.empty).add value) }
  | none => merge

def addText (set : OrdSet String) (value : Option String) : OrdSet String :=
  match value with
  | some value => set.add value
  | none => set

/-- Ids that differ between captures are collected; of any other field the first value stays. -/
def TraceMerge.observe (merge : TraceMerge) (field : String × Json) : TraceMerge :=
  let (key, value) := field
  if value.isNull then merge
  else if ["session_id", "conversation_id", "thread_id", "agent_id", "agent_path"].contains key
    then merge.addScoped key (value.asStr.filter fun text => !Text.isBlank text)
  else if ["turn_id", "root_turn_id"].contains key then
    { merge with turnIds := addText merge.turnIds value.asStr }
  else if key = "span_id" then { merge with spanIds := addText merge.spanIds value.asStr }
  else if key = "parent_span_id" then
    { merge with parentSpanIds := addText merge.parentSpanIds value.asStr }
  else if key = "previous_response_id" then
    { merge with previousResponseIds := addText merge.previousResponseIds value.asStr }
  else if ["trace_id", "traceparent"].contains key then merge.addScoped key value.asStr
  else if (merge.trace.get key).any fun existing => existing != value then
    { merge with conflicts := merge.conflicts.add key }
  else { merge with trace := merge.trace.orInsert key value }

def textArray (set : OrdSet String) : Json := .arr (set.keys.map .str)

/-- One id is written as itself, several as a list. -/
def insertScopedTraceValues (collected : Table String (OrdSet String)) (trace : JsonMap)
    (names : String × String) : JsonMap :=
  let (singular, plural) := names
  match ((collected.get? singular).getD Table.empty).keys with
  | [] => trace
  | [value] => (trace.insert plural (.arr [.str value])).insert singular (.str value)
  | values => (trace.insert plural (.arr (values.map .str))).remove singular

def insertIds (trace : JsonMap) (singular plural : String) (ids : OrdSet String) : JsonMap :=
  match ids.keys with
  | [] => trace
  | [value] => trace.insert singular (.str value)
  | values => trace.insert plural (.arr (values.map .str))

def insertSpans (trace : JsonMap) (plural : String) (ids : OrdSet String) : JsonMap :=
  if ids.keys.isEmpty then trace else trace.insert plural (textArray ids)

def TraceMerge.finish (merge : TraceMerge) : JsonMap :=
  let trace := [("session_id", "session_ids"), ("conversation_id", "conversation_ids"),
    ("thread_id", "thread_ids"), ("agent_id", "agent_ids"), ("agent_path", "agent_paths"),
    ("trace_id", "trace_ids"), ("traceparent", "traceparents")].foldl
      (insertScopedTraceValues merge.collected) merge.trace
  let trace := insertIds trace "turn_id" "turn_ids" merge.turnIds
  let trace := insertIds trace "previous_response_id" "previous_response_ids"
    merge.previousResponseIds
  insertSpans (insertSpans trace "span_ids" merge.spanIds) "parent_span_ids" merge.parentSpanIds

def mergeTraces (captures : List Json) : JsonMap :=
  ((captures.flatMap traceOf).foldl TraceMerge.observe {}).finish

end Trace

/-- A Session record, with its metadata apart. -/
structure Session where
  fields : JsonMap
  details : JsonMap

namespace Session

def value (session : Session) : Json :=
  .obj (session.fields.insert "meta" (.obj session.details))

def text (session : Session) (key : String) : Option String :=
  (session.fields.str? key).filter fun value => !Text.isBlank value

def sessionId (session : Session) : String := (session.text "session_id").getD "missing"

def trace (session : Session) : JsonMap := (session.details.object? "trace").getD []

/-- The Session at the root of the task. -/
def rootSessionId (session : Session) : String :=
  (((session.trace.get "root_session_id").or (session.trace.get "parent_session_id")).bind
    Json.asStr).getD session.sessionId

/-- Sessions under one key are of one task. -/
def taskKey (session : Session) : String :=
  let space := (session.details.str? "source_namespace").getD "default"
  let root := session.rootSessionId
  s!"{space}\x00{root}"

end Session

section Groups

variable (assembler : Assembler)

def sourceNamespace (captures : List Json) : String :=
  match (OrdSet.ofList (captures.map namespaceOf)).keys with
  | [space] => space
  | _ => "multi-source"

/-- The record of the captures of one Session; they are of one identity. -/
def sessionOf (ordered : List Json) (identity : String × String) (content : SessionContent) :
    Session where
  fields := Json.mkFields
    [("schema_version", .str sessionSchemaVersion),
      ("trajectory_id",
        let identitySource := identity.2
        let session := identity.1
        let digest := assembler.sha256 s!"{identitySource}\x00{session}"
        .str s!"traj-{digest}"),
      ("session_id", .str identity.1),
      ("dataset", .str "chiptrace"),
      ("provider", content.provider),
      ("model", content.model),
      ("created_at", content.createdAt),
      ("ended_at", content.endedAt),
      ("status", content.status),
      ("is_final_snapshot", content.isFinalSnapshot),
      ("source_request_count", content.sourceRequestCount),
      ("source_capture_count", .num ordered.length),
      ("system_prompt", content.systemPrompt),
      ("tools", content.tools),
      ("messages", content.messages),
      ("usage", content.usage)]
  details :=
    ((((JsonMap.insert content.details "source_capture_ids"
        (.arr (ordered.map fun capture => .str (captureIdOf capture)))).insert
      "session_identity_source" (.str identity.2)).insert
      "source_namespace" (.str (sourceNamespace ordered))).insert
      "source_namespaces" (textArray (OrdSet.ofList (ordered.map namespaceOf)))).insert
      "trace" (.obj (mergeTraces ordered))

def orphanSource : String := "capture_id_fallback"

structure AssembledGroup where
  session : Session
  orphan : Bool
  divergences : Nat

def assembleGroup (captures : List Json) : Except String AssembledGroup := do
  let content ← assembler.content captures
  match assembler.sortCaptures captures with
  | [] => .error "empty capture group"
  | first :: rest =>
      let identity := identityOf first
      if rest.any fun capture => identityOf capture != identity then
        .error "capture partition mixed different session identities"
      else
        .ok
          { session := sessionOf assembler (first :: rest) identity content
            orphan := identity.2 == orphanSource
            divergences := content.divergences }

/-- The captures of each Session, in the order of their keys. -/
def groupsOf (captures : List Json) : List (List Json) :=
  ((Table.empty : Table String (List Json)).pushAll
    (captures.map fun capture => (sessionGroupKey capture, capture))).entries.map Prod.snd

end Groups

section TaskGraph

def taskNode (root : String) (session : Session) : Json :=
  let role := if session.sessionId = root then "root" else "subagent"
  Json.mkObj
    [("session_id", .str session.sessionId),
      ("trajectory_id", (session.fields.get "trajectory_id").getD .null),
      ("parent_session_id", ((session.trace.str? "parent_session_id").map .str).getD .null),
      ("agent_id", (session.trace.get "agent_id").getD .null),
      ("branch_id", (session.trace.get "branch_id").getD .null),
      ("role", .str role),
      ("detachable", .bool (role == "subagent"))]

def taskEdge (session : Session) : Option Json :=
  (session.trace.str? "parent_session_id").map fun parent =>
    Json.mkObj
      [("from", .str parent), ("to", .str session.sessionId), ("kind", .str "subagent")]

/-- The Sessions of one task and how they are linked. -/
def taskGraph (root : String) (sessions : List Session) : Json :=
  let sessionIds := OrdSet.ofList (sessions.filterMap fun session => session.text "session_id")
  let unresolved := OrdSet.ofList
    ((sessions.filterMap fun session => session.trace.str? "parent_session_id").filter
      fun parent => !sessionIds.keys.contains parent)
  Json.mkObj
    [("root_session_id", .str root),
      ("nodes", .arr (sessions.map (taskNode root))),
      ("edges", .arr (sessions.filterMap taskEdge)),
      ("unresolved_parent_session_ids", textArray unresolved),
      ("complete", .bool (sessionIds.keys.contains root && unresolved.keys.isEmpty))]

/-- A Session gets the graph of the Sessions of its task, under the root of the first. -/
def attachTask (task : List Session) (session : Session) : Session :=
  let root := ((task.head?).map Session.rootSessionId).getD session.rootSessionId
  let role := if session.sessionId = root then "root" else "subagent"
  { session with
    details :=
      (session.details.insert "task_dag" (taskGraph root task)).insert "task_role" (.str role) }

/-- The Sessions of every task are found by their key. -/
def attachTaskDags (sessions : List Session) : List Session :=
  sessions.map fun session =>
    attachTask (sessions.filter fun other => other.taskKey == session.taskKey) session

end TaskGraph

section Pipeline

variable (assembler : Assembler)

structure PartitionResult where
  records : List Json
  orphanSessions : Nat
  mergeDivergences : Nat

def processPartition (captures : List Json) : Except String PartitionResult := do
  let assembled ← (groupsOf captures).mapM (assembleGroup assembler)
  let sessions := attachTaskDags (assembled.map AssembledGroup.session)
  sessions.forM fun session => assembler.validateSession session.value
  pure
    { records := sessions.map Session.value
      orphanSessions := (assembled.filter AssembledGroup.orphan).length
      mergeDivergences := (assembled.map AssembledGroup.divergences).sum }

/-- A line of an input that is not blank, and the JSON value that it holds. -/
structure InputLine where
  text : String
  value : Json

def captureMatchesSelection (capture : Json) (selector : Selector) : Bool :=
  match selector with
  | .all => true
  | .task selected => capturedTraceText capture "task_session_id" == some selected
  | .session _ selection => selection.contains capture

structure Reading where
  seenCaptureIds : Table String String := Table.empty
  duplicateCaptures : Nat := 0
  exactTaskLinksApplied : Nat := 0
  versions : OrdSet String := Table.empty
  written : List Json := []
  inputRecords : Nat := 0

def Reading.remember (reading : Reading) (captureId digest : String) : Reading :=
  { reading with seenCaptureIds := reading.seenCaptureIds.insert captureId digest }

def isTelemetryBatch (value : Json) : Bool :=
  stringField value "recordType" == some "telemetry_batch"

/-- A capture that has not been seen is linked, and written if it is selected. -/
def readCapture (links : Table String TaskLinkTarget) (selector : Selector) (reading : Reading)
    (value : Json) : Except String Reading := do
  let (value, linked) ← applyExactTaskLink links value
  if !captureMatchesSelection value selector then return reading
  let (value, _) ← match selector with
    | .session _ selection => selection.canonicalize value
    | _ => pure (value, false)
  return { reading with
    exactTaskLinksApplied := reading.exactTaskLinksApplied + (if linked then 1 else 0)
    versions := addText reading.versions (stringField value "version")
    written := reading.written ++ [value]
    inputRecords := reading.inputRecords + 1 }

def readLine (links : Table String TaskLinkTarget) (selector : Selector) (reading : Reading)
    (line : InputLine) : Except String Reading :=
  if isTelemetryBatch line.value then do
    checkTelemetryBatch assembler.revalidateTelemetryBatch selector line.value
    pure reading
  else
    match stringField line.value "captureId" with
    | none => .error "captureId missing"
    | some captureId =>
        let digest := assembler.sha256 line.text
        match reading.seenCaptureIds.get? captureId with
        | some existing =>
            if existing ≠ digest then
              .error s!"captureId \"{captureId}\" has conflicting bytes across inputs"
            else .ok { reading with duplicateCaptures := reading.duplicateCaptures + 1 }
        | none =>
            readCapture links selector (reading.remember captureId digest) line.value

def partitionIndex (key : String) (partitions : Nat) : Nat := assembler.keyHash key % partitions

/-- The captures that were written to one partition. -/
def partitionOf (partitions index : Nat) (captures : List Json) : List Json :=
  captures.filter fun capture =>
    partitionIndex assembler (taskPartitionKey capture) partitions == index

structure AssembleConfig where
  lines : List InputLine
  partitions : Nat
  taskSessionId : Option String := none
  sessionId : Option String := none

def normalizedSelector (value : Option String) (name : String) :
    Except String (Option String) :=
  match value with
  | none => .ok none
  | some value =>
      let value := Text.trim value
      if value.isEmpty then .error s!"{name} cannot be empty" else .ok (some value)

/-- What the selectors of a configuration select. -/
def selectorOf (config : AssembleConfig) : Except String Selector := do
  let taskSessionId ← normalizedSelector config.taskSessionId "task_session_id"
  let sessionId ← normalizedSelector config.sessionId "session_id"
  match taskSessionId, sessionId with
  | some _, some _ => .error "task_session_id and session_id cannot be selected together"
  | some selected, none => pure (.task selected)
  | none, some selected => do
      let lineage ← (config.lines.map InputLine.value).foldlM StockSessionLineage.observe
        Table.empty
      let selection ← StockSessionLineage.selection lineage selected
      pure (.session selected selection)
  | none, none => pure .all

def readInputs (config : AssembleConfig) (selector : Selector) : Except String Reading := do
  let links ← buildTaskLinkIndex (config.lines.map InputLine.value)
  config.lines.foldlM (readLine assembler links selector) {}

def notFound (selector : Selector) (reading : Reading) : Option String :=
  if reading.inputRecords ≠ 0 then none
  else
    match selector with
    | .all => none
    | .task selected =>
        some s!"selected task_session_id=\"{selected}\" was not found in Capture inputs"
    | .session selected _ =>
        some s!"selected session_id=\"{selected}\" was not found in Capture inputs"

/-- The records of all partitions. -/
def assembleSessions (config : AssembleConfig) :
    Except String (Selector × Reading × List PartitionResult) := do
  if config.partitions = 0 then throw "partitions must be positive"
  let selector ← selectorOf config
  let reading ← readInputs assembler config selector
  match notFound selector reading with
  | some message => throw message
  | none =>
      let results ← (List.range config.partitions).mapM fun index =>
        processPartition assembler (partitionOf assembler config.partitions index reading.written)
      pure (selector, reading, results)

/-- The Session records that an assembly writes; a failed one writes none. -/
def writtenRecords (config : AssembleConfig) : List Json :=
  match assembleSessions assembler config with
  | .ok (_, _, results) => results.flatMap PartitionResult.records
  | .error _ => []

end Pipeline

end ChipTrace.Assemble
