/-
The identities that a telemetry batch carries in its protocol metadata, and whether the batch
is in the scope of a selection.
-/
import ChipTrace.Sessions.Links

namespace ChipTrace.Assemble

/-- What an assembly is restricted to. -/
inductive Selector where
  | all
  | task (taskSessionId : String)
  | session (sessionId : String) (selection : StockSessionSelection)

inductive TelemetryBatchScope where
  | selected
  | other
  | unscoped
  deriving DecidableEq

/-- An identity that was found; a task is told apart from a Session. -/
structure FoundIdentity where
  isTask : Bool
  value : String

structure TelemetryBatchIdentities where
  taskSessionIds : OrdSet String
  sessionIds : OrdSet String

def identitiesOf (found : List FoundIdentity) : TelemetryBatchIdentities where
  taskSessionIds := OrdSet.ofList ((found.filter FoundIdentity.isTask).map FoundIdentity.value)
  sessionIds :=
    OrdSet.ofList ((found.filter fun identity => !identity.isTask).map FoundIdentity.value)

def taskIdentityKeys : List String := ["task_session_id", "taskSessionId", "task.session.id"]

def sessionIdentityKeys : List String :=
  ["session_id", "sessionId", "session.id", "conversation_id", "conversation.id", "thread_id",
    "thread.id"]

def trimmedText (value : Option Json) : Option String :=
  ((value.bind Json.asStr).map Text.trim).filter fun text => !text.isEmpty

def collectTelemetryIdentity (object : Json) : List FoundIdentity :=
  match object with
  | .obj fields =>
      (taskIdentityKeys ++ sessionIdentityKeys).filterMap fun key =>
        (trimmedText (JsonMap.get fields key)).map fun value =>
          ⟨taskIdentityKeys.contains key, value⟩
  | _ => []

/-- The identity of an attribute. -/
def attributeIdentity (fields : JsonMap) : List FoundIdentity :=
  match fields.str? "key", trimmedText ((fields.get "value").bind fun value =>
      value.get? "stringValue") with
  | some key, some value =>
      if taskIdentityKeys.contains key then [⟨true, value⟩]
      else if sessionIdentityKeys.contains key then [⟨false, value⟩]
      else []
  | _, _ => []

def otlpContainers : List String :=
  ["resourceLogs", "resourceSpans", "scopeLogs", "scopeSpans", "logRecords", "spans", "resource",
    "scope", "attributes"]

mutual

/-- The identities in the attributes of an export, at any legal level. -/
def collectOtlpAttributeIdentities : Json → List FoundIdentity
  | .arr items => collectItems items
  | .obj fields => attributeIdentity fields ++ collectFields fields
  | _ => []

def collectItems : List Json → List FoundIdentity
  | [] => []
  | item :: rest => collectOtlpAttributeIdentities item ++ collectItems rest

def collectFields : List (String × Json) → List FoundIdentity
  | [] => []
  | (key, value) :: rest =>
      (if otlpContainers.contains key then collectOtlpAttributeIdentities value else []) ++
        collectFields rest

end

def batchOf (value : Json) : Except String JsonMap :=
  match (value.get? "telemetryBatch").bind Json.asObject with
  | some batch => .ok batch
  | none => .error "telemetry_batch requires telemetryBatch"

def telemetryBatchIdentities (value : Json) : Except String TelemetryBatchIdentities := do
  let batch ← batchOf value
  let context := collectTelemetryIdentity ((value.get? "traceContext").getD .null)
  let carried := match parseText ((batch.str? "raw_json").getD "") with
    | none => []
    | some raw =>
        if (batch.str? "endpoint").getD "" = "codex_hook" then collectTelemetryIdentity raw
        else collectOtlpAttributeIdentities raw ++ collectTelemetryIdentity raw
  pure (identitiesOf (context ++ carried))

def taskScope (selected : String) (identities : List String) :
    Except String TelemetryBatchScope :=
  match identities with
  | [] => .ok .unscoped
  | [identity] => .ok (if identity = selected then .selected else .other)
  | _ => .error s!"telemetry batch has conflicting task_session_id identities: {identities}"

def sessionScope (selected : String) (selection : StockSessionSelection)
    (identities : List String) : Except String TelemetryBatchScope :=
  let allowed := fun id => selection.allowsSessionId id || id == selected
  if identities.isEmpty then .ok .unscoped
  else if identities.all allowed then .ok .selected
  else if identities.any allowed then
    .error s!"telemetry batch mixes selected and unrelated session identities: {identities}"
  else .ok .other

def telemetryBatchScope (selector : Selector) (value : Json) :
    Except String TelemetryBatchScope := do
  let identities ← telemetryBatchIdentities value
  match selector with
  | .task selected => taskScope selected identities.taskSessionIds.keys
  | .session selected selection =>
      sessionScope selected selection identities.sessionIds.keys
  | .all => .ok .selected

/-- What a batch counts: events it did not know, conversions that failed, and how many of
these are attributed to a cause. -/
structure BatchQuality where
  unknownEvents : Nat
  conversionErrors : Nat
  attributedQualityErrors : Nat

def BatchQuality.hasUnattributed (quality : BatchQuality) : Bool :=
  decide (quality.attributedQualityErrors <
    U64.saturatingAdd quality.unknownEvents quality.conversionErrors)

def recordedQuality (batch : JsonMap) : BatchQuality where
  unknownEvents := (batch.u64? "unknown_events").getD 0
  conversionErrors := ((batch.array? "conversion_errors").map List.length).getD 0
  attributedQualityErrors := (batch.u64? "attributed_quality_errors").getD 0

section Check

variable (revalidate : Json → Except String BatchQuality)

/-- Unattributed quality errors stop the assembly, if the current adapter finds them again. -/
def checkQuality (value : Json) : Except String Unit := do
  let batch ← batchOf value
  if (recordedQuality batch).hasUnattributed then
    let current ← revalidate value
    if current.hasUnattributed then
      let captureId := (stringField value "captureId").getD "unknown"
      throw s!"telemetry batch {captureId} has unattributed quality errors under the current adapter: unknown_events={current.unknownEvents}, conversion_errors={current.conversionErrors}, attributed={current.attributedQualityErrors}"

/-- A batch in scope is checked; no batch is assembled. -/
def checkTelemetryBatch (selector : Selector) (value : Json) : Except String Unit := do
  let scope ← telemetryBatchScope selector value
  if scope = .selected then checkQuality revalidate value else pure ()

variable {revalidate}

/-- A batch that passes without a selection passes with a task, unless it names several. -/
theorem checkTelemetryBatch_task {value : Json} (task : String)
    (hall : checkTelemetryBatch revalidate .all value = .ok ()) :
    ∃ identities, telemetryBatchIdentities value = .ok identities ∧
      (checkTelemetryBatch revalidate (.task task) value = .ok () ↔
        identities.taskSessionIds.len ≤ 1) := by
  rw [checkTelemetryBatch, Except.bind_eq_ok_iff] at hall
  obtain ⟨scope, hscope, hquality⟩ := hall
  rw [telemetryBatchScope, Except.bind_eq_ok_iff] at hscope
  obtain ⟨identities, hidentities, hselected⟩ := hscope
  rw [← Except.ok.inj hselected, if_pos rfl] at hquality
  refine ⟨identities, hidentities, ?_⟩
  have hlength : identities.taskSessionIds.len = identities.taskSessionIds.keys.length := by
    rw [Table.len, Table.keys, List.length_map]
  have hscope : telemetryBatchScope (.task task) value =
      taskScope task identities.taskSessionIds.keys := by
    rw [telemetryBatchScope, hidentities]
    rfl
  rw [checkTelemetryBatch, hscope, hlength]
  rcases identities.taskSessionIds.keys with _ | ⟨identity, _ | ⟨second, rest⟩⟩
  · exact ⟨fun _ => Nat.zero_le _, fun _ => rfl⟩
  · refine ⟨fun _ => le_rfl, fun _ => ?_⟩
    by_cases hidentity : identity = task
    · rw [taskScope, if_pos hidentity]
      exact hquality
    · rw [taskScope, if_neg hidentity]
      rfl
  · constructor
    · intro h
      cases h
    · intro h
      simp at h

end Check

end ChipTrace.Assemble
