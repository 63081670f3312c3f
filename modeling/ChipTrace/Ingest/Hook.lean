/-
Derivation of captures from Codex hooks.
-/
import ChipTrace.Ingest.Derive

namespace ChipTrace

structure HookEventKind where
  lifecycleType : String
  defaultStatus : Option String
  terminal : Bool
  requiresTurn : Bool
  requiresAgent : Bool
  toolEvent : Bool
  deriving DecidableEq

def knownHookEvent (eventName : String) : Option HookEventKind :=
  match eventName with
  | "SessionStart" => some ⟨"session_start", some "started", false, false, false, false⟩
  | "SessionEnd" => some ⟨"session_end", some "closed", true, false, false, false⟩
  | "Stop" => some ⟨"turn_end", some "closed", false, true, false, false⟩
  | "Interrupt" => some ⟨"turn_interrupt", some "cancelled", false, true, false, false⟩
  | "SubagentStart" => some ⟨"subagent_spawn", some "started", false, true, true, false⟩
  | "SubagentStop" => some ⟨"subagent_join", some "closed", false, true, true, false⟩
  | "PreCompact" => some ⟨"compaction_start", some "started", false, true, false, false⟩
  | "PostCompact" => some ⟨"compaction_end", some "completed", false, true, false, false⟩
  | "UserPromptSubmit" =>
      some ⟨"user_prompt_submit", some "completed", false, true, false, false⟩
  | "PermissionRequest" => some ⟨"permission_request", some "unknown", false, true, false, false⟩
  | "PreToolUse" => some ⟨"tool_start", some "started", false, true, false, true⟩
  | "PostToolUse" => some ⟨"tool_end", some "unknown", false, true, false, true⟩
  | _ => none

section Fields

variable (envelope : Json)

def optionalAliasString (keys : List String) : Option String :=
  keys.findSome? (optionalNonemptyString envelope)

def optionalAliasBool (keys : List String) : Option Bool :=
  keys.findSome? fun key => (envelope.get? key).bind readBool

def valueAlias (keys : List String) : Option Json := keys.findSome? envelope.get?

def requireString (eventName field : String) : Except String Unit :=
  match optionalNonemptyString envelope field with
  | some _ => .ok ()
  | none => .error s!"{eventName} requires {field}"

def validateHookFields (eventName : String) : Except String Unit :=
  match eventName with
  | "SessionStart" => do
      requireString envelope eventName "model"
      requireString envelope eventName "permission_mode"
      requireString envelope eventName "source"
  | "SessionEnd" => requireString envelope eventName "reason"
  | "UserPromptSubmit" => requireString envelope eventName "prompt"
  | "PreCompact" | "PostCompact" => requireString envelope eventName "trigger"
  | "SubagentStart" | "SubagentStop" => requireString envelope eventName "agent_type"
  | "PermissionRequest" => do
      requireString envelope eventName "tool_name"
      if (envelope.get? "tool_input").isNone then
        .error "PermissionRequest requires tool_input"
  | _ => .ok ()

def hookTraceContext (sessionId : String) (turnId agentId : Option String) : Json :=
  let text := fun keys : List String => optionalText (optionalAliasString envelope keys)
  removeNullFields
    [("session_id", .str sessionId), ("thread_id", .str sessionId),
      ("conversation_id", .str sessionId),
      ("task_session_id", text ["task_session_id", "taskSessionId"]),
      ("root_session_id", text ["root_session_id", "rootSessionId"]),
      ("parent_session_id", text ["parent_session_id", "parentSessionId"]),
      ("goal_id", text ["goal_id", "goalId"]), ("turn_id", optionalText turnId),
      ("root_turn_id", optionalText
        ((optionalAliasString envelope ["root_turn_id", "rootTurnId"]).or turnId)),
      ("agent_id", optionalText agentId), ("branch_id", text ["branch_id", "branchId"]),
      ("previous_response_id", text ["previous_response_id", "previousResponseId"])]

/-- The status that a tool hook states, when it states one. -/
def explicitHookStatus : Option String :=
  match optionalAliasString envelope ["status", "tool_status", "toolStatus"] with
  | some status =>
      match Text.asciiLower (Text.trim status) with
      | "started" | "running" => some "started"
      | "success" | "succeeded" | "completed" | "complete" => some "success"
      | "error" | "failed" | "failure" => some "error"
      | "cancelled" | "canceled" => some "cancelled"
      | "timeout" | "timed_out" => some "timeout"
      | "unknown" => some "unknown"
      | _ => none
  | none =>
      if optionalAliasBool envelope ["is_error", "isError"] == some true then some "error"
      else (optionalAliasBool envelope ["success"]).map fun success =>
        if success then "success" else "error"

end Fields

section Events

variable (platform : Platform)

/-- A missing part of a hook. -/
def required {α : Type} (value : Option α) (error : String) : Except String α :=
  match value with
  | some value => .ok value
  | none => .error error

def hookToolCapture (envelope : Json) (eventName eventId : String) (trace : Json) :
    Except String Json := do
  let text := fun keys : List String => optionalAliasString envelope keys
  let toolName ← required (text ["tool_name", "toolName", "name"]) "tool event requires tool_name"
  let callId ← required (text ["tool_use_id", "toolUseId", "tool_call_id", "toolCallId",
    "call_id"]) "tool event requires tool_use_id"
  let arguments ← required (valueAlias envelope ["tool_input", "toolInput", "arguments", "input"])
    "tool event requires tool_input"
  let isPost := eventName == "PostToolUse"
  let result := valueAlias envelope ["tool_response", "toolResponse", "tool_output", "output"]
  if isPost && result.isNone then throw "PostToolUse requires tool_response"
  let status := if isPost then (explicitHookStatus envelope).getD "unknown" else "started"
  if ! ["started", "success", "error", "cancelled", "timeout", "unknown"].contains status then
    throw s!"unsupported tool event status {platform.quoted status}"
  let runtimeNamespace := text ["tool_namespace", "toolNamespace", "namespace"]
  let failed := ["error", "cancelled", "timeout"].contains status
  pure (derivedCapture "tool_execution" s!"cap-cloud-{eventId}"
    [("requestedModelAlias", optionalText (text ["model", "model_name", "modelName"])),
      ("traceContext", trace),
      ("toolExecution", Json.mkObj
        [("call_id", .str callId),
          ("parent_call_id", optionalText (text ["parent_call_id", "parentCallId"])),
          ("name", .str (canonicalRuntimeToolName runtimeNamespace toolName)),
          ("runtime_tool", .str toolName), ("runtime_namespace", optionalText runtimeNamespace),
          ("status", .str status), ("initiator", .str "runtime"), ("arguments", arguments),
          ("result", result.getD .null), ("error", if failed then result.getD .null else .null),
          ("schema_provenance", Json.mkObj
            [("source", .str "hook_tool_event"), ("source_complete", .bool false),
              ("reason", .str ("Hook payload has no authoritative JSON Tool Schema; " ++
                "Assembly must join the observed Wire definition"))]),
          ("started_at", optionalText (text ["started_at", "startedAt"])),
          ("finished_at", optionalText (text ["finished_at", "finishedAt", "timestamp"])),
          ("model_call_matched", .bool false), ("result_content_captured", .bool isPost),
          ("output_truncated", ((optionalAliasBool envelope ["output_truncated",
            "outputTruncated"]).map Json.bool).getD .null),
          ("source_event_name", .str eventName), ("source_event", envelope)])])

/-- A lifecycle hook attests a boundary; a session resumed after compaction is its own
kind. -/
def hookLifecycleCapture (envelope : Json) (eventName eventId : String) (kind : HookEventKind)
    (trace : Json) : Json :=
  let text := fun keys : List String => optionalText (optionalAliasString envelope keys)
  let compactResume := eventName == "SessionStart" &&
    ((envelope.get? "source").bind Json.asStr).any fun source =>
      Text.asciiLower source == "compact"
  let lifecycleType := if compactResume then "compaction_resume" else kind.lifecycleType
  let status := if compactResume then "completed" else kind.defaultStatus.getD "unknown"
  derivedCapture "lifecycle_event" s!"cap-cloud-{eventId}"
    [("requestedModelAlias", text ["model", "model_name", "modelName"]),
      ("isFinalSnapshot", .bool kind.terminal), ("traceContext", trace),
      ("observedLifecycleEvents", .arr [.str lifecycleType]),
      ("lifecycleEvent", Json.mkObj
        [("event_id", .str s!"hook-{eventId}"), ("type", .str lifecycleType),
          ("status", .str status), ("reason", (valueAlias envelope ["reason"]).getD .null),
          ("occurred_at", text ["occurred_at", "occurredAt", "timestamp"]),
          ("source_event", envelope), ("source_event_name", .str eventName)])]

/-- The capture of a hook, none when its event is unknown. -/
def hookCapture (envelope : Json) (rawSha256 : String) : Except String (Option Json) := do
  let eventName ← required (optionalNonemptyString envelope "hook_event_name")
    "Codex hook requires hook_event_name"
  let sessionId ← required (optionalNonemptyString envelope "session_id")
    "Codex hook requires session_id"
  match knownHookEvent eventName with
  | none => pure none
  | some kind => do
      validateHookFields envelope eventName
      let turnId := optionalAliasString envelope ["turn_id", "turnId"]
      if kind.requiresTurn && turnId.isNone then throw s!"{eventName} requires turn_id"
      let agentId := optionalAliasString envelope ["agent_id", "agentId"]
      if kind.requiresAgent && agentId.isNone then throw s!"{eventName} requires agent_id"
      let eventId := (optionalAliasString envelope ["event_id", "eventId",
        "hook_event_id"]).getD (platform.stableDigest [rawSha256, eventName])
      let trace := hookTraceContext envelope sessionId turnId agentId
      if kind.toolEvent then
        (hookToolCapture platform envelope eventName eventId trace).map some
      else pure (some (hookLifecycleCapture envelope eventName eventId kind trace))

/-- One hook is one source record, derived, unknown or in error. -/
def deriveCodexHook (envelope : Json) (rawSha256 : String) (limit : ByteLimit) :
    Except String DerivedBatch := do
  match ← hookCapture platform envelope rawSha256 with
  | none => pure ⟨[], 1, 1, []⟩
  | some capture => do
      let record ← platform.normalizeValue limit capture
      pure ⟨[record], 1, 0, []⟩

end Events

end ChipTrace
