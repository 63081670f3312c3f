/-
What the exact index of the captures tells an audit about a record, and that a record of a process
or of a Session as a whole borrows nothing from the turns that share its trace.
-/
import ChipTrace.SourceContext.Audit
import ChipTrace.TurnIdentity.Resolution

namespace ChipTrace.SourceContext

open TurnIdentity (ExactTurnIndex SourceScope resolve sourceScope recordSessions)

/-- Records that need no turn unless they are below a Turn boundary. -/
def exemptEvents : List String :=
  ["codex.conversation_starts", "codex.startup_phase", "codex.websocket_connect",
    "codex.websocket_request", "codex.auth_recovery", "codex.agent_communication",
    "codex.session", "session"]

/-- Records that always need a turn. -/
def turnBusinessEvents : List String :=
  ["codex.sse_event", "codex.tool_result", "codex.tool_decision", "codex.sandbox_outcome",
    "codex.user_prompt", "codex.turn_ttft", "codex.turn_cost"]

/-- A record needs a turn by its boundary; without one, by its name. -/
def scopeRequiresTurn (scope : Option SourceScope) (exempt : Bool) : Bool :=
  match scope with
  | some (.session (some _)) => false
  | some (.session none) => true
  | some .turn => true
  | some .process => false
  | none => !exempt

/-- The session of a Session boundary. -/
def scopeSession (scope : Option SourceScope) : Option String :=
  match scope with
  | some (.session session) => session
  | _ => none

def otlpSourceObservation (index : ExactTurnIndex) (source : String) (record : Json)
    (attributes : Table String String) : Except String SourceObservation := do
  let named := fun (events : List String) =>
    (otlpRecordName source record attributes).any events.contains
  let identity ← resolve index record attributes
  let scope ← sourceScope index record attributes
  let related ← recordSessions index record attributes
  let session ← sessionAttribute attributes
  let turn ← turnAttribute attributes
  if scope = some .process ∧ named turnBusinessEvents then
    .error "OTLP Turn-level business event conflicts with Process scope"
  else pure {
    sessionId := (((identity.map fun pair => (ofLex pair).1).or session).or
      (scopeSession scope)).or (TurnIdentity.sole related)
    turnId := (identity.map fun pair => (ofLex pair).2).or turn
    requiresTurn := named turnBusinessEvents || scopeRequiresTurn scope (named exemptEvents)
    processScoped := decide (scope = some .process)
    relatedSessions := related.keys }

/-- The exact index of some captures, as an audit asks it. -/
def exactIndex (index : ExactTurnIndex) : Index where
  otlpSourceObservation := otlpSourceObservation index
  unresolvedReason := TurnIdentity.unresolvedReason index

section Boundaries

variable {captures : List Json} {index : ExactTurnIndex} {source : String} {record : Json}
  {attributes : Table String String} {observed : SourceObservation}

/-- A record under a Process or a Session boundary gets no turn; one of a process gets no session
and has none that it may belong to. -/
theorem observation_boundary
    (hindex : captures.foldlM ExactTurnIndex.observeCapture .forTurns = .ok index)
    {scope : SourceScope} (hscope : sourceScope index record attributes = .ok (some scope))
    (hboundary : scope ≠ .turn)
    (h : otlpSourceObservation index source record attributes = .ok observed) :
    observed.turnId = none ∧ observed.processScoped = decide (scope = .process) ∧
      (scope = .process → observed.sessionId = none ∧ observed.relatedSessions = []) := by
  obtain ⟨identity, hidentity, h⟩ := Except.bind_eq_ok_iff.mp h
  rw [hscope, Except.ok_bind] at h
  obtain ⟨related, hrelated, h⟩ := Except.bind_eq_ok_iff.mp h
  obtain ⟨session, hsession, h⟩ := Except.bind_eq_ok_iff.mp h
  obtain ⟨turn, hturn, h⟩ := Except.bind_eq_ok_iff.mp h
  obtain rfl := TurnIdentity.resolve_boundary hindex hscope hboundary hidentity
  obtain ⟨rfl, _, hprocess⟩ := TurnIdentity.sourceScope_boundary hscope hboundary hsession hturn
  split_ifs at h
  rw [Except.pure_eq_ok_iff] at h
  subst h
  refine ⟨rfl, by simp, fun heq => ?_⟩
  subst heq
  rw [recordSessions, hsession, Except.ok_bind, hscope, Except.ok_bind] at hrelated
  cases hrelated
  rw [hprocess rfl]
  exact ⟨rfl, rfl⟩

/-- A record of the process on the trace of a model request. -/
def processRecord : Json := .obj [("traceId", .str "0000000000000000000000000000000a")]

def processAttributes : Table String String :=
  Table.empty.insert "codex.context_scope" "process"

theorem processRecord_scope :
    (TurnIdentity.wireIndex.toOption.map fun index =>
      ((sourceScope index processRecord processAttributes).toOption,
        (otlpSourceObservation index "otlp_logs" processRecord
          processAttributes).toOption.isSome)) = some (some (some .process), true) := by
  decide +kernel

theorem observation_boundary_process : ∃ index observed, TurnIdentity.wireIndex = .ok index ∧
    otlpSourceObservation index "otlp_logs" processRecord processAttributes = .ok observed ∧
    observed.turnId = none ∧ observed.sessionId = none := by
  have hprocess := processRecord_scope
  obtain ⟨index, hindex⟩ := TurnIdentity.wireIndex_ok
  rw [hindex, Except.toOption, Option.map_some, Option.some.injEq, Prod.mk.injEq] at hprocess
  obtain ⟨hscope, hobserved⟩ := hprocess
  cases hresult : sourceScope index processRecord processAttributes with
  | error _ =>
      rw [hresult] at hscope
      cases hscope
  | ok scope =>
      rw [hresult] at hscope
      cases hscope
      cases hrun : otlpSourceObservation index "otlp_logs" processRecord processAttributes with
      | error _ =>
          rw [hrun] at hobserved
          cases hobserved
      | ok observed =>
          obtain ⟨hturn, _, hsession⟩ :=
            observation_boundary hindex hresult (by decide) hrun
          exact ⟨index, observed, hindex, hrun, hturn, (hsession rfl).1⟩

end Boundaries

end ChipTrace.SourceContext
