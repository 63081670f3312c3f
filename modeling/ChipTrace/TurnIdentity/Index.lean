/-
The exact index of turns: what captures and exported records say of sessions, turns and span
parents, and the turn that a record is given from it.  Nothing is joined by time or position.
-/
import Mathlib.Data.Prod.Lex
import Mathlib.Order.Basic
import ChipTrace.Lib.OrdSet
import ChipTrace.Telemetry.Records
import ChipTrace.Turns.Otlp

namespace ChipTrace.TurnIdentity

open Telemetry (pointer pointerStr)

/-- A session and one of its turns. -/
abbrev NativeTurn := String ×ₗ String

/-- A trace and one of its spans. -/
abbrev SpanKey := String ×ₗ String

inductive ScopeKind where
  | process
  | session
  | turn

def ScopeKind.rank : ScopeKind → Nat
  | process => 0
  | session => 1
  | turn => 2

theorem ScopeKind.rank_injective : Function.Injective ScopeKind.rank := by
  intro left right
  cases left <;> cases right <;> simp [rank]

instance instLinearOrderScopeKind : LinearOrder ScopeKind :=
  LinearOrder.lift' ScopeKind.rank ScopeKind.rank_injective

/-- A boundary that a source declares; a Session boundary may lack its identity. -/
inductive SourceScope where
  | process
  | session (id : Option String)
  | turn
  deriving DecidableEq

section Readers

/-- A text that is not blank. -/
def text (value : Option Json) : Option String :=
  (value.bind Json.asStr).filter fun text => !Text.isBlank text

/-- An identifier of some hexadecimal digits that are not all zero, in lower case. -/
def hexId (value : Option Json) (size : Nat) : Option String :=
  ((text value).filter fun text => (textBytes text).length == size &&
    text.toList.all isHexDigit && text.toList.any (· != '0')).map Text.asciiLower

def captureSession (capture : Json) : Option String :=
  ((text (pointer capture ["traceContext", "source_session_id"])).or
    (text (pointer capture ["lifecycleEvent", "source_event", "session_id"]))).or
      (text (pointer capture ["traceContext", "session_id"]))

def captureTurn (capture : Json) : Option String :=
  ((text (pointer capture ["traceContext", "turn_id"])).or
    (text (pointer capture ["lifecycleEvent", "source_event", "turn_id"]))).or
      (text (pointer capture ["traceContext", "root_turn_id"]))

def sourceScopeAttribute (attributes : Table String String) :
    Except String (Option ScopeKind) :=
  match attributes.get? "codex.context_scope" with
  | none | some "" => .ok none
  | some "process" => .ok (some .process)
  | some "session" => .ok (some .session)
  | some "turn" => .ok (some .turn)
  | some _ => .error "OTLP has an unsupported explicit source scope"

/-- The export of a telemetry batch. -/
def rawBatch (capture : Json) : Except String Json :=
  match parseText ((pointerStr capture ["telemetryBatch", "raw_json"]).getD "{}") with
  | some raw => .ok raw
  | none => .error "the export is not JSON"

/-- Every record of the export of a capture with its merged attributes. -/
def visitOtlp {State : Type} (capture : Json)
    (visit : String → State → Json → Table String String → Except String State)
    (state : State) : Except String State :=
  match pointerStr capture ["telemetryBatch", "endpoint"] with
  | some endpoint =>
      if endpoint = "otlp_logs" ∨ endpoint = "otlp_traces" then do
        let raw ← rawBatch capture
        visitOtlpEnvelope endpoint raw (visit endpoint) state
      else .ok state
  | none => .ok state

end Readers

section Observations

/-- What a capture or a record says about turns. -/
structure Observation where
  session : Option String
  turn : Option String
  trace : Option String
  span : Option String
  parent : Option String := none
  kind : Option ScopeKind := none

def captureObservation (capture : Json) : Observation where
  session := captureSession capture
  turn := captureTurn capture
  trace := hexId (pointer capture ["traceContext", "trace_id"]) 32
  span := hexId (pointer capture ["traceContext", "parent_span_id"]) 16

def hookObservation (raw : Json) : Observation where
  session := text (raw.get? "session_id")
  turn := text (raw.get? "turn_id")
  trace := none
  span := none

def recordObservation (record : Json) (attributes : Table String String) :
    Except String Observation := do
  let session ← sessionAttribute attributes
  let turn ← turnAttribute attributes
  let kind ← sourceScopeAttribute attributes
  pure ⟨session, turn, hexId (record.get? "traceId") 32, hexId (record.get? "spanId") 16,
    hexId (record.get? "parentSpanId") 16, kind⟩

/-- What a capture says: its own context, that of its hook, and that of its records. -/
def observationsOf (capture : Json) : Except String (List Observation) := do
  let own := [captureObservation capture]
  let hook ←
    if pointerStr capture ["telemetryBatch", "endpoint"] = some "codex_hook" then
      (rawBatch capture).map fun raw => [hookObservation raw]
    else pure []
  visitOtlp capture (fun _ observations record attributes =>
    (recordObservation record attributes).map fun observation => observations ++ [observation])
    (own ++ hook)

end Observations

section Index

structure TraceScope where
  sessions : OrdSet String := Table.empty
  turns : OrdSet String := Table.empty
  process : Bool := false

structure SpanScope where
  sessions : OrdSet String := Table.empty
  turns : OrdSet String := Table.empty
  parents : OrdSet SpanKey := Table.empty
  kinds : OrdSet ScopeKind := Table.empty

structure ExactTurnIndex where
  native : Table String (OrdSet NativeTurn) := Table.empty
  traces : Table String TraceScope := Table.empty
  spans : Table SpanKey SpanScope := Table.empty
  trackParents : Bool := false

/-- Put a value made from the stored one, or from a default, under a key. -/
def upsert {K V : Type} [LinearOrder K] (table : Table K V) (key : Option K) (fresh : V)
    (update : V → V) : Table K V :=
  match key with
  | some key => table.insert key (update ((table.get? key).getD fresh))
  | none => table

def TraceScope.observe (scope : TraceScope) (seen : Observation) : TraceScope where
  sessions := scope.sessions.addAll seen.session.toList
  turns := scope.turns.addAll seen.turn.toList
  process := scope.process || seen.kind = some .process

/-- The parent span that an observation states, in its own trace. -/
def Observation.parentKey (seen : Observation) : Option SpanKey :=
  seen.trace.bind fun trace => seen.parent.map fun parent => toLex (trace, parent)

def SpanScope.observe (scope : SpanScope) (seen : Observation) : SpanScope where
  sessions := scope.sessions.addAll seen.session.toList
  turns := scope.turns.addAll seen.turn.toList
  parents := scope.parents.addAll seen.parentKey.toList
  kinds := scope.kinds.addAll seen.kind.toList

/-- The session and the turn that an observation states together. -/
def Observation.nativeTurn (seen : Observation) : Option NativeTurn :=
  seen.session.bind fun session => seen.turn.map fun turn => toLex (session, turn)

/-- The span that an observation is about; an index without parents only takes those that state a
turn or a scope. -/
def Observation.spanKey (seen : Observation) (trackParents : Bool) : Option SpanKey :=
  seen.trace.bind fun trace =>
    (seen.span.filter fun _ => trackParents || seen.turn.isSome || seen.kind.isSome).map
      fun span => toLex (trace, span)

def ExactTurnIndex.observe (index : ExactTurnIndex) (seen : Observation) : ExactTurnIndex where
  native := upsert index.native (seen.nativeTurn.map fun turn => (ofLex turn).2) Table.empty
    fun turns => turns.addAll seen.nativeTurn.toList
  traces := upsert index.traces seen.trace {} fun scope => scope.observe seen
  spans := upsert index.spans (seen.spanKey index.trackParents) {} fun scope => scope.observe seen
  trackParents := index.trackParents

/-- A capture that cannot be read fails the index as a whole. -/
def ExactTurnIndex.observeCapture (index : ExactTurnIndex) (capture : Json) :
    Except String ExactTurnIndex :=
  (observationsOf capture).map fun seen => seen.foldl ExactTurnIndex.observe index

def ExactTurnIndex.forTurns : ExactTurnIndex := { trackParents := true }

/-- Ambiguity that was found in all captures stays when fewer are selected. -/
def ExactTurnIndex.includeGlobalScopes (index world : ExactTurnIndex) : ExactTurnIndex :=
  { index with native := world.native, traces := world.traces, spans := world.spans }

end Index

section Resolution

variable (index : ExactTurnIndex)

def isEmpty {K : Type} [LinearOrder K] (set : OrdSet K) : Bool := set.entries.isEmpty

def contains {K : Type} [LinearOrder K] (set : OrdSet K) (k : K) : Bool := (set.get? k).isSome

/-- The first member of a set. -/
def first {K : Type} [LinearOrder K] (set : OrdSet K) : Option K := set.keys.head?

/-- No session is stated, or this one is. -/
def allows (sessions : OrdSet String) (turn : NativeTurn) : Bool :=
  isEmpty sessions || contains sessions (ofLex turn).1

def nativeTurns (turn : String) : OrdSet NativeTurn := (index.native.get? turn).getD Table.empty

def candidates (sessions turns : OrdSet String) : OrdSet NativeTurn :=
  OrdSet.ofList ((turns.keys.flatMap fun turn => (nativeTurns index turn).keys).filter
    (allows sessions))

def validateSpanScope (scope : SpanScope) : Except String Unit :=
  if 1 < scope.parents.len then .error "one OTLP span has conflicting explicit parents"
  else if 1 < scope.sessions.len ∨ 1 < scope.turns.len then
    .error "one OTLP span has conflicting explicit native identities"
  else if 1 < scope.kinds.len then
    .error "one OTLP span has conflicting explicit source scopes"
  else if contains scope.kinds .process && (!isEmpty scope.sessions || !isEmpty scope.turns) then
    .error "OTLP Process scope conflicts with native Session or Turn context"
  else if contains scope.kinds .session && !isEmpty scope.turns then
    .error "OTLP Session scope conflicts with native Turn context"
  else .ok ()

def cycleError : String := "OTLP span ancestry contains a cycle"

/-- The turns that a span or the nearest span above it with a turn or a scope states.  The fuel is
more than the spans that can be on the way. -/
def spanCandidatesFrom : Nat → List SpanKey → SpanKey → Except String (OrdSet NativeTurn)
  | 0, _, _ => .error cycleError
  | fuel + 1, visiting, key =>
      match index.spans.get? key with
      | none => .ok Table.empty
      | some scope =>
          if visiting.contains key then .error cycleError
          else do
            validateSpanScope scope
            let found := candidates index scope.sessions scope.turns
            if isEmpty found && isEmpty scope.turns && isEmpty scope.kinds then
              scope.parents.keys.foldlM (fun found parent => do
                let above ← spanCandidatesFrom fuel (key :: visiting) parent
                pure (found.addAll (above.keys.filter (allows scope.sessions)))) found
            else pure found

def spanCandidates (key : SpanKey) : Except String (OrdSet NativeTurn) :=
  spanCandidatesFrom index (index.spans.len + 1) [] key

/-- The nearest boundary on the way up, and the session of a Session boundary. -/
structure Boundary where
  nearest : Option ScopeKind := none
  session : Option String := none

/-- A span is passed on the way up. -/
def Boundary.pass (found : Boundary) (scope : SpanScope) : Boundary :=
  if found.nearest.isNone then
    let nearest := (first scope.kinds).or (if isEmpty scope.turns then none else some .turn)
    ⟨nearest, if nearest = some .session then first scope.sessions else found.session⟩
  else if found.nearest = some .session ∧ found.session = none ∧
      first scope.kinds = some .session then
    -- A Session boundary without its identity takes that of the next Session boundary above.
    { found with session := first scope.sessions }
  else found

/-- The way up from a span, to its end. -/
def boundaryFrom : Nat → List SpanKey → Boundary → Option SpanKey → Except String Boundary
  | _, _, found, none => .ok found
  | 0, _, _, some _ => .error cycleError
  | fuel + 1, visiting, found, some key =>
      if visiting.contains key then .error cycleError
      else match index.spans.get? key with
        | none => .ok found
        | some scope => do
            validateSpanScope scope
            boundaryFrom fuel (key :: visiting) (found.pass scope) (first scope.parents)

def Boundary.sourceScope (found : Boundary) : Option SourceScope :=
  found.nearest.map fun
    | .process => .process
    | .session => .session found.session
    | .turn => .turn

def spanSourceScope (key : SpanKey) : Except String (Option SourceScope) :=
  (boundaryFrom index (index.spans.len + 1) [] {} (some key)).map Boundary.sourceScope

/-- The span of a record. -/
def spanOf (record : Json) : Option SpanKey :=
  (hexId (record.get? "traceId") 32).bind fun trace =>
    (hexId (record.get? "spanId") 16).map fun span => toLex (trace, span)

/-- A Session boundary of another session than the stated one. -/
def otherSession (inherited : Option SourceScope) (session : Option String) : Bool :=
  match inherited with
  | some (.session (some parent)) => session.any (· != parent)
  | _ => false

def isSession (scope : Option SourceScope) : Bool :=
  match scope with
  | some (.session _) => true
  | _ => false

/-- The scope of a record from what it states and what it inherits. -/
def combineScopes (kind : Option ScopeKind) (session turn : Option String)
    (inherited : Option SourceScope) : Except String (Option SourceScope) :=
  match kind with
  | some .process =>
      if session.isSome || turn.isSome || isSession inherited || inherited = some .turn then
        .error "OTLP Process scope conflicts with native Session or Turn context"
      else .ok (some .process)
  | some .session =>
      if turn.isSome || inherited = some .process || inherited = some .turn then
        .error "OTLP Session scope conflicts with native Turn context"
      else if otherSession inherited session then
        .error "OTLP explicit Session conflicts with inherited source scope"
      else .ok (some (.session session))
  | some .turn =>
      if inherited = some .process || isSession inherited then
        .error "OTLP Turn scope conflicts with inherited Process or Session context"
      else .ok (some .turn)
  | none =>
      if turn.isSome then
        if inherited = some .process then
          .error "OTLP native Turn identity conflicts with inherited Process context"
        else .ok (some .turn)
      else if inherited = some .process && session.isSome then
        .error "OTLP native identity conflicts with inherited Process context"
      else if otherSession inherited session then
        .error "OTLP explicit Session conflicts with inherited source scope"
      else .ok inherited

def inheritedScope (record : Json) : Except String (Option SourceScope) :=
  match spanOf record with
  | some key => spanSourceScope index key
  | none => .ok none

def sourceScope (record : Json) (attributes : Table String String) :
    Except String (Option SourceScope) := do
  let inherited ← inheritedScope index record
  let session ← sessionAttribute attributes
  let turn ← turnAttribute attributes
  let kind ← sourceScopeAttribute attributes
  combineScopes kind session turn inherited

/-- Nothing is stated, or this is. -/
def agrees (stated : Option String) (value : String) : Bool := stated.all (· == value)

def fits (session turn : Option String) (pair : NativeTurn) : Bool :=
  agrees session (ofLex pair).1 && agrees turn (ofLex pair).2

/-- The turns that the context of a record leaves open. -/
def contextTurns (trace turn : Option String) (spanMatches : OrdSet NativeTurn) :
    OrdSet NativeTurn :=
  if !isEmpty spanMatches then spanMatches
  else match trace.bind index.traces.get? with
    | some scope => candidates index scope.sessions scope.turns
    | none =>
        match turn with
        | some turn => nativeTurns index turn
        | none => Table.empty

/-- The only member of a set. -/
def sole {K : Type} [LinearOrder K] (set : OrdSet K) : Option K :=
  if set.len = 1 then first set else none

/-- The turn of a record from what it states and what its spans and its trace state. -/
def decideTurn (session turn trace : Option String) (scope : Option SourceScope)
    (spanMatches : OrdSet NativeTurn) : Except String (Option NativeTurn) :=
  match sole spanMatches with
  | some matched =>
      if fits session turn matched then .ok (some matched)
      else .error "OTLP explicit identity conflicts with its exact Span context"
  | none =>
      match session, turn with
      | some session, some turn => .ok (some (toLex (session, turn)))
      | _, _ =>
          -- A boundary cannot borrow the sole turn of a trace that it shares.
          if scope.isSome && isEmpty spanMatches && turn.isNone then .ok none
          else .ok (sole (OrdSet.ofList
            ((contextTurns index trace turn spanMatches).keys.filter (fits session turn))))

def spanMatches (record : Json) : Except String (OrdSet NativeTurn) :=
  match spanOf record with
  | some key => spanCandidates index key
  | none => .ok Table.empty

def resolve (record : Json) (attributes : Table String String) :
    Except String (Option NativeTurn) := do
  let session ← sessionAttribute attributes
  let turn ← turnAttribute attributes
  let scope ← sourceScope index record attributes
  let spanMatches ← spanMatches index record
  decideTurn index session turn (hexId (record.get? "traceId") 32) scope spanMatches

/-- The sessions that a record may belong to. -/
def recordSessions (record : Json) (attributes : Table String String) :
    Except String (OrdSet String) := do
  let session ← sessionAttribute attributes
  let own := OrdSet.ofList session.toList
  let scope ← sourceScope index record attributes
  match scope with
  | some .process => pure Table.empty
  | some (.session session) => pure (own.addAll session.toList)
  | some .turn | none =>
      let turn ← turnAttribute attributes
      let ofTurn := ((turn.map (nativeTurns index)).getD Table.empty).keys
      let scope := (hexId (record.get? "traceId") 32).bind index.traces.get?
      let ofTrace := (scope.map fun scope =>
        scope.sessions.keys ++ (candidates index Table.empty scope.turns).keys.map
          fun pair => (ofLex pair).1).getD []
      pure (own.addAll (ofTurn.map (fun pair => (ofLex pair).1) ++ ofTrace))

/-- Why a record has no turn; this says nothing about which turn it has. -/
def unresolvedReason (record : Json) (attributes : Table String String) :
    Except String String := do
  let turn ← turnAttribute attributes
  if turn.any fun turn => (index.native.get? turn).isNone then pure "unknown_turn_owner"
  else match hexId (record.get? "traceId") 32 with
    | none => pure "missing_trace_context"
    | some trace =>
        match index.traces.get? trace with
        | none => pure "unobserved_trace_context"
        | some scope =>
            if isEmpty scope.turns then pure "trace_without_native_turn"
            else if 1 < (candidates index scope.sessions scope.turns).len then
              pure "ambiguous_turn_context"
            else pure "unresolved_turn_context"

end Resolution

end ChipTrace.TurnIdentity
