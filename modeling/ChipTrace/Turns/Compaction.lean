/-
Compaction inside a native Turn: the evidence of a Turn, the summary of its compactions, and the
boundaries of a Turn that is nothing but a manual compaction.
-/
import Mathlib.Data.List.Dedup
import ChipTrace.Lib.KeepFirst
import ChipTrace.Lib.OrdSet
import ChipTrace.Lib.Text
import ChipTrace.Lib.Windows
import ChipTrace.Lib.Json.Basic

namespace ChipTrace.Compaction

section Fields

/-- A text at a path that is not empty. -/
def string (capture : Json) (path : List String) : Option String :=
  ((path.foldlM Json.get? capture).bind Json.asStr).filter fun value => !value.isEmpty

/-- The Session of the producer, also when a child was moved to its root. -/
def nativeSession (capture : Json) : Option String :=
  (string capture ["traceContext", "source_session_id"]).or
    (string capture ["traceContext", "session_id"])

def captureId (capture : Json) : Option String := string capture ["captureId"]

def sourceEvent (capture : Json) (field : String) : Option String :=
  string capture ["lifecycleEvent", "source_event", field]

/-- The native Session and Turn of a capture. -/
def turnOf (capture : Json) : Option (String × String) := do
  let session ← nativeSession capture
  let turn ← string capture ["traceContext", "turn_id"]
  return (session, turn)

/-- The one value of a header, whatever the case of its name. -/
def metadataHeader (capture : Json) : Option String := do
  let headers ← (capture.get? "requestHeaders").bind Json.asObject
  let values ← (headers.filter fun header =>
    Text.asciiLower header.1 == "x-codex-turn-metadata").mapM fun header => header.2.asStr
  match (OrdSet.ofList values).keys with
  | [value] => some value
  | _ => none

def validHook (capture : Json) (name status session turn trigger : String) : Bool :=
  string capture ["recordType"] == some "lifecycle_event" &&
    string capture ["lifecycleEvent", "source_event_name"] == some name &&
    sourceEvent capture "hook_event_name" == some name &&
    string capture ["lifecycleEvent", "status"] == some status &&
    sourceEvent capture "session_id" == some session &&
    sourceEvent capture "turn_id" == some turn &&
    sourceEvent capture "trigger" == some trigger

end Fields

/-- What the captures of a Turn are evidence of. -/
structure Evidence where
  wire : List Json
  starts : List Json
  terminals : List Json
  businessTurn : Bool

def isWire (capture : Json) : Bool := string capture ["recordType"] == some "api_snapshot"

def hasEvent (type : String) (capture : Json) : Bool :=
  string capture ["lifecycleEvent", "type"] == some type

/-- A tool, a start of the Turn or a prompt. -/
def isBusiness (capture : Json) : Bool :=
  string capture ["recordType"] == some "tool_execution" || hasEvent "turn_start" capture ||
    hasEvent "user_prompt_submit" capture

def evidenceOf (captures : List Json) : Evidence where
  wire := captures.filter isWire
  starts := captures.filter (hasEvent "compaction_start")
  terminals := captures.filter (hasEvent "compaction_end")
  businessTurn := captures.any isBusiness

structure CompactionSummary where
  operations : Nat
  preHooks : Nat
  postHooks : Nat
  complete : Bool
  deriving DecidableEq

section Summary

variable (parseJson : String → Option Json) (parseRfc3339 : String → Option Int)

def occurredAt (capture : Json) : Option Int :=
  (string capture ["lifecycleEvent", "occurred_at"]).bind parseRfc3339

def metadata (capture : Json) : Option Json := (metadataHeader capture).bind parseJson

/-- A compaction is told apart by its trigger, its phase and its window. -/
structure Operation where
  trigger : String
  phase : String
  window : String
  deriving DecidableEq

/-- The compaction that a request is part of, if it is part of one. -/
def operationOf (capture : Json) : Option Operation := do
  let metadata ← metadata parseJson capture
  if string metadata ["request_kind"] == some "compaction" then
    return {
      trigger := (string metadata ["compaction", "trigger"]).getD ""
      phase := (string metadata ["compaction", "phase"]).getD ""
      window := (string metadata ["window_id"]).getD "" }
  else none

/-- The metadata of a request can be read, and if it is a compaction it is one of this Turn. -/
def validWire (session turn : String) (capture : Json) : Bool :=
  match metadata parseJson capture with
  | none => false
  | some metadata =>
      match operationOf parseJson capture with
      | none => true
      | some operation =>
          string metadata ["session_id"] == some session &&
            string metadata ["turn_id"] == some turn &&
            (match operation.trigger, operation.phase with
              | "manual", "standalone_turn" => true
              | "auto", "pre_turn" | "auto", "mid_turn" | "auto", "post_turn" =>
                  !operation.window.isEmpty &&
                    string capture ["traceContext", "window_id"] == some operation.window
              | _, _ => false)

/-- A request that is the manual compaction of a Turn of its own. -/
def isManual (capture : Json) : Bool :=
  (metadata parseJson capture).any fun metadata =>
    string metadata ["request_kind"] == some "compaction" &&
      string metadata ["compaction", "trigger"] == some "manual" &&
      string metadata ["compaction", "phase"] == some "standalone_turn"

def triggeredBy (trigger : String) (capture : Json) : Bool :=
  sourceEvent capture "trigger" == some trigger

/-- The hooks of a trigger are as many as its compactions, each as it should be, and in the order
of their times every start is followed by its end. -/
def validHooks (evidence : Evidence) (session turn trigger : String) (expected : Nat) : Bool :=
  let starts := evidence.starts.filter (triggeredBy trigger)
  let terminals := evidence.terminals.filter (triggeredBy trigger)
  let hooks := (starts.filterMap fun capture => (occurredAt parseRfc3339 capture).map Mark.start) ++
    terminals.filterMap fun capture => (occurredAt parseRfc3339 capture).map Mark.finish
  starts.all (fun capture => validHook capture "PreCompact" "started" session turn trigger &&
      (occurredAt parseRfc3339 capture).isSome) &&
    decide (starts.length = expected) &&
    terminals.all (fun capture =>
      validHook capture "PostCompact" "completed" session turn trigger &&
        (occurredAt parseRfc3339 capture).isSome) &&
    decide (terminals.length = expected) &&
    decide (hooks.length = expected * 2) &&
    alternates (hooks.insertionSort (· ≤ ·))

def operationsOf (evidence : Evidence) : List Operation :=
  (evidence.wire.filterMap (operationOf parseJson)).dedup

def countOf (operations : List Operation) (trigger : String) : Nat :=
  (operations.filter fun operation => operation.trigger == trigger).length

/-- Everything that is asked of the compactions of a Turn. -/
def validGroup (evidence : Evidence) (session turn : String) : Bool :=
  let operations := operationsOf parseJson evidence
  evidence.wire.all (validWire parseJson session turn) &&
    (!(operations.any fun operation => operation.trigger == "manual") ||
      (!evidence.businessTurn && decide (operations.length = 1) &&
        evidence.wire.all (isManual parseJson))) &&
    ["manual", "auto"].all (fun trigger =>
      validHooks parseRfc3339 evidence session turn trigger (countOf operations trigger)) &&
    (evidence.starts ++ evidence.terminals).all fun capture =>
      triggeredBy "manual" capture || triggeredBy "auto" capture

/-- Nothing is said of a Turn without a compaction. -/
def summarize (evidence : Evidence) (session turn : String) : Option CompactionSummary :=
  let operations := operationsOf parseJson evidence
  if operations.isEmpty && evidence.starts.isEmpty && evidence.terminals.isEmpty then none
  else some {
    operations := operations.length
    preHooks := evidence.starts.length
    postHooks := evidence.terminals.length
    complete := validGroup parseJson parseRfc3339 evidence session turn && !operations.isEmpty }

/-- The request of a Turn that is nothing but a manual compaction. -/
def closingWire (session turn : String) (capture : Json) : Bool :=
  (metadata parseJson capture).any fun metadata =>
    string metadata ["session_id"] == some session &&
      string metadata ["turn_id"] == some turn &&
      string metadata ["request_kind"] == some "compaction" &&
      string metadata ["compaction", "phase"] == some "standalone_turn" &&
      string metadata ["compaction", "trigger"] == some "manual"

/-- The hooks that start and end a Turn that is nothing but a manual compaction. -/
def closedTurn (evidence : Evidence) (session turn : String) : Option (Json × Json) :=
  match summarize parseJson parseRfc3339 evidence session turn with
  | none => none
  | some summary =>
      if !summary.complete || evidence.businessTurn || evidence.wire.isEmpty then none
      else
        match evidence.starts, evidence.terminals with
        | [start], [terminal] =>
            if !validHook start "PreCompact" "started" session turn "manual" ||
                !validHook terminal "PostCompact" "completed" session turn "manual" then none
            else
              match occurredAt parseRfc3339 start, occurredAt parseRfc3339 terminal with
              | some started, some finished =>
                  if finished < started ||
                      !evidence.wire.all (closingWire parseJson session turn) then none
                  else some (start, terminal)
              | _, _ => none
        | _, _ => none

end Summary

section Boundaries

variable (parseJson : String → Option Json) (parseRfc3339 : String → Option Int)

structure CompactionBoundaries where
  starts : OrdSet String := Table.empty
  terminals : OrdSet String := Table.empty
  summaries : Table (String ×ₗ String) CompactionSummary := Table.empty

/-- The captures of every Turn. -/
def groupsOf (captures : List Json) : Table (String ×ₗ String) (List Json) :=
  Table.empty.pushAll (captures.filterMap fun capture =>
    (turnOf capture).map fun turn => (toLex turn, capture))

def CompactionBoundaries.mark (boundaries : CompactionBoundaries) (closed : Option (Json × Json)) :
    CompactionBoundaries :=
  match closed.bind fun hooks => (captureId hooks.1).bind fun start =>
      (captureId hooks.2).map fun terminal => (start, terminal) with
  | some (start, terminal) =>
      { boundaries with
        starts := boundaries.starts.add start
        terminals := boundaries.terminals.add terminal }
  | none => boundaries

def CompactionBoundaries.addGroup (boundaries : CompactionBoundaries)
    (group : (String ×ₗ String) × List Json) : CompactionBoundaries :=
  let (session, turn) := ofLex group.1
  let evidence := evidenceOf group.2
  match summarize parseJson parseRfc3339 evidence session turn with
  | none => boundaries
  | some summary =>
      CompactionBoundaries.mark
        { boundaries with summaries := boundaries.summaries.insert group.1 summary }
        (closedTurn parseJson parseRfc3339 evidence session turn)

def fromCaptures (captures : List Json) : CompactionBoundaries :=
  (groupsOf captures).entries.foldl (CompactionBoundaries.addGroup parseJson parseRfc3339) {}

namespace CompactionBoundaries

def isStart (boundaries : CompactionBoundaries) (capture : Json) : Bool :=
  (captureId capture).any fun id => (boundaries.starts.get? id).isSome

def isTerminal (boundaries : CompactionBoundaries) (capture : Json) : Bool :=
  (captureId capture).any fun id => (boundaries.terminals.get? id).isSome

def summary (boundaries : CompactionBoundaries) (session turn : String) :
    Option CompactionSummary :=
  boundaries.summaries.get? (toLex (session, turn))

end CompactionBoundaries

end Boundaries

end ChipTrace.Compaction
