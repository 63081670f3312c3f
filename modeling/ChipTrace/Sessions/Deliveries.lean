/-
The native boundaries of a Session as three readers see them: the Session view, the root
span of the Session and the assembled Session.  The hooks deliver each boundary twice.
-/
import ChipTrace.Lib.KeepFirst
import ChipTrace.Sessions.Epochs
import ChipTrace.Sessions.Types
import ChipTrace.Telemetry.Records

namespace ChipTrace

open Telemetry (pointer pointerStr)

/-- What a reader says about the epochs of a Session. -/
structure EpochReport where
  epochs : Nat
  latestEpochClosed : Bool
  invalidBoundaries : Nat
  deriving DecidableEq

def isCompact (source : Option String) : Bool :=
  source.any fun text => Text.asciiLower text == "compact"

namespace SessionView

variable (parseRfc3339 : String → Option Int)

/-- A text at a path that is not blank. -/
def string (value : Json) (tokens : List String) : Option String :=
  (pointerStr value tokens).filter fun text => !Text.isBlank text

def boundaryMillis (capture : Json) : Option Int := do
  let text ← (string capture ["lifecycleEvent", "occurred_at"]).or
    (string capture ["lifecycleEvent", "source_event", "occurred_at"])
  let nanos ← parseRfc3339 text
  let millis := nanos.tdiv 1000000
  if -2 ^ 63 ≤ millis ∧ millis < 2 ^ 63 then some millis else none

/-- Whether a boundary repeats the last one within two seconds, and the last one after it. -/
def duplicateBoundary (last : Option (Boundary × Int)) (event : Boundary) (at? : Option Int) :
    Bool × Option (Boundary × Int) :=
  match at? with
  | none => (false, some (event, -2 ^ 63))
  | some time =>
      match last with
      | some (previous, previousTime) =>
          if previous = event ∧ (time - previousTime).natAbs ≤ 2000 then (true, last)
          else (false, some (event, time))
      | none => (false, some (event, time))

def sourceSession (capture : Json) : Option String :=
  ((string capture ["traceContext", "source_session_id"]).or
    (string capture ["lifecycleEvent", "source_event", "session_id"])).or
      (string capture ["traceContext", "session_id"])

def hookBoundary (capture : Json) : Option Boundary :=
  match string capture ["lifecycleEvent", "source_event_name"] with
  | some "SessionStart" =>
      if isCompact (string capture ["lifecycleEvent", "source_event", "source"]) then none
      else some .start
  | some "SessionEnd" => some .terminal
  | _ => none

def boundaryEvent : Boundary → String
  | .start => "session_start"
  | .terminal => "session_end"

def observeCapture (sessionId : String)
    (held : LifecycleState × Option (Boundary × Int)) (capture : Json) :
    LifecycleState × Option (Boundary × Int) :=
  if sourceSession capture = some sessionId then
    match hookBoundary capture with
    | none => held
    | some boundary =>
        let (duplicate, last) := duplicateBoundary held.2 boundary
          (boundaryMillis parseRfc3339 capture)
        if duplicate then (held.1, last)
        else
          ((held.1.observeEvent (boundaryEvent boundary)
            ((string capture ["captureId"]).getD "missing") true).1, last)
  else held

def lifecycle (sessionId : String) (captures : List Json) : LifecycleState :=
  (captures.foldl (observeCapture parseRfc3339 sessionId)
    (LifecycleState.new "stock_codex_hook", none)).1

def report (sessionId : String) (captures : List Json) : EpochReport :=
  let state := lifecycle parseRfc3339 sessionId captures
  { epochs := state.startCount
    latestEpochClosed := state.latestEpochClosed && state.invalidBoundaryCount == 0
    invalidBoundaries := state.invalidBoundaryCount }

end SessionView

namespace RootSpan

def stockHookSessionBoundary (capture : Json) : Option String :=
  match pointerStr capture ["lifecycleEvent", "source_event_name"] with
  | some "SessionStart" =>
      if isCompact (pointerStr capture ["lifecycleEvent", "source_event", "source"]) then none
      else some "session_start"
  | some "SessionEnd" => some "session_end"
  | _ => none

def isSessionRootTerminal (eventType : String) : Bool :=
  ["session_end", "session_ended", "session_cancelled"].contains eventType ||
    Text.startsWith eventType "session_cancel"

def eventType (capture : Json) : Option String := pointerStr capture ["lifecycleEvent", "type"]

def isStart (capture : Json) : Bool := eventType capture == some "session_start"

def isTerminal (capture : Json) : Bool := (eventType capture).any isSessionRootTerminal

def normalizeRuntimeStatus (status : Option String) : String :=
  match status.map fun value => Text.asciiLower (Text.trim value) with
  | none => "unknown"
  | some value =>
      if ["success", "succeeded", "completed", "complete", "ok"].contains value then "completed"
      else if ["failed", "failure", "error", "errored"].contains value then "failed"
      else if ["cancel", "cancelled", "canceled"].contains value then "cancelled"
      else if ["abort", "aborted", "terminated"].contains value then "cancelled"
      else if ["timeout", "timed_out"].contains value then "timeout"
      else if value == "incomplete" then "incomplete"
      else if value == "closed" then "closed"
      else if value == "started" || value == "running" then "running"
      else "unknown"

/-- Once a hook has reported a boundary, only the hooks are read. -/
def boundaryObservations (observations : List Json) : List Json :=
  let stockHookBoundaries := observations.any fun capture =>
    (stockHookSessionBoundary capture).isSome
  observations.filter fun capture =>
    !stockHookBoundaries || (stockHookSessionBoundary capture).isSome

def lifecycle (observations : List Json) : LifecycleState :=
  let stockHookBoundaries := observations.any fun capture =>
    (stockHookSessionBoundary capture).isSome
  (boundaryObservations observations).foldl
    (fun state capture =>
      match eventType capture with
      | none => state
      | some event =>
          let captureId := ((capture.get? "captureId").bind Json.asStr).getD "missing"
          if isStart capture then state.observe .start event captureId true
          else if isTerminal capture then state.observe .terminal event captureId true
          else state)
    (LifecycleState.new (if stockHookBoundaries then "stock_codex_hook" else "lifecycle_event"))

def terminals (observations : List Json) : List Json :=
  (boundaryObservations observations).filter isTerminal

def statusOf (capture : Json) : Option String := pointerStr capture ["lifecycleEvent", "status"]

def rootComplete (observations : List Json) : Bool :=
  let state := lifecycle observations
  decide (0 < state.startCount) && decide (0 < state.terminalCount) &&
    state.invalidBoundaryCount == 0 && state.latestEpochClosed &&
      (keepFirst id ((terminals observations).map fun capture =>
        normalizeRuntimeStatus (statusOf capture))).length == 1

def status (observations : List Json) : String :=
  if !(lifecycle observations).latestEpochClosed then "running"
  else
    match (terminals observations).getLast?.bind statusOf with
    | some status => normalizeRuntimeStatus (some status)
    | none => "running"

def report (observations : List Json) : EpochReport :=
  let state := lifecycle observations
  ⟨state.startCount, state.latestEpochClosed, state.invalidBoundaryCount⟩

end RootSpan

namespace Assemble

/-- Adds a field unless there is one of that name. -/
def orInsert (record : JsonMap) (key : String) (value : Json) : JsonMap :=
  if (record.get key).isSome then record else record.insert key value

theorem get_orInsert_of_ne {record : JsonMap} {key other : String} {value : Json}
    (hne : other ≠ key) : (orInsert record key value).get other = record.get other := by
  rw [orInsert]
  split_ifs
  · rfl
  · exact JsonMap.get_insert_of_ne hne

/-- The lifecycle records that parsing finds in a capture. -/
def lifecycleEventRecords (capture : Json) (captureId : String) : List Json :=
  let observed := (((capture.get? "observedLifecycleEvents").bind Json.asArray).getD []).filterMap
    fun event => event.asStr.map fun event => Json.mkObj
      [("capture_id", .str captureId), ("type", .str event), ("source", .str "observed")]
  match capture.get? "lifecycleEvent" with
  | some (.obj event) =>
      observed ++ [.obj (orInsert (orInsert event "capture_id" (.str captureId)) "source"
        (.str "lifecycle_event"))]
  | _ => observed

def stockHookBoundaryRecord (event : Json) : Option String :=
  match (event.get? "source_event_name").bind Json.asStr with
  | some "SessionStart" =>
      if isCompact (pointerStr event ["source_event", "source"]) then none
      else some "session_start"
  | some "SessionEnd" => some "session_end"
  | _ => none

def stockHookBoundaryEvent (capture : ParsedCapture) : Option String :=
  capture.lifecycleEventRecords.findSome? stockHookBoundaryRecord

/-- The boundaries of one capture where no hook reports any: each event once, and the final
snapshot unless a terminal was among them. -/
def observeEvents (state : LifecycleState) (capture : ParsedCapture) : LifecycleState :=
  let events := (capture.lifecycleEventRecords.filterMap fun event =>
    ((event.get? "type").bind Json.asStr).map normalizeEvent)
  let recorded := keepFirst id events
  let later := (capture.lifecycleEvents.map normalizeEvent).filter fun event =>
    !recorded.contains event
  let (state, terminal) := (recorded ++ later).foldl
    (fun (held : LifecycleState × Bool) event =>
      let (state, terminal) := held.1.observeEvent event capture.captureId false
      (state, held.2 || terminal))
    (state, false)
  if capture.finalSnapshot && !terminal then state.observeFinalSnapshot capture.captureId
  else state

def sessionLifecycleState (captures : List ParsedCapture) : LifecycleState :=
  if captures.any fun capture => (stockHookBoundaryEvent capture).isSome then
    captures.foldl
      (fun state capture =>
        match stockHookBoundaryEvent capture with
        | some event => (state.observeEvent event capture.captureId true).1
        | none => state)
      (LifecycleState.new "stock_codex_hook")
  else captures.foldl observeEvents (LifecycleState.new "lifecycle_event")

def terminalSessionStatus (captures : List ParsedCapture) : String :=
  match (captures.reverse.find? fun capture => capture.finalSnapshot).or captures.getLast? with
  | none => "incomplete"
  | some capture =>
      let named := capture.lifecycleEvents.reverse.findSome? fun event =>
        let event := normalizeEvent event
        if Text.contains event "cancel" || Text.contains event "abandon" ||
            Text.contains event "abort" then some "cancelled"
        else if Text.contains event "fail" then some "failed"
        else if Text.contains event "terminate" then some "terminated"
        else none
      match named.or capture.terminalStatus with
      | some status => status
      | none =>
          if capture.responseStatus.any (400 ≤ ·) then "failed"
          else ((capture.response.get? "status").bind Json.asStr).getD "incomplete"

def sessionStatus (captures : List ParsedCapture) : String :=
  let state := sessionLifecycleState captures
  if state.latestEpochClosed && state.invalidBoundaryCount == 0 then
    terminalSessionStatus captures
  else "incomplete"

def report (captures : List ParsedCapture) : EpochReport :=
  let state := sessionLifecycleState captures
  ⟨state.startCount, state.latestEpochClosed, state.invalidBoundaryCount⟩

end Assemble

end ChipTrace
