/-
The boundaries of a Session: starts and terminals, counted as they are observed, and
the epochs that a reader of the same boundaries sees.
-/
import ChipTrace.Lib.Text

namespace ChipTrace

inductive Boundary where
  | start
  | terminal
  deriving DecidableEq

structure LifecycleState where
  boundarySource : String := ""
  startCount : Nat := 0
  terminalCount : Nat := 0
  invalidBoundaryCount : Nat := 0
  latestEpochClosed : Bool := false
  latestBoundary : Option String := none
  latestBoundaryCaptureId : Option String := none
  deriving DecidableEq

def normalizeEvent (event : String) : String :=
  String.ofList ((Text.asciiLower (Text.trim event)).toList.map fun c =>
    if c = '-' || c = '.' || c = ' ' || c = ':' then '_' else c)

def isStartEvent (event : String) : Bool :=
  ["session_start", "session_started", "task_start", "task_started"].contains
    (normalizeEvent event)

def isTerminalEvent (event : String) : Bool :=
  let event := normalizeEvent event
  ["session_end", "session_ended", "task_end", "task_ended", "task_completed", "cancel",
      "cancelled", "canceled", "terminated", "abort", "aborted", "abandoned"].contains event ||
    Text.startsWith event "session_cancel" || Text.startsWith event "task_cancel" ||
    Text.startsWith event "session_fail" || Text.startsWith event "task_fail"

namespace LifecycleState

def new (boundarySource : String) : LifecycleState := { boundarySource := boundarySource }

def observe (state : LifecycleState) (boundary : Boundary) (event captureId : String)
    (requirePair : Bool) : LifecycleState :=
  let counted :=
    match boundary with
    | .start =>
        { state with
          invalidBoundaryCount := state.invalidBoundaryCount +
            (if requirePair && state.terminalCount < state.startCount then 1 else 0)
          startCount := state.startCount + 1
          latestEpochClosed := false }
    | .terminal =>
        let terminalCount := state.terminalCount + 1
        if requirePair && state.startCount < terminalCount then
          { state with
            terminalCount := terminalCount
            invalidBoundaryCount := state.invalidBoundaryCount + 1
            latestEpochClosed := false }
        else { state with terminalCount := terminalCount, latestEpochClosed := true }
  { counted with
    latestBoundary := some (normalizeEvent event)
    latestBoundaryCaptureId := some captureId }

/-- The flag tells whether the event was a terminal. -/
def observeEvent (state : LifecycleState) (event captureId : String) (requirePair : Bool) :
    LifecycleState × Bool :=
  let event := normalizeEvent event
  if isStartEvent event then (state.observe .start event captureId requirePair, false)
  else if isTerminalEvent event then (state.observe .terminal event captureId requirePair, true)
  else (state, false)

def observeFinalSnapshot (state : LifecycleState) (captureId : String) : LifecycleState :=
  { state with
    terminalCount := state.terminalCount + 1
    latestEpochClosed := true
    boundarySource := "final_snapshot"
    latestBoundary := some "final_snapshot"
    latestBoundaryCaptureId := some captureId }

end LifecycleState

/-- A boundary as a capture reports it. -/
structure Observed where
  boundary : Boundary
  event : String
  captureId : String
  deriving DecidableEq

/-- All boundaries of a Session, each of which must pair with its neighbour. -/
def observeAll (state : LifecycleState) (word : List Observed) : LifecycleState :=
  word.foldl (fun state seen => state.observe seen.boundary seen.event seen.captureId true) state

section Epochs

/-- The last of the boundaries; nothing is open before the first one. -/
def lastOf (word : List Observed) : Boundary :=
  (word.getLast?.map Observed.boundary).getD .terminal

/-- The last boundary is a terminal that closes a start which was still open. -/
def ClosesOpen (word : List Observed) : Prop :=
  ∃ earlier seen, word = earlier ++ [seen] ∧ seen.boundary = .terminal ∧ lastOf earlier = .start

/-- The boundaries that repeat the one before them. -/
def breaks (previous : Boundary) : List Observed → Nat
  | [] => 0
  | seen :: rest => (if seen.boundary = previous then 1 else 0) + breaks seen.boundary rest

/-- The state tells the latest epoch of the word. -/
structure Exact (word : List Observed) (state : LifecycleState) : Prop where
  closed : state.latestEpochClosed = true ↔ ClosesOpen word
  invalid : state.invalidBoundaryCount = breaks .terminal word

/-- After paired epochs there is one kind of boundary, any number of times, and at most one
boundary after that. -/
def PairsOff : List Boundary → Bool
  | .start :: .terminal :: rest => PairsOff rest
  | [] => true
  | first :: rest => (rest.dropWhile (· = first)).length ≤ 1

end Epochs

end ChipTrace
