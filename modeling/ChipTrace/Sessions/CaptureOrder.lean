/-
The order of the captures of a Session.
-/
import ChipTrace.Lib.GroupedOrder
import ChipTrace.Sessions.Types
import Mathlib.Data.Int.Order.Basic
import Mathlib.Order.Lex

namespace ChipTrace.Assemble

/-- The bundle and the ordinal of a native rollout event. -/
def nativeSourceOrder (event : Option Json) : Option (String × Nat) := do
  let event ← event
  if stringField event "source" != some "codex_rollout_trace_bundle" then none
  let trace ← stringField event "bundle_trace_id"
  let ordinal ← (event.get? "source_ordinal").bind Json.asU64
  pure (trace, ordinal)

/-- The order in which captures came, and their ids. -/
def compareSource (left right : ParsedCapture) : Ordering :=
  (compare left.sourceOrder right.sourceOrder).then (compare left.captureId right.captureId)

def compareCaptureOrder (left right : ParsedCapture) : Ordering :=
  let timeOrder := compare left.timestampUnixNanos right.timestampUnixNanos
  if timeOrder != .eq then timeOrder
  else
    match nativeSourceOrder left.rolloutEvent, nativeSourceOrder right.rolloutEvent with
    | some (leftTrace, leftOrdinal), some (rightTrace, rightOrdinal) =>
        if leftTrace = rightTrace then
          (compare leftOrdinal rightOrdinal).then (compareSource left right)
        else compareSource left right
    | _, _ => compareSource left right

def compareTime (left right : ParsedCapture) : Ordering :=
  compare left.timestampUnixNanos right.timestampUnixNanos

def nativeOrder (capture : ParsedCapture) : Option (String × Nat) :=
  nativeSourceOrder capture.rolloutEvent

instance : Std.TransCmp compareTime :=
  inferInstanceAs (Std.TransCmp (compareOn ParsedCapture.timestampUnixNanos))

instance : Std.TransCmp compareSource :=
  inferInstanceAs (Std.TransCmp
    (compareLex (compareOn ParsedCapture.sourceOrder) (compareOn ParsedCapture.captureId)))

/-- The order of captures is an order by time, by ordinal inside a bundle, and by source. -/
theorem compareCaptureOrder_eq_grouped :
    compareCaptureOrder = Comparator.grouped compareTime nativeOrder compareSource := by
  funext left right
  rw [compareCaptureOrder, Comparator.grouped, compareTime, nativeOrder, nativeOrder]
  cases compare left.timestampUnixNanos right.timestampUnixNanos with
  | lt => rfl
  | gt => rfl
  | eq =>
      cases nativeSourceOrder left.rolloutEvent with
      | none => rfl
      | some leftOrder =>
          cases nativeSourceOrder right.rolloutEvent with
          | none => rfl
          | some rightOrder => rfl

/-- Two captures of one bundle and one time come in the other order than their ordinals, and
a capture of that time which is not of the bundle came between them. -/
def Crossing (first between second : ParsedCapture) : Prop :=
  Comparator.Crosses compareTime nativeOrder compareSource first between second

namespace Samples

def rollout (ordinal : Nat) : Json :=
  .obj [("bundle_trace_id", .str "bundle-1"), ("source", .str "codex_rollout_trace_bundle"),
    ("source_ordinal", .num ordinal)]

/-- Two events of a bundle whose ordinals are against the order in which they came, and a
wire capture between them, all of one time. -/
def crossing : List ParsedCapture :=
  [{ sourceOrder := 0, captureId := "cap-1", timestampUnixNanos := some 1,
      rolloutEvent := some (rollout 2) },
    { sourceOrder := 1, captureId := "cap-2", timestampUnixNanos := some 1 },
    { sourceOrder := 2, captureId := "cap-3", timestampUnixNanos := some 1,
      rolloutEvent := some (rollout 1) }]

end Samples

end ChipTrace.Assemble
