/-
Rows of the capture store's tables and its acknowledgements.
-/
import Mathlib.Data.String.Basic

namespace ChipTrace

structure CaptureLocator where
  captureId : String
  rawSha256 : String
  segmentId : Nat
  offset : Nat
  length : Nat
  receivedAt : Option String
  model : Option String
  deriving DecidableEq, Repr

structure SubmitAck where
  captureId : String
  state : String
  durable : Bool
  duplicate : Bool
  rawSha256 : String
  segmentId : Nat
  offset : Nat
  length : Nat
  deriving DecidableEq, Repr

/-- The acknowledgement of a stored capture. -/
def ack (locator : CaptureLocator) (duplicate : Bool) (state : String) : SubmitAck :=
  { captureId := locator.captureId
    state
    durable := true
    duplicate
    rawSha256 := locator.rawSha256
    segmentId := locator.segmentId
    offset := locator.offset
    length := locator.length }

end ChipTrace
