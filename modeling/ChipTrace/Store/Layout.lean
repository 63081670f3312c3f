/-
How a capture lies in a segment file.
-/
import ChipTrace.Capture.Normalize
import ChipTrace.Store.Types

namespace ChipTrace

/-- The line of a capture: its bytes and the line end. -/
def CaptureRecord.line (record : CaptureRecord) : Bytes := record.canonical ++ [10]

/-- Where a capture lies when its line starts at an offset of a segment. -/
def CaptureRecord.locator (record : CaptureRecord) (segmentId offset : Nat) : CaptureLocator :=
  { captureId := record.captureId
    rawSha256 := record.sha256
    segmentId
    offset
    length := record.canonical.length + 1
    receivedAt := record.receivedAt
    model := record.model }

end ChipTrace
