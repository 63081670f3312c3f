/-
What one ingest request reports about malformed producer data, and the stable
reason each error counts under.
-/
import ChipTrace.Lib.Text
import ChipTrace.Quality.Counters

namespace ChipTrace

structure CloudIngestSummary where
  endpoint : String
  sourceRecords : Nat
  derivedCaptures : Nat
  unknownEvents : Nat
  attributedQualityErrors : Nat
  conversionErrors : List String
  deriving DecidableEq

def classifyQualityError (error : String) : String :=
  let normalized := Text.asciiLower error
  let mentions := fun patterns : List String => patterns.any (Text.contains normalized)
  if mentions ["lifecycle", "conflicting duplicate outcome",
      "conflicting duplicate status"] then "invalid_lifecycle"
  else if mentions ["conflicting", "identity conflict", "duplicate context"] then
    "identity_conflict"
  else if mentions ["missing session", "requires session", "missing turn", "requires turn",
      "conversation.id", "turn.id", "session_id", "turn_id"] then "missing_identity"
  else if mentions ["unsupported", "unknown event"] then "unsupported_event"
  else if mentions ["attribute", "metadata"] then "invalid_attributes"
  else if mentions ["tool"] then "invalid_tool"
  else if mentions ["lifecycle", "status"] then "invalid_lifecycle"
  else if mentions ["timestamp", "occurred_at"] then "invalid_timestamp"
  else if mentions ["structure", "must be an object", "must be an array", "must contain",
      "invalid json"] then "invalid_structure"
  else "conversion_error"

/-- Unknown events count as unsupported, and each conversion error counts once
under its class. -/
def qualityErrorReasons (summary : CloudIngestSummary) : Table String Nat :=
  let unknown := if 0 < summary.unknownEvents then
      Table.empty.insert "unsupported_event" summary.unknownEvents
    else Table.empty
  summary.conversionErrors.foldl
    (fun reasons error => Tally.bumpSaturating reasons (classifyQualityError error, 1)) unknown

namespace CloudIngestSummary

/-- The errors of a request as counters. -/
def quality (summary : CloudIngestSummary) : EndpointQuality :=
  ⟨summary.unknownEvents, summary.conversionErrors.length, qualityErrorReasons summary⟩

def qualityRejections (summary : CloudIngestSummary) : Nat :=
  U64.saturatingAdd summary.unknownEvents summary.conversionErrors.length

/-- A request without rejections has no count of any kind. -/
theorem quality_eq_zero {summary : CloudIngestSummary}
    (hclean : summary.qualityRejections = 0) : summary.quality = EndpointQuality.zero := by
  have hlimit : 0 < U64.limit - 1 := by decide
  have hboth : summary.unknownEvents = 0 ∧ summary.conversionErrors.length = 0 := by
    rw [qualityRejections, U64.saturatingAdd] at hclean
    omega
  have herrors : summary.conversionErrors = [] := List.length_eq_zero_iff.mp hboth.2
  simp [quality, qualityErrorReasons, EndpointQuality.zero, hboth.1, herrors]

end CloudIngestSummary

/-- Every class is one of the published reason codes. -/
theorem classifyQualityError_mem (error : String) :
    classifyQualityError error ∈ qualityReasonCodes := by
  rw [classifyQualityError]
  generalize (fun patterns : List String =>
    patterns.any (Text.contains (Text.asciiLower error))) = mentions
  split_ifs <;> simp [qualityReasonCodes]

end ChipTrace
