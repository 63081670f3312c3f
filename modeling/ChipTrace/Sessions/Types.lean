/-
A capture as the assembly of Sessions reads it, and the token usage it reports.
-/
import ChipTrace.Capture.Envelope
import ChipTrace.Lib.Checked

namespace ChipTrace.Assemble

structure Usage where
  inputTokens : Nat := 0
  cachedInputTokens : Nat := 0
  cacheCreationInputTokens : Nat := 0
  outputTokens : Nat := 0
  reasoningTokens : Nat := 0
  totalTokens : Nat := 0
  deriving DecidableEq

structure UsagePresence where
  inputTokens : Bool := false
  cachedInputTokens : Bool := false
  cacheCreationInputTokens : Bool := false
  outputTokens : Bool := false
  reasoningTokens : Bool := false
  totalTokens : Bool := false
  deriving DecidableEq

structure UsageObservation where
  values : Usage := {}
  present : UsagePresence := {}
  deriving DecidableEq

structure ParsedCapture where
  sourceOrder : Nat := 0
  captureId : String
  timestampUnixNanos : Option Int := none
  response : Json := .null
  requestId : Option String := none
  upstreamRequestId : Option String := none
  responseId : Option String := none
  responseStatus : Option Nat := none
  terminalStatus : Option String := none
  gatewayEvidence : Option Json := none
  gatewayEvidenceJoin : Option Json := none
  lifecycleEvents : List String := []
  lifecycleEventRecords : List Json := []
  finalSnapshot : Bool := false
  usage : UsageObservation := {}
  rolloutEvent : Option Json := none
  deriving DecidableEq

/-- A text field that is not blank. -/
def stringField (value : Json) (key : String) : Option String :=
  ((value.get? key).bind Json.asStr).filter fun text => !Text.isBlank text

end ChipTrace.Assemble
