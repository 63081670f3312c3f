/-
The in-memory view of the ingest routes that `/health` and `/ready` report.
-/
import ChipTrace.Quality.Summary

namespace ChipTrace

structure RouteCoverage where
  requests : Nat
  sourceRecords : Nat
  durableCaptures : Nat
  duplicates : Nat
  quality : EndpointQuality
  lastAt : Option String
  firstObservedMillis : Option Nat
  lastObservedMillis : Option Nat
  deriving DecidableEq

def RouteCoverage.empty : RouteCoverage :=
  ⟨0, 0, 0, 0, EndpointQuality.zero, none, none, none⟩

/-- The three producer routes and the quality view. -/
structure IngestCoverageState where
  startedAt : String
  otlpLogs : RouteCoverage
  otlpTraces : RouteCoverage
  hooks : RouteCoverage
  lifecycleEvents : Nat
  toolExecutions : Nat
  qualityErrors : Nat
  qualityErrorsCurrentProcess : Nat
  qualityErrorsArchivedTotal : Nat
  qualityArchive : Option IngestQualityArchive
  deriving DecidableEq

/-- The errors of one request added to a route, saturating. -/
def EndpointQuality.observe (quality reported : EndpointQuality) : EndpointQuality :=
  { unknownEvents := U64.saturatingAdd quality.unknownEvents reported.unknownEvents
    conversionErrors := U64.saturatingAdd quality.conversionErrors reported.conversionErrors
    qualityReasons := Tally.mergeSaturating quality.qualityReasons reported.qualityReasons }

namespace IngestCoverageState

def route (state : IngestCoverageState) : CloudEndpoint → RouteCoverage
  | .otlpLogs => state.otlpLogs
  | .otlpTraces => state.otlpTraces
  | .codexHook => state.hooks

def setRoute (state : IngestCoverageState) (endpoint : CloudEndpoint) (route : RouteCoverage) :
    IngestCoverageState :=
  match endpoint with
  | .otlpLogs => { state with otlpLogs := route }
  | .otlpTraces => { state with otlpTraces := route }
  | .codexHook => { state with hooks := route }

/-- Replace the quality view with a ledger snapshot. -/
def applyQualitySnapshot (state : IngestCoverageState) (counters : IngestQualityCounters)
    (archive : Option IngestQualityArchive) : Except String IngestCoverageState := do
  let total ← counters.checkedTotal
  pure { state with
    qualityErrors := total
    qualityErrorsArchivedTotal :=
      (archive.map IngestQualityArchive.sourceQualityErrors).getD 0
    qualityArchive := archive
    otlpLogs := { state.otlpLogs with quality := counters.endpoint .otlpLogs }
    otlpTraces := { state.otlpTraces with quality := counters.endpoint .otlpTraces }
    hooks := { state.hooks with quality := counters.endpoint .codexHook } }

def withQualitySnapshot (startedAt : String) (counters : IngestQualityCounters)
    (archive : Option IngestQualityArchive) : Except String IngestCoverageState :=
  applyQualitySnapshot
    ⟨startedAt, RouteCoverage.empty, RouteCoverage.empty, RouteCoverage.empty, 0, 0, 0, 0, 0,
      none⟩
    counters archive

end IngestCoverageState

/-- What a request hands to the view once its captures are durable. -/
structure IngestRequest where
  endpoint : CloudEndpoint
  summary : CloudIngestSummary
  durableCaptures : Nat
  duplicates : Nat
  lifecycleEvents : Nat
  toolExecutions : Nat
  deriving DecidableEq

namespace IngestCoverageState

def observeRoute (route : RouteCoverage) (request : IngestRequest) (millis : Nat)
    (now : String) : RouteCoverage :=
  { requests := U64.saturatingAdd route.requests 1
    sourceRecords := U64.saturatingAdd route.sourceRecords request.summary.sourceRecords
    durableCaptures := U64.saturatingAdd route.durableCaptures request.durableCaptures
    duplicates := U64.saturatingAdd route.duplicates request.duplicates
    quality := route.quality.observe request.summary.quality
    lastAt := some now
    firstObservedMillis := some (route.firstObservedMillis.getD millis)
    lastObservedMillis := some millis }

def observeCloud (state : IngestCoverageState) (request : IngestRequest) (millis : Nat)
    (now : String) : IngestCoverageState :=
  let qualityErrors := request.summary.qualityRejections
  let observed := state.setRoute request.endpoint
    (observeRoute (state.route request.endpoint) request millis now)
  { observed with
    lifecycleEvents := U64.saturatingAdd state.lifecycleEvents request.lifecycleEvents
    toolExecutions := U64.saturatingAdd state.toolExecutions request.toolExecutions
    qualityErrors := U64.saturatingAdd state.qualityErrors qualityErrors
    qualityErrorsCurrentProcess :=
      U64.saturatingAdd state.qualityErrorsCurrentProcess qualityErrors }

def count (state : IngestCoverageState) (endpoint : CloudEndpoint) (kind : QualityKind) : Nat :=
  (state.route endpoint).quality.count kind

variable {state : IngestCoverageState}

/-- Applying a reconciled snapshot succeeds and shows its counts. -/
theorem applyQualitySnapshot_spec (state : IngestCoverageState)
    {counters : IngestQualityCounters} (h : counters.Reconciled)
    (archive : Option IngestQualityArchive) :
    ∃ next, state.applyQualitySnapshot counters archive = .ok next ∧
      next.count = counters.count ∧ next.qualityErrors = counters.counts.sum := by
  rw [applyQualitySnapshot, h.checkedTotal_eq]
  refine ⟨_, rfl, ?_, rfl⟩
  funext endpoint kind
  cases endpoint <;> rfl

/-- Below the 64-bit limit the view adds the reported count. -/
theorem count_observe {quality reported : EndpointQuality}
    {kind : QualityKind} (hfits : quality.count kind + reported.count kind < U64.limit) :
    (quality.observe reported).count kind = quality.count kind + reported.count kind := by
  cases kind with
  | unknownEvent => exact U64.saturatingAdd_eq hfits
  | conversionError => exact U64.saturatingAdd_eq hfits
  | reason code => exact Tally.count_mergeSaturating hfits

theorem observeCloud_route (request : IngestRequest) (millis : Nat) (now : String)
    (endpoint : CloudEndpoint) :
    (state.observeCloud request millis now).route endpoint =
      if endpoint = request.endpoint then
        observeRoute (state.route request.endpoint) request millis now
      else state.route endpoint := by
  simp only [observeCloud]
  generalize request.endpoint = at_
  cases at_ <;> cases endpoint <;> rfl

theorem observeCloud_count {request : IngestRequest} {millis : Nat} {now : String}
    {endpoint : CloudEndpoint} {kind : QualityKind}
    (hfits : state.count endpoint kind +
      (if endpoint = request.endpoint then request.summary.quality.count kind else 0) <
        U64.limit) :
    (state.observeCloud request millis now).count endpoint kind =
      state.count endpoint kind +
        if endpoint = request.endpoint then request.summary.quality.count kind else 0 := by
  rw [count, observeCloud_route]
  split_ifs at hfits ⊢ with hend
  · subst hend
    exact count_observe hfits
  · rfl

end IngestCoverageState

end ChipTrace
