/-
Ingest quality counters: what the delivery ledger stores about malformed
producer data, per endpoint and per reason.  The three endpoints carry the same
three fields, so they are grouped into one record each.
-/
import ChipTrace.Lib.Tally
import Mathlib.Data.String.Basic

namespace ChipTrace

inductive CloudEndpoint where
  | otlpLogs
  | otlpTraces
  | codexHook
  deriving DecidableEq, Repr

namespace CloudEndpoint

def asStr : CloudEndpoint → String
  | otlpLogs => "otlp_logs"
  | otlpTraces => "otlp_traces"
  | codexHook => "codex_hook"

/-- The endpoint's name in counter messages. -/
def counterName : CloudEndpoint → String
  | otlpLogs => "OTLP logs"
  | otlpTraces => "OTLP traces"
  | codexHook => "Hook"

/-- The order in which the source visits the endpoints. -/
def all : List CloudEndpoint := [otlpLogs, otlpTraces, codexHook]

theorem mem_all (endpoint : CloudEndpoint) : endpoint ∈ all := by
  cases endpoint <;> decide

end CloudEndpoint

def qualityReasonCodes : List String :=
  ["unsupported_event", "invalid_structure", "invalid_attributes", "identity_conflict",
    "missing_identity", "invalid_tool", "invalid_lifecycle", "invalid_timestamp",
    "conversion_error"]

def legacyUnclassifiedQualityReason : String := "legacy_unclassified"

def isQualityReason (reason : String) : Bool :=
  reason == legacyUnclassifiedQualityReason || qualityReasonCodes.contains reason

/-- The three fields one endpoint has in the counters. -/
structure EndpointQuality where
  unknownEvents : Nat
  conversionErrors : Nat
  qualityReasons : Table String Nat
  deriving DecidableEq

namespace EndpointQuality

def zero : EndpointQuality := ⟨0, 0, Table.empty⟩

/-- Unknown events and conversion errors together. -/
def total (quality : EndpointQuality) : Nat :=
  quality.unknownEvents + quality.conversionErrors

/-- One endpoint's part of `add`, after the reason map has been checked. -/
def add (endpoint : CloudEndpoint) (quality : EndpointQuality)
    (unknownEvents conversionErrors : Nat) (reasons : Table String Nat) :
    Except String EndpointQuality := do
  let unknown ← U64.checkedAdd
    (endpoint.counterName ++ " unknown-event counter overflow")
    quality.unknownEvents unknownEvents
  let conversion ← U64.checkedAdd
    (endpoint.counterName ++ " conversion-error counter overflow")
    quality.conversionErrors conversionErrors
  let destination ← Tally.merge "quality reason counter overflow"
    quality.qualityReasons reasons
  pure ⟨unknown, conversion, destination⟩

/-- One endpoint's part of `reconcile_reason_maps`: errors counted before
reasons existed are attributed to the legacy reason. -/
def reconcile (endpoint : CloudEndpoint) (quality : EndpointQuality) :
    Except String EndpointQuality := do
  let expected ← U64.checkedAdd (endpoint.counterName ++ " quality counter overflow")
    quality.unknownEvents quality.conversionErrors
  if quality.qualityReasons.entries.any fun entry => !isQualityReason entry.1 then
    .error "ingest quality ledger contains an unsupported reason code"
  else do
    let observed ← U64.checkedSum "quality reason map total overflow"
      (Tally.values quality.qualityReasons)
    if expected < observed then
      .error ("ingest quality reason total exceeds endpoint total for " ++ endpoint.asStr)
    else if observed < expected then do
      let reasons ← Tally.bump "legacy quality reason counter overflow"
        quality.qualityReasons (legacyUnclassifiedQualityReason, expected - observed)
      pure { quality with qualityReasons := reasons }
    else pure quality

/-- The reasons explain the endpoint's total exactly and are all known. -/
structure Reconciled (quality : EndpointQuality) : Prop where
  fits : quality.total < U64.limit
  reasonsKnown : ∀ entry ∈ quality.qualityReasons.entries, isQualityReason entry.1
  reasonTotal : Tally.total quality.qualityReasons = quality.total

theorem zero_reconciled : zero.Reconciled :=
  ⟨by decide, by simp [zero, Table.empty], rfl⟩

theorem Reconciled.reconcile_eq {quality : EndpointQuality} (h : quality.Reconciled)
    (endpoint : CloudEndpoint) : reconcile endpoint quality = .ok quality := by
  have hfits := h.fits
  have hsum := h.reasonTotal
  have hexpected : U64.checkedAdd (endpoint.counterName ++ " quality counter overflow")
      quality.unknownEvents quality.conversionErrors = .ok quality.total :=
    U64.checkedAdd_eq_ok_iff.mpr ⟨hfits, rfl⟩
  have hknown : (quality.qualityReasons.entries.any
      fun entry => !isQualityReason entry.1) = false := by
    rw [List.any_eq_false]
    intro entry hentry
    simp [h.reasonsKnown entry hentry]
  have hobserved : U64.checkedSum "quality reason map total overflow"
      (Tally.values quality.qualityReasons) = .ok quality.total :=
    U64.checkedSum_eq_ok_iff.mpr ⟨by rw [← Tally.total, hsum]; exact hfits, hsum⟩
  simp [reconcile, hexpected, hknown, hobserved, Except.pure_eq_ok_iff]

/-- Reconciling only adds a legacy reason, and the result is reconciled. -/
theorem reconcile_spec {endpoint : CloudEndpoint} {quality result : EndpointQuality}
    (hok : reconcile endpoint quality = .ok result) :
    result.Reconciled ∧ result.unknownEvents = quality.unknownEvents ∧
      result.conversionErrors = quality.conversionErrors := by
  rw [reconcile, Except.bind_eq_ok_iff] at hok
  obtain ⟨expected, hexpected, hok⟩ := hok
  obtain ⟨hfits, rfl⟩ := U64.checkedAdd_eq_ok_iff.mp hexpected
  split_ifs at hok with hunknown
  obtain ⟨observed, hobserved, hok⟩ := Except.bind_eq_ok_iff.mp hok
  obtain ⟨_, rfl⟩ := U64.checkedSum_eq_ok_iff.mp hobserved
  have hknown : ∀ entry ∈ quality.qualityReasons.entries, isQualityReason entry.1 := by
    intro entry hentry
    by_contra hbad
    exact hunknown (List.any_eq_true.mpr ⟨entry, hentry, by simpa using hbad⟩)
  split_ifs at hok with hover hunder
  · obtain ⟨reasons, hbump, hresult⟩ := Except.bind_eq_ok_iff.mp hok
    obtain ⟨value, hvalue, hinsert⟩ := Except.bind_eq_ok_iff.mp hbump
    obtain ⟨_, rfl⟩ := U64.checkedAdd_eq_ok_iff.mp hvalue
    rw [Except.pure_eq_ok_iff] at hinsert hresult
    subst hinsert
    subst hresult
    refine ⟨⟨hfits, ?_, ?_⟩, rfl, rfl⟩
    · intro entry hentry
      rcases OrdMap.mem_insert hentry with rfl | hold
      · show isQualityReason legacyUnclassifiedQualityReason = true
        decide
      · exact hknown entry hold
    · have hstep := Tally.total_insert quality.qualityReasons
        legacyUnclassifiedQualityReason
        (Tally.count quality.qualityReasons legacyUnclassifiedQualityReason +
          (quality.unknownEvents + quality.conversionErrors -
            (Tally.values quality.qualityReasons).sum))
      have hold : Tally.total quality.qualityReasons =
        (Tally.values quality.qualityReasons).sum := rfl
      simp only [total] at *
      omega
  · rw [Except.pure_eq_ok_iff] at hok
    subst hok
    refine ⟨⟨hfits, hknown, ?_⟩, rfl, rfl⟩
    have hold : Tally.total quality.qualityReasons =
      (Tally.values quality.qualityReasons).sum := rfl
    simp only [total]
    omega

/-- Reconciling leaves an endpoint alone whose reasons already explain it. -/
theorem reconcile_eq_of_reasonTotal {endpoint : CloudEndpoint}
    {quality result : EndpointQuality}
    (hreasons : Tally.total quality.qualityReasons = quality.total)
    (hok : reconcile endpoint quality = .ok result) : result = quality := by
  rw [reconcile, Except.bind_eq_ok_iff] at hok
  obtain ⟨expected, hexpected, hok⟩ := hok
  obtain ⟨_, rfl⟩ := U64.checkedAdd_eq_ok_iff.mp hexpected
  split_ifs at hok
  obtain ⟨observed, hobserved, hok⟩ := Except.bind_eq_ok_iff.mp hok
  obtain ⟨_, rfl⟩ := U64.checkedSum_eq_ok_iff.mp hobserved
  change (Tally.values quality.qualityReasons).sum =
    quality.unknownEvents + quality.conversionErrors at hreasons
  rw [hreasons, if_neg (lt_irrefl _), if_neg (lt_irrefl _), Except.pure_eq_ok_iff] at hok
  exact hok.symm

theorem reasonTotal_add {endpoint : CloudEndpoint} {quality result : EndpointQuality}
    {unknownEvents conversionErrors : Nat} {reasons : Table String Nat}
    (hreasons : Tally.total quality.qualityReasons = quality.total)
    (hmore : Tally.total reasons = unknownEvents + conversionErrors)
    (hok : add endpoint quality unknownEvents conversionErrors reasons = .ok result) :
    Tally.total result.qualityReasons = result.total := by
  obtain ⟨unknown, hunknown, hok⟩ := Except.bind_eq_ok_iff.mp hok
  obtain ⟨conversion, hconversion, hok⟩ := Except.bind_eq_ok_iff.mp hok
  obtain ⟨destination, hmerge, hok⟩ := Except.bind_eq_ok_iff.mp hok
  obtain ⟨_, rfl⟩ := U64.checkedAdd_eq_ok_iff.mp hunknown
  obtain ⟨_, rfl⟩ := U64.checkedAdd_eq_ok_iff.mp hconversion
  rw [Except.pure_eq_ok_iff] at hok
  subst hok
  have htotal := Tally.total_merge hmerge
  simp only [total] at hreasons ⊢
  omega

end EndpointQuality

structure IngestQualityCounters where
  otlpLogs : EndpointQuality
  otlpTraces : EndpointQuality
  codexHook : EndpointQuality
  deriving DecidableEq

/-- What one unit of a counter stands for. -/
inductive QualityKind where
  | unknownEvent
  | conversionError
  | reason (code : String)
  deriving DecidableEq

namespace EndpointQuality

def count (quality : EndpointQuality) : QualityKind → Nat
  | .unknownEvent => quality.unknownEvents
  | .conversionError => quality.conversionErrors
  | .reason code => Tally.count quality.qualityReasons code

@[simp] theorem count_zero (kind : QualityKind) : zero.count kind = 0 := by
  cases kind <;> rfl

theorem count_add {endpoint : CloudEndpoint} {quality result : EndpointQuality}
    {unknownEvents conversionErrors : Nat} {reasons : Table String Nat}
    (hok : add endpoint quality unknownEvents conversionErrors reasons = .ok result)
    (kind : QualityKind) :
    result.count kind =
      quality.count kind + count ⟨unknownEvents, conversionErrors, reasons⟩ kind := by
  obtain ⟨unknown, hunknown, hok⟩ := Except.bind_eq_ok_iff.mp hok
  obtain ⟨conversion, hconversion, hok⟩ := Except.bind_eq_ok_iff.mp hok
  obtain ⟨destination, hmerge, hok⟩ := Except.bind_eq_ok_iff.mp hok
  obtain ⟨_, rfl⟩ := U64.checkedAdd_eq_ok_iff.mp hunknown
  obtain ⟨_, rfl⟩ := U64.checkedAdd_eq_ok_iff.mp hconversion
  rw [Except.pure_eq_ok_iff] at hok
  subst hok
  cases kind with
  | unknownEvent => rfl
  | conversionError => rfl
  | reason code => exact Tally.count_merge hmerge code

/-- A reconciled endpoint without errors has no count of any kind. -/
theorem Reconciled.count_eq_zero {quality : EndpointQuality} (h : quality.Reconciled)
    (hempty : quality.total = 0) (kind : QualityKind) : quality.count kind = 0 := by
  cases kind with
  | unknownEvent =>
      simp only [total] at hempty
      simp only [count]
      omega
  | conversionError =>
      simp only [total] at hempty
      simp only [count]
      omega
  | reason code =>
      have hle := Tally.count_le_total quality.qualityReasons code
      rw [h.reasonTotal, hempty] at hle
      exact Nat.le_zero.mp hle

end EndpointQuality

namespace IngestQualityCounters

def zero : IngestQualityCounters :=
  ⟨EndpointQuality.zero, EndpointQuality.zero, EndpointQuality.zero⟩

instance : Inhabited IngestQualityCounters := ⟨zero⟩

def endpoint (counters : IngestQualityCounters) : CloudEndpoint → EndpointQuality
  | .otlpLogs => counters.otlpLogs
  | .otlpTraces => counters.otlpTraces
  | .codexHook => counters.codexHook

def setEndpoint (counters : IngestQualityCounters) (endpoint : CloudEndpoint)
    (quality : EndpointQuality) : IngestQualityCounters :=
  match endpoint with
  | .otlpLogs => { counters with otlpLogs := quality }
  | .otlpTraces => { counters with otlpTraces := quality }
  | .codexHook => { counters with codexHook := quality }

theorem endpoint_setEndpoint (counters : IngestQualityCounters)
    (at_ endpoint : CloudEndpoint) (quality : EndpointQuality) :
    (counters.setEndpoint at_ quality).endpoint endpoint =
      if endpoint = at_ then quality else counters.endpoint endpoint := by
  cases at_ <;> cases endpoint <;> rfl

def count (counters : IngestQualityCounters) (endpoint : CloudEndpoint)
    (kind : QualityKind) : Nat := (counters.endpoint endpoint).count kind

@[simp] theorem count_default (endpoint : CloudEndpoint) (kind : QualityKind) :
    (default : IngestQualityCounters).count endpoint kind = 0 := by
  cases endpoint <;> exact EndpointQuality.count_zero kind

/-- The six counters of `checked_total`, in its order. -/
def counts (counters : IngestQualityCounters) : List Nat :=
  CloudEndpoint.all.flatMap fun endpoint =>
    [(counters.endpoint endpoint).unknownEvents,
      (counters.endpoint endpoint).conversionErrors]

def checkedTotal (counters : IngestQualityCounters) : Except String Nat :=
  U64.checkedSum "durable quality counter total overflow" counters.counts

def add (counters : IngestQualityCounters) (endpoint : CloudEndpoint)
    (unknownEvents conversionErrors : Nat) (reasons : Table String Nat) :
    Except String IngestQualityCounters := do
  let expected ← U64.checkedAdd "quality reason total overflow"
    unknownEvents conversionErrors
  let observed ← U64.checkedSum "quality reason map total overflow" (Tally.values reasons)
  if observed ≠ expected then
    .error ("quality reason total mismatch for " ++ endpoint.asStr ++ ": reasons=" ++
      toString observed ++ ", expected=" ++ toString expected)
  else match reasons.entries.find? fun entry => !isQualityReason entry.1 with
    | some (reason, _) => .error ("unsupported quality reason code: " ++ reason)
    | none => do
        let quality ← (counters.endpoint endpoint).add endpoint unknownEvents
          conversionErrors reasons
        pure (counters.setEndpoint endpoint quality)

def reconcileReasonMaps (counters : IngestQualityCounters) :
    Except String IngestQualityCounters := do
  let logs ← counters.otlpLogs.reconcile .otlpLogs
  let traces ← counters.otlpTraces.reconcile .otlpTraces
  let hook ← counters.codexHook.reconcile .codexHook
  let reconciled : IngestQualityCounters := ⟨logs, traces, hook⟩
  let _ ← reconciled.checkedTotal
  pure reconciled

/-- Every endpoint is reconciled and the overall total fits. -/
structure Reconciled (counters : IngestQualityCounters) : Prop where
  endpoints : ∀ endpoint, (counters.endpoint endpoint).Reconciled
  total : counters.counts.sum < U64.limit

theorem zero_reconciled : zero.Reconciled :=
  ⟨fun endpoint => by cases endpoint <;> exact EndpointQuality.zero_reconciled, by decide⟩

theorem Reconciled.checkedTotal_eq {counters : IngestQualityCounters}
    (h : counters.Reconciled) : counters.checkedTotal = .ok counters.counts.sum :=
  U64.checkedSum_eq_ok_iff.mpr ⟨h.total, rfl⟩

theorem Reconciled.reconcileReasonMaps_eq {counters : IngestQualityCounters}
    (h : counters.Reconciled) : counters.reconcileReasonMaps = .ok counters := by
  have hlogs := (h.endpoints .otlpLogs).reconcile_eq .otlpLogs
  have htraces := (h.endpoints .otlpTraces).reconcile_eq .otlpTraces
  have hhook := (h.endpoints .codexHook).reconcile_eq .codexHook
  have htotal := h.checkedTotal_eq
  simp only [endpoint] at hlogs htraces hhook
  simp [reconcileReasonMaps, hlogs, htraces, hhook, htotal]

theorem reconcileReasonMaps_reconciled {counters result : IngestQualityCounters}
    (hok : counters.reconcileReasonMaps = .ok result) : result.Reconciled := by
  obtain ⟨logs, hlogs, hok⟩ := Except.bind_eq_ok_iff.mp hok
  obtain ⟨traces, htraces, hok⟩ := Except.bind_eq_ok_iff.mp hok
  obtain ⟨hook, hhook, hok⟩ := Except.bind_eq_ok_iff.mp hok
  obtain ⟨total, htotal, hok⟩ := Except.bind_eq_ok_iff.mp hok
  rw [Except.pure_eq_ok_iff] at hok
  subst hok
  refine ⟨?_, (U64.checkedSum_eq_ok_iff.mp htotal).1⟩
  intro endpoint
  cases endpoint with
  | otlpLogs => exact (EndpointQuality.reconcile_spec hlogs).1
  | otlpTraces => exact (EndpointQuality.reconcile_spec htraces).1
  | codexHook => exact (EndpointQuality.reconcile_spec hhook).1

/-- `checked_total` is the sum of the endpoint totals. -/
theorem counts_sum (counters : IngestQualityCounters) :
    counters.counts.sum =
      (counters.endpoint .otlpLogs).total + (counters.endpoint .otlpTraces).total +
        (counters.endpoint .codexHook).total := by
  simp [counts, CloudEndpoint.all, EndpointQuality.total]
  omega

/-- A live ledger whose total is zero has no count at all. -/
theorem Reconciled.count_eq_zero {counters : IngestQualityCounters}
    (h : counters.Reconciled) (hempty : counters.checkedTotal = .ok 0)
    (endpoint : CloudEndpoint) (kind : QualityKind) : counters.count endpoint kind = 0 := by
  have hsum : counters.counts.sum = 0 := (U64.checkedSum_eq_ok_iff.mp hempty).2
  rw [counts_sum] at hsum
  refine (h.endpoints endpoint).count_eq_zero ?_ kind
  cases endpoint <;> omega

/-- A successful `add` adds exactly the recorded errors to its endpoint. -/
theorem count_add {counters result : IngestQualityCounters} {at_ : CloudEndpoint}
    {unknownEvents conversionErrors : Nat} {reasons : Table String Nat}
    (hok : counters.add at_ unknownEvents conversionErrors reasons = .ok result)
    (endpoint : CloudEndpoint) (kind : QualityKind) :
    result.count endpoint kind = counters.count endpoint kind +
      if endpoint = at_ then
        EndpointQuality.count ⟨unknownEvents, conversionErrors, reasons⟩ kind
      else 0 := by
  obtain ⟨expected, _, hok⟩ := Except.bind_eq_ok_iff.mp hok
  obtain ⟨observed, _, hok⟩ := Except.bind_eq_ok_iff.mp hok
  split_ifs at hok with hmismatch
  split at hok
  · cases hok
  · obtain ⟨quality, hquality, hok⟩ := Except.bind_eq_ok_iff.mp hok
    rw [Except.pure_eq_ok_iff] at hok
    subst hok
    simp only [count, endpoint_setEndpoint]
    split_ifs with hend
    · subst hend
      exact EndpointQuality.count_add hquality kind
    · rfl

/-- What `add` hands to the durable write is stored unchanged. -/
theorem Reconciled.reconcileReasonMaps_add {counters added result : IngestQualityCounters}
    (h : counters.Reconciled) {at_ : CloudEndpoint} {unknownEvents conversionErrors : Nat}
    {reasons : Table String Nat}
    (hadd : counters.add at_ unknownEvents conversionErrors reasons = .ok added)
    (hok : added.reconcileReasonMaps = .ok result) : result = added := by
  obtain ⟨expected, hexpected, hadd⟩ := Except.bind_eq_ok_iff.mp hadd
  obtain ⟨observed, hobserved, hadd⟩ := Except.bind_eq_ok_iff.mp hadd
  obtain ⟨_, rfl⟩ := U64.checkedAdd_eq_ok_iff.mp hexpected
  obtain ⟨_, rfl⟩ := U64.checkedSum_eq_ok_iff.mp hobserved
  split_ifs at hadd with hmatch
  rw [not_not] at hmatch
  split at hadd
  · cases hadd
  obtain ⟨quality, hquality, hadd⟩ := Except.bind_eq_ok_iff.mp hadd
  rw [Except.pure_eq_ok_iff] at hadd
  subst hadd
  have hreasons : ∀ endpoint,
      Tally.total ((counters.setEndpoint at_ quality).endpoint endpoint).qualityReasons =
        ((counters.setEndpoint at_ quality).endpoint endpoint).total := by
    intro endpoint
    rw [endpoint_setEndpoint]
    split_ifs
    · exact EndpointQuality.reasonTotal_add (h.endpoints at_).reasonTotal hmatch hquality
    · exact (h.endpoints endpoint).reasonTotal
  obtain ⟨logs, hlogs, hok⟩ := Except.bind_eq_ok_iff.mp hok
  obtain ⟨traces, htraces, hok⟩ := Except.bind_eq_ok_iff.mp hok
  obtain ⟨hook, hhook, hok⟩ := Except.bind_eq_ok_iff.mp hok
  obtain ⟨total, _, hok⟩ := Except.bind_eq_ok_iff.mp hok
  rw [Except.pure_eq_ok_iff] at hok
  have hlogsEq := EndpointQuality.reconcile_eq_of_reasonTotal (hreasons .otlpLogs) hlogs
  have htracesEq :=
    EndpointQuality.reconcile_eq_of_reasonTotal (hreasons .otlpTraces) htraces
  have hhookEq := EndpointQuality.reconcile_eq_of_reasonTotal (hreasons .codexHook) hhook
  rw [← hok, hlogsEq, htracesEq, hhookEq]
  rfl

end IngestQualityCounters

/-- Migration evidence for a ledger older than the durable quality counters. -/
structure IngestQualitySeed where
  schemaVersion : String
  sourceQualityErrors : Nat
  counters : IngestQualityCounters

def ingestQualitySeedSchemaVersion : String := "chiptrace.ingest-quality-seed.v1"

def IngestQualitySeed.intoCounters (seed : IngestQualitySeed) :
    Except String IngestQualityCounters :=
  if seed.schemaVersion ≠ ingestQualitySeedSchemaVersion then
    .error ("unsupported ingest quality seed schema: " ++ seed.schemaVersion)
  else do
    let counters ← seed.counters.reconcileReasonMaps
    let total ← counters.checkedTotal
    if seed.sourceQualityErrors ≠ total then
      .error ("ingest quality seed total mismatch: source=" ++
        toString seed.sourceQualityErrors ++ ", counters=" ++ toString total)
    else pure counters

/-- Audited record of counts that were moved out of the live ledger. -/
structure IngestQualityArchive where
  schemaVersion : String
  archiveId : String
  archivedAt : String
  approvedBy : String
  approvalNote : String
  sourceQualityErrors : Nat
  counters : IngestQualityCounters
  deriving DecidableEq

end ChipTrace
