/-
Ingest requests, operator archives and restores, and restarts in any order.
Each one touches the ledger and the in-memory view in separate steps.
-/
import ChipTrace.Lib.ListSum
import ChipTrace.Lib.Machine
import ChipTrace.Quality.Coverage
import ChipTrace.Quality.Durable

namespace ChipTrace

/-- An archive or restore request after its ledger transaction: first it reads a
snapshot, then it replaces the view. -/
inductive Refresh where
  | mutated
  | read (counters : IngestQualityCounters) (archive : Option IngestQualityArchive)
  deriving DecidableEq

/-- The memory of a running relay: the view, the requests that are recorded but
not yet observed, and the operator requests that still have to refresh. -/
structure RelayProcess where
  coverage : IngestCoverageState
  recorded : List IngestRequest
  refreshing : List Refresh
  deriving DecidableEq

/-- The ledger, the process if one is running, and all requests ever recorded. -/
structure QualitySystem where
  ledger : DeliveryLedger
  process : Option RelayProcess
  history : List IngestRequest
  deriving DecidableEq

inductive QualityAction where
  | record (request : IngestRequest)
  | observe (index millis : Nat) (now : String)
  | archive (expectedTotal : Nat) (archivedAt approvedBy approvalNote : String)
  | restore (archiveId : String)
  | readSnapshot (index : Nat)
  | applySnapshot (index : Nat)
  | restart (seed : Except String (Option IngestQualitySeed)) (startedAt : String)

/-- The ledger write of an ingest request, skipped when nothing was rejected. -/
def recordRejections (ledger : DeliveryLedger) (request : IngestRequest) :
    Except String DeliveryLedger :=
  let quality := request.summary.quality
  if 0 < request.summary.qualityRejections then do
    let recorded ← ledger.recordIngestQualityWithReasons request.endpoint
      quality.unknownEvents quality.conversionErrors quality.qualityReasons
    pure recorded.2
  else pure ledger

namespace QualitySystem

variable (digest : IngestQualityArchive → String)

/-- A relay that has opened its ledger builds the view from a snapshot. -/
def boot (ledger : DeliveryLedger) (history : List IngestRequest) (startedAt : String) :
    QualitySystem :=
  let coverage := do
    let snapshot ← ledger.ingestQualitySnapshot digest
    IngestCoverageState.withQualitySnapshot startedAt snapshot.1 snapshot.2
  match coverage with
  | .error _ => ⟨ledger, none, history⟩
  | .ok coverage => ⟨ledger, some ⟨coverage, [], []⟩, history⟩

def restart (system : QualitySystem) (seed : Except String (Option IngestQualitySeed))
    (startedAt : String) : QualitySystem :=
  match system.ledger.openLedger seed with
  | .error _ => { system with process := none }
  | .ok ledger => boot digest ledger system.history startedAt

def observeAt (process : RelayProcess) (index millis : Nat) (now : String) : RelayProcess :=
  match process.recorded[index]? with
  | none => process
  | some request =>
      { process with
        coverage := process.coverage.observeCloud request millis now
        recorded := process.recorded.eraseIdx index }

/-- First half of a refresh; a failed read ends the request. -/
def readAt (ledger : DeliveryLedger) (process : RelayProcess) (index : Nat) : RelayProcess :=
  match process.refreshing[index]? with
  | some .mutated =>
      match ledger.ingestQualitySnapshot digest with
      | .error _ => { process with refreshing := process.refreshing.eraseIdx index }
      | .ok (counters, archive) =>
          { process with refreshing := process.refreshing.set index (.read counters archive) }
  | _ => process

/-- Second half of a refresh. -/
def applyAt (process : RelayProcess) (index : Nat) : RelayProcess :=
  match process.refreshing[index]? with
  | some (.read counters archive) =>
      let refreshing := process.refreshing.eraseIdx index
      match process.coverage.applyQualitySnapshot counters archive with
      | .error _ => { process with refreshing := refreshing }
      | .ok coverage => { process with coverage := coverage, refreshing := refreshing }
  | _ => process

/-- An operator request whose transaction succeeded. -/
def mutate (system : QualitySystem) (process : RelayProcess)
    (outcome : Except String DeliveryLedger) : QualitySystem :=
  match outcome with
  | .error _ => system
  | .ok ledger =>
      { system with
        ledger := ledger
        process := some { process with refreshing := process.refreshing ++ [.mutated] } }

def record (system : QualitySystem) (process : RelayProcess) (request : IngestRequest) :
    QualitySystem :=
  match recordRejections system.ledger request with
  | .error _ => system
  | .ok ledger =>
      { ledger := ledger
        process := some { process with recorded := process.recorded ++ [request] }
        history := system.history ++ [request] }

/-- One step; a relay that is down only restarts. -/
def step (system : QualitySystem) (action : QualityAction) : QualitySystem :=
  match action, system.process with
  | .restart seed startedAt, _ => system.restart digest seed startedAt
  | _, none => system
  | .record request, some process => system.record process request
  | .observe index millis now, some process =>
      { system with process := some (observeAt process index millis now) }
  | .archive expectedTotal archivedAt approvedBy approvalNote, some process =>
      system.mutate process ((system.ledger.archiveIngestQuality digest expectedTotal
        archivedAt approvedBy approvalNote).map Prod.snd)
  | .restore archiveId, some process =>
      system.mutate process (system.ledger.restoreIngestQuality digest archiveId)
  | .readSnapshot index, some process =>
      { system with process := some (readAt digest system.ledger process index) }
  | .applySnapshot index, some process =>
      { system with process := some (applyAt process index) }

end QualitySystem

section Recorded

/-- What a list of requests adds to one count. -/
def recordedCount (requests : List IngestRequest) (endpoint : CloudEndpoint)
    (kind : QualityKind) : Nat :=
  (requests.map fun request =>
    if endpoint = request.endpoint then request.summary.quality.count kind else 0).sum

def recordedTotal (requests : List IngestRequest) : Nat :=
  (requests.map fun request => request.summary.quality.total).sum

@[simp] theorem recordedCount_nil (endpoint : CloudEndpoint) (kind : QualityKind) :
    recordedCount [] endpoint kind = 0 := rfl

theorem recordedCount_append (first last : List IngestRequest) (endpoint : CloudEndpoint)
    (kind : QualityKind) :
    recordedCount (first ++ last) endpoint kind =
      recordedCount first endpoint kind + recordedCount last endpoint kind := by
  simp [recordedCount]

theorem recordedCount_singleton (request : IngestRequest) (endpoint : CloudEndpoint)
    (kind : QualityKind) :
    recordedCount [request] endpoint kind =
      if endpoint = request.endpoint then request.summary.quality.count kind else 0 := by
  simp [recordedCount]

/-- The total is the sum of the unknown and conversion counts of the endpoints. -/
theorem recordedTotal_eq (requests : List IngestRequest) :
    recordedTotal requests =
      recordedCount requests .otlpLogs .unknownEvent +
        recordedCount requests .otlpLogs .conversionError +
        (recordedCount requests .otlpTraces .unknownEvent +
          recordedCount requests .otlpTraces .conversionError) +
        (recordedCount requests .codexHook .unknownEvent +
          recordedCount requests .codexHook .conversionError) := by
  induction requests with
  | nil => rfl
  | cons request rest ih =>
      have htotal : recordedTotal (request :: rest) =
          request.summary.quality.total + recordedTotal rest := List.sum_cons
      have hcount : ∀ endpoint kind, recordedCount (request :: rest) endpoint kind =
          (if endpoint = request.endpoint then request.summary.quality.count kind else 0) +
            recordedCount rest endpoint kind := fun _ _ => List.sum_cons
      rw [htotal, ih]
      simp only [hcount, EndpointQuality.total, EndpointQuality.count]
      cases request.endpoint <;> simp <;> omega

/-- Counters that differ by some requests differ in total by the requests' total. -/
theorem counts_sum_recorded {before after : IngestQualityCounters}
    {requests : List IngestRequest}
    (hcount : ∀ endpoint kind, before.count endpoint kind +
      recordedCount requests endpoint kind = after.count endpoint kind) :
    before.counts.sum + recordedTotal requests = after.counts.sum := by
  have hlogs := hcount .otlpLogs
  have htraces := hcount .otlpTraces
  have hhook := hcount .codexHook
  have h1 := hlogs .unknownEvent
  have h2 := hlogs .conversionError
  have h3 := htraces .unknownEvent
  have h4 := htraces .conversionError
  have h5 := hhook .unknownEvent
  have h6 := hhook .conversionError
  rw [recordedTotal_eq, IngestQualityCounters.counts_sum, IngestQualityCounters.counts_sum]
  simp only [IngestQualityCounters.count, EndpointQuality.count, EndpointQuality.total] at *
  omega

theorem IngestQualityCounters.Reconciled.count_lt {counters : IngestQualityCounters}
    (h : counters.Reconciled) (endpoint : CloudEndpoint) (kind : QualityKind) :
    counters.count endpoint kind < U64.limit := by
  have hend := h.endpoints endpoint
  refine lt_of_le_of_lt ?_ hend.fits
  rw [count]
  cases kind with
  | unknownEvent => exact Nat.le_add_right _ _
  | conversionError => exact Nat.le_add_left _ _
  | reason code => exact hend.reasonTotal ▸ Tally.count_le_total _ code

/-- A recorded request adds its errors to the live counters. -/
theorem recordRejections_spec {digest : IngestQualityArchive → String}
    {ledger next : DeliveryLedger} {request : IngestRequest}
    (h : ledger.QualitySound digest) (hok : recordRejections ledger request = .ok next) :
    next.QualitySound digest ∧
      next.metadata.ingestQualityArchive = ledger.metadata.ingestQualityArchive ∧
      ∀ endpoint kind, ledger.liveQuality.count endpoint kind +
        recordedCount [request] endpoint kind = next.liveQuality.count endpoint kind := by
  simp only [recordedCount_singleton]
  rw [recordRejections] at hok
  split_ifs at hok with hrejected
  · obtain ⟨⟨counters, recorded⟩, hrecorded, hok⟩ := Except.bind_eq_ok_iff.mp hok
    cases Except.pure_eq_ok_iff.mp hok
    have hpositive : ¬ (request.summary.quality.unknownEvents = 0 ∧
        request.summary.quality.conversionErrors = 0) := by
      rintro ⟨hunknown, hconversion⟩
      simp only [CloudIngestSummary.quality] at hunknown hconversion
      simp [CloudIngestSummary.qualityRejections, U64.saturatingAdd, hunknown,
        hconversion] at hrejected
    obtain ⟨hsound, harchive, hcount⟩ :=
      DeliveryLedger.recordIngestQuality_spec h hpositive hrecorded
    exact ⟨hsound, harchive, fun endpoint kind => (hcount endpoint kind).symm⟩
  · cases Except.pure_eq_ok_iff.mp hok
    have hzero := CloudIngestSummary.quality_eq_zero (Nat.eq_zero_of_not_pos hrejected)
    exact ⟨h, rfl, fun endpoint kind => by simp [hzero]⟩

end Recorded

namespace QualitySystem

/-- Live and archived counts together are the seed plus everything recorded. -/
def Conserved (seeded : IngestQualityCounters) (system : QualitySystem) : Prop :=
  ∃ live, system.ledger.readIngestQualityCounters = .ok live ∧
    ∀ endpoint kind, live.count endpoint kind +
        system.ledger.archivedQuality.count endpoint kind =
      seeded.count endpoint kind + recordedCount system.history endpoint kind

/-- With no request in flight the view shows the live counters and their total. -/
def ViewExact (system : QualitySystem) : Prop :=
  ∀ process, system.process = some process →
    process.recorded = [] → process.refreshing = [] →
      ∃ live, system.ledger.readIngestQualityCounters = .ok live ∧
        (∀ endpoint kind, process.coverage.count endpoint kind = live.count endpoint kind) ∧
        live.checkedTotal = .ok process.coverage.qualityErrors

/-- A snapshot that is applied by the last refresh in flight lacks exactly the
requests that are still to be observed. -/
def FreshStep (system : QualitySystem) : QualityAction → Prop
  | .applySnapshot index => ∀ process counters archive, system.process = some process →
      index = 0 → process.refreshing = [.read counters archive] →
        ∀ endpoint kind, counters.count endpoint kind +
          recordedCount process.recorded endpoint kind =
            system.ledger.liveQuality.count endpoint kind
  | _ => True

/-- What a process may hold in flight. -/
structure ProcessSound (process : RelayProcess) : Prop where
  fits : ∀ request ∈ process.recorded, request.summary.quality.total < U64.limit
  snapshots : ∀ counters archive, Refresh.read counters archive ∈ process.refreshing →
    counters.Reconciled

/-- The invariant of every run. -/
structure Sound (digest : IngestQualityArchive → String) (seeded : IngestQualityCounters)
    (system : QualitySystem) : Prop where
  ledger : system.ledger.QualitySound digest
  conserved : ∀ endpoint kind, system.ledger.durableCount endpoint kind =
    seeded.count endpoint kind + recordedCount system.history endpoint kind
  process : ∀ process, system.process = some process → ProcessSound process

/-- The view lacks exactly the requests still to be observed, unless a refresh is
going to replace it. -/
def Follows (ledger : DeliveryLedger) (process : RelayProcess) : Prop :=
  process.refreshing = [] →
    (∀ endpoint kind, process.coverage.count endpoint kind +
      recordedCount process.recorded endpoint kind =
        ledger.liveQuality.count endpoint kind) ∧
      process.coverage.qualityErrors + recordedTotal process.recorded =
        ledger.liveQuality.counts.sum

def ViewFollows (system : QualitySystem) : Prop :=
  ∀ process, system.process = some process → Follows system.ledger process

variable {digest : IngestQualityArchive → String} {seeded : IngestQualityCounters}
variable {system : QualitySystem}

theorem Sound.toConserved (h : system.Sound digest seeded) : system.Conserved seeded :=
  ⟨system.ledger.liveQuality, h.ledger.read_eq, h.conserved⟩

theorem ViewFollows.toViewExact (h : system.Sound digest seeded) (hfollows : system.ViewFollows) :
    system.ViewExact := by
  intro process hprocess hrecorded hrefreshing
  obtain ⟨hcount, htotal⟩ := hfollows process hprocess hrefreshing
  refine ⟨system.ledger.liveQuality, h.ledger.read_eq, ?_, ?_⟩
  · intro endpoint kind
    have hend := hcount endpoint kind
    rwa [hrecorded, recordedCount_nil, Nat.add_zero] at hend
  · rw [h.ledger.live.checkedTotal_eq, ← htotal, hrecorded]
    rfl

section Restart

variable {ledger : DeliveryLedger}

/-- A relay that starts on sound quality data shows it. -/
theorem boot_spec (h : ledger.QualitySound digest) (history : List IngestRequest)
    (startedAt : String) :
    ∃ coverage, boot digest ledger history startedAt =
        ⟨ledger, some ⟨coverage, [], []⟩, history⟩ ∧
      ProcessSound ⟨coverage, [], []⟩ ∧ Follows ledger ⟨coverage, [], []⟩ := by
  obtain ⟨coverage, hcoverage, hcount, htotal⟩ :=
    IngestCoverageState.applyQualitySnapshot_spec
      ⟨startedAt, RouteCoverage.empty, RouteCoverage.empty, RouteCoverage.empty, 0, 0, 0, 0, 0,
        none⟩
      h.live ledger.metadata.ingestQualityArchive
  refine ⟨coverage, ?_, ⟨by simp, by simp⟩, fun _ => ⟨?_, ?_⟩⟩
  · rw [boot, h.snapshot_eq, Except.ok_bind, IngestCoverageState.withQualitySnapshot, hcoverage]
  · intro endpoint kind
    rw [hcount]
    rfl
  · exact htotal

theorem boot_sound {history : List IngestRequest} (h : ledger.QualitySound digest)
    (hconserved : ∀ endpoint kind, ledger.durableCount endpoint kind =
      seeded.count endpoint kind + recordedCount history endpoint kind) (startedAt : String) :
    (boot digest ledger history startedAt).Sound digest seeded ∧
      (boot digest ledger history startedAt).ViewFollows := by
  obtain ⟨coverage, hboot, hprocess, hfollows⟩ := boot_spec h history startedAt
  rw [hboot]
  refine ⟨⟨h, hconserved, ?_⟩, ?_⟩
  · intro process hsome
    cases hsome
    exact hprocess
  · intro process hsome
    cases hsome
    exact hfollows

/-- Reopening the ledger changes no quality count. -/
theorem opened_conserved (h : system.Sound digest seeded)
    {seed : Except String (Option IngestQualitySeed)}
    (hopen : system.ledger.openLedger seed = .ok ledger) :
    ledger.QualitySound digest ∧ ∀ endpoint kind, ledger.durableCount endpoint kind =
      seeded.count endpoint kind + recordedCount system.history endpoint kind := by
  obtain ⟨hsound, hlive, harchive⟩ := h.ledger.openLedger hopen
  refine ⟨hsound, fun endpoint kind => ?_⟩
  rw [← h.conserved endpoint kind, DeliveryLedger.durableCount, hlive,
    DeliveryLedger.archivedQuality, harchive]
  rfl

end Restart

section Steps

variable {process : RelayProcess} {ledger : DeliveryLedger}

theorem observeAt_sound (h : ProcessSound process) (index millis : Nat) (now : String) :
    ProcessSound (observeAt process index millis now) := by
  rw [observeAt]
  split
  · exact h
  · exact ⟨fun request hrequest => h.fits request (List.mem_of_mem_eraseIdx hrequest),
      h.snapshots⟩

theorem readAt_sound (hledger : ledger.QualitySound digest) (h : ProcessSound process)
    (index : Nat) : ProcessSound (readAt digest ledger process index) := by
  rw [readAt]
  split
  · rw [hledger.snapshot_eq]
    refine ⟨h.fits, fun counters archive hmem => ?_⟩
    rcases List.mem_or_eq_of_mem_set hmem with hold | hnew
    · exact h.snapshots counters archive hold
    · cases hnew
      exact hledger.live
  · exact h

theorem applyAt_sound (h : ProcessSound process) (index : Nat) :
    ProcessSound (applyAt process index) := by
  rw [applyAt]
  split
  · have hrest : ∀ counters archive,
        Refresh.read counters archive ∈ process.refreshing.eraseIdx index →
          counters.Reconciled :=
      fun counters archive hmem => h.snapshots counters archive (List.mem_of_mem_eraseIdx hmem)
    dsimp only
    split
    · exact ⟨h.fits, hrest⟩
    · exact ⟨h.fits, hrest⟩
  · exact h

theorem record_sound (h : system.Sound digest seeded) (hprocess : system.process = some process)
    (request : IngestRequest) : (system.record process request).Sound digest seeded := by
  rw [record]
  cases hrecord : recordRejections system.ledger request with
  | error error => exact h
  | ok ledger =>
      obtain ⟨hsound, harchive, hcount⟩ := recordRejections_spec h.ledger hrecord
      have hold := h.process process hprocess
      refine ⟨hsound, ?_, ?_⟩
      · intro endpoint kind
        have hbefore := h.conserved endpoint kind
        rw [DeliveryLedger.durableCount] at hbefore ⊢
        rw [← hcount endpoint kind, recordedCount_append, DeliveryLedger.archivedQuality,
          harchive]
        rw [DeliveryLedger.archivedQuality] at hbefore
        omega
      · intro process' hsome
        cases hsome
        refine ⟨?_, hold.snapshots⟩
        intro request' hmem
        rcases List.mem_append.mp hmem with hmem | hmem
        · exact hold.fits request' hmem
        · cases List.mem_singleton.mp hmem
          have htotal := counts_sum_recorded hcount
          have hlimit := hsound.live.total
          simp only [recordedTotal, List.map_cons, List.map_nil, List.sum_cons,
            List.sum_nil] at htotal
          omega

theorem mutate_sound (h : system.Sound digest seeded) (hprocess : system.process = some process)
    {outcome : Except String DeliveryLedger}
    (houtcome : ∀ ledger, outcome = .ok ledger → ledger.QualitySound digest ∧
      ledger.durableCount = system.ledger.durableCount) :
    (system.mutate process outcome).Sound digest seeded := by
  cases outcome with
  | error error => exact h
  | ok ledger =>
      obtain ⟨hsound, hcount⟩ := houtcome ledger rfl
      have hold := h.process process hprocess
      rw [mutate]
      refine ⟨hsound, fun endpoint kind => ?_, ?_⟩
      · rw [← h.conserved endpoint kind, hcount]
      · intro process' hsome
        cases hsome
        refine ⟨hold.fits, fun counters archive hmem => hold.snapshots counters archive ?_⟩
        simpa using hmem

theorem archive_ok {expectedTotal : Nat} {archivedAt approvedBy approvalNote : String}
    (h : system.Sound digest seeded) {ledger : DeliveryLedger}
    (hok : (system.ledger.archiveIngestQuality digest expectedTotal archivedAt approvedBy
      approvalNote).map Prod.snd = .ok ledger) :
    ledger.QualitySound digest ∧ ledger.durableCount = system.ledger.durableCount := by
  cases harchive : system.ledger.archiveIngestQuality digest expectedTotal archivedAt
      approvedBy approvalNote with
  | error error =>
      rw [harchive] at hok
      cases hok
  | ok result =>
      rw [harchive] at hok
      cases hok
      exact DeliveryLedger.archiveIngestQuality_spec h.ledger harchive

/-- Every step keeps the invariant, so no errors are lost or invented. -/
theorem step_sound (system : QualitySystem) (action : QualityAction)
    (h : system.Sound digest seeded) : (step digest system action).Sound digest seeded := by
  rw [step.eq_def]
  split
  · rename_i seed startedAt
    rw [restart]
    cases hopen : system.ledger.openLedger seed with
    | error error => exact ⟨h.ledger, h.conserved, fun process hsome => by cases hsome⟩
    | ok ledger =>
        obtain ⟨hsound, hconserved⟩ := opened_conserved h hopen
        exact (boot_sound hsound hconserved startedAt).1
  · exact h
  · rename_i process hprocess
    exact record_sound h hprocess _
  · rename_i process hprocess
    refine ⟨h.ledger, h.conserved, fun process' hsome => ?_⟩
    cases hsome
    exact observeAt_sound (h.process process hprocess) _ _ _
  · rename_i process hprocess
    exact mutate_sound h hprocess fun ledger hok => archive_ok h hok
  · rename_i process hprocess
    exact mutate_sound h hprocess fun ledger hok =>
      DeliveryLedger.restoreIngestQuality_spec h.ledger hok
  · rename_i process hprocess
    refine ⟨h.ledger, h.conserved, fun process' hsome => ?_⟩
    cases hsome
    exact readAt_sound h.ledger (h.process process hprocess) _
  · rename_i process hprocess
    refine ⟨h.ledger, h.conserved, fun process' hsome => ?_⟩
    cases hsome
    exact applyAt_sound (h.process process hprocess) _

/-- Observing a request moves it from the waiting list into the view. -/
theorem observeAt_follows (hledger : ledger.QualitySound digest) (h : ProcessSound process)
    (hfollows : Follows ledger process) (index millis : Nat) (now : String) :
    Follows ledger (observeAt process index millis now) := by
  rw [observeAt]
  cases hrequest : process.recorded[index]? with
  | none => exact hfollows
  | some request =>
      intro hrefreshing
      obtain ⟨hcount, htotal⟩ := hfollows hrefreshing
      refine ⟨fun endpoint kind => ?_, ?_⟩
      · have hrest := List.sum_map_eraseIdx (fun request : IngestRequest =>
          if endpoint = request.endpoint then request.summary.quality.count kind else 0) hrequest
        have hlive := hledger.live.count_lt endpoint kind
        have hbefore := hcount endpoint kind
        simp only [recordedCount] at hbefore ⊢
        rw [IngestCoverageState.observeCloud_count (by omega)]
        omega
      · have hrest := List.sum_map_eraseIdx
          (fun request : IngestRequest => request.summary.quality.total) hrequest
        have hlive := hledger.live.total
        have hfits := h.fits request (List.mem_of_getElem? hrequest)
        have hrejections : request.summary.qualityRejections = request.summary.quality.total :=
          U64.saturatingAdd_eq hfits
        simp only [recordedTotal] at htotal ⊢
        simp only [IngestCoverageState.observeCloud, hrejections]
        rw [U64.saturatingAdd_eq (by omega)]
        omega

theorem record_follows (h : system.Sound digest seeded) (hprocess : system.process = some process)
    (hfollows : system.ViewFollows) (request : IngestRequest) :
    (system.record process request).ViewFollows := by
  rw [record]
  cases hrecord : recordRejections system.ledger request with
  | error error => exact hfollows
  | ok ledger =>
      obtain ⟨_, _, hcount⟩ := recordRejections_spec h.ledger hrecord
      intro process' hsome hrefreshing
      cases hsome
      obtain ⟨hcountBefore, htotalBefore⟩ := hfollows process hprocess hrefreshing
      refine ⟨fun endpoint kind => ?_, ?_⟩
      · rw [recordedCount_append, ← hcount endpoint kind, ← hcountBefore endpoint kind,
          Nat.add_assoc]
      · have htotal := counts_sum_recorded hcount
        have happend : recordedTotal (process.recorded ++ [request]) =
            recordedTotal process.recorded + recordedTotal [request] := by
          simp [recordedTotal]
        rw [happend, ← htotal, ← htotalBefore, Nat.add_assoc]

/-- A mutated ledger leaves a refresh in flight. -/
theorem mutate_follows (hfollows : system.ViewFollows)
    (outcome : Except String DeliveryLedger) : (system.mutate process outcome).ViewFollows := by
  cases outcome with
  | error error => exact hfollows
  | ok ledger =>
      intro process' hsome hrefreshing
      cases hsome
      simp at hrefreshing

/-- Reading a snapshot does not finish a refresh. -/
theorem readAt_follows (hledger : ledger.QualitySound digest)
    (hfollows : Follows ledger process) (index : Nat) :
    Follows ledger (readAt digest ledger process index) := by
  rw [readAt]
  split
  · rename_i hindex
    rw [hledger.snapshot_eq]
    intro hrefreshing
    have hnone : process.refreshing = [] := by simpa using hrefreshing
    rw [hnone] at hindex
    cases hindex
  · exact hfollows

/-- The last refresh installs a fresh snapshot. -/
theorem applyAt_follows (h : ProcessSound process) (hfollows : Follows ledger process)
    {index : Nat}
    (hfresh : ∀ counters archive, index = 0 → process.refreshing = [.read counters archive] →
      ∀ endpoint kind, counters.count endpoint kind +
        recordedCount process.recorded endpoint kind =
          ledger.liveQuality.count endpoint kind) :
    Follows ledger (applyAt process index) := by
  rw [applyAt]
  split
  · rename_i counters archive hindex
    have hreconciled := h.snapshots counters archive (List.mem_of_getElem? hindex)
    obtain ⟨coverage, hcoverage, hcount, htotal⟩ :=
      IngestCoverageState.applyQualitySnapshot_spec process.coverage hreconciled archive
    dsimp only
    rw [hcoverage]
    intro hrefreshing
    obtain ⟨hlt, hget⟩ := List.getElem?_eq_some_iff.mp hindex
    have hone : process.refreshing.length = 1 := by
      have hlength := congrArg List.length hrefreshing
      simp only [List.length_eraseIdx, if_pos hlt, List.length_nil] at hlength
      omega
    obtain ⟨only, honly⟩ := List.length_eq_one_iff.mp hone
    have hzero : index = 0 := by omega
    subst hzero
    have hread : process.refreshing = [.read counters archive] := by
      rw [honly] at hindex ⊢
      rw [Option.some.inj hindex]
    have hcounts := hfresh counters archive rfl hread
    refine ⟨fun endpoint kind => ?_, ?_⟩
    · rw [hcount]
      exact hcounts endpoint kind
    · rw [htotal]
      exact counts_sum_recorded hcounts
  · exact hfollows

/-- A step that installs no stale snapshot keeps the view in step with the ledger. -/
theorem step_follows (system : QualitySystem) (action : QualityAction)
    (h : system.Sound digest seeded) (hfollows : system.ViewFollows)
    (hfresh : system.FreshStep action) : (step digest system action).ViewFollows := by
  rw [step.eq_def]
  split
  · rename_i seed startedAt
    rw [restart]
    cases hopen : system.ledger.openLedger seed with
    | error error => exact fun process hsome => by cases hsome
    | ok ledger =>
        obtain ⟨hsound, hconserved⟩ := opened_conserved h hopen
        exact (boot_sound hsound hconserved startedAt).2
  · exact hfollows
  · rename_i process hprocess
    exact record_follows h hprocess hfollows _
  · rename_i process hprocess
    intro process' hsome
    cases hsome
    exact observeAt_follows h.ledger (h.process process hprocess) (hfollows process hprocess)
      _ _ _
  · exact mutate_follows hfollows _
  · exact mutate_follows hfollows _
  · rename_i process hprocess
    intro process' hsome
    cases hsome
    exact readAt_follows h.ledger (hfollows process hprocess) _
  · rename_i process hprocess
    intro process' hsome
    cases hsome
    exact applyAt_follows (h.process process hprocess) (hfollows process hprocess)
      fun counters archive => hfresh process counters archive hprocess

end Steps

/-- Every run conserves the recorded errors between the live counters and the
archive, and a run that applies no stale snapshot shows the live counters
whenever no request is in flight. -/
theorem quality_conserved (digest : IngestQualityArchive → String)
    {seed : Except String (Option IngestQualitySeed)} {ledger opened : DeliveryLedger}
    (hcounters : ledger.metadata.ingestQualityCounters = none)
    (harchive : ledger.metadata.ingestQualityArchive = none)
    (hopen : ledger.openLedger seed = .ok opened) (startedAt : String)
    (trace : List QualityAction) :
    Machine.Always (step digest) (Conserved (DeliveryLedger.seedCounters seed))
        (boot digest opened [] startedAt) trace ∧
      (Machine.Along (step digest) FreshStep (boot digest opened [] startedAt) trace →
        Machine.Always (step digest) ViewExact (boot digest opened [] startedAt) trace) := by
  obtain ⟨hsound, hlive, hnone⟩ : opened.QualitySound digest ∧
      opened.liveQuality = DeliveryLedger.seedCounters seed ∧
        opened.metadata.ingestQualityArchive = none :=
    DeliveryLedger.openLedger_seeds hcounters harchive hopen
  have hconserved : ∀ endpoint kind, opened.durableCount endpoint kind =
      (DeliveryLedger.seedCounters seed).count endpoint kind +
        recordedCount [] endpoint kind := by
    intro endpoint kind
    simp [DeliveryLedger.durableCount, DeliveryLedger.archivedQuality, hlive, hnone]
  have hstart := boot_sound hsound hconserved startedAt
  constructor
  · exact Machine.always_of_preserves step_sound (fun _ h => h.toConserved) hstart.1 trace
  · intro halong
    have hstep : ∀ system action,
        system.Sound digest (DeliveryLedger.seedCounters seed) ∧ system.ViewFollows →
          system.FreshStep action →
            (step digest system action).Sound digest (DeliveryLedger.seedCounters seed) ∧
              (step digest system action).ViewFollows := fun system action h hfresh =>
      ⟨step_sound system action h.1, step_follows system action h.1 h.2 hfresh⟩
    exact Machine.always_of_preserves_along hstep
      (fun _ h => ViewFollows.toViewExact h.1 h.2) hstart halong

end QualitySystem

namespace LateObservation

def request : IngestRequest := ⟨.otlpLogs, ⟨"otlp_logs", 1, 0, 1, 0, []⟩, 1, 0, 0, 0⟩

def digest : IngestQualityArchive → String := fun _ => "digest"

/-- A relay on a new database. -/
def start : QualitySystem := QualitySystem.boot digest DeliveryLedger.fresh [] "t"

/-- An archive with its refresh between a request's ledger write and its
observation. -/
def trace : List QualityAction :=
  [.record request, .archive 1 "t" "operator" "note", .readSnapshot 0, .applySnapshot 0,
    .observe 0 1 "t"]

/-- The same archive after the request has been observed, then a restart. -/
def orderly : List QualityAction :=
  [.record request, .observe 0 1 "t", .archive 1 "t" "operator" "note", .readSnapshot 0,
    .applySnapshot 0, .restart (.ok none) "t"]

def final : QualitySystem := Machine.run (QualitySystem.step digest) start trace

theorem running : final.process.isSome := by decide

end LateObservation

namespace QualitySystem

/-- After the late observation the view counts an error that the live counters no
longer have. -/
theorem viewExact_not_always :
    ¬ Machine.Always (step LateObservation.digest) ViewExact LateObservation.start
      LateObservation.trace := by
  intro halways
  obtain ⟨live, hlive, hcount, _⟩ :=
    halways.run (LateObservation.final.process.get LateObservation.running)
      (Option.some_get _).symm (by decide) (by decide)
  have hread : LateObservation.final.ledger.readIngestQualityCounters =
      .ok IngestQualityCounters.zero := by decide
  cases Except.ok.inj (hread.symm.trans hlive)
  exact absurd (hcount .otlpLogs .unknownEvent) (by decide)

/-- The orderly run: every snapshot is fresh when it is applied. -/
theorem quality_conserved_orderly :
    Machine.Always (step LateObservation.digest)
        (Conserved (DeliveryLedger.seedCounters (.ok none))) LateObservation.start
        LateObservation.orderly ∧
      Machine.Always (step LateObservation.digest) ViewExact LateObservation.start
        LateObservation.orderly := by
  obtain ⟨hconserved, hexact⟩ := quality_conserved LateObservation.digest rfl rfl
    DeliveryLedger.openLedger_fresh "t" LateObservation.orderly
  refine ⟨hconserved, hexact ⟨trivial, trivial, trivial, trivial, ?_, trivial, trivial⟩⟩
  rintro process counters archive hprocess - hrefreshing endpoint kind
  cases hprocess
  cases hrefreshing
  cases endpoint <;> cases kind <;> rfl

end QualitySystem

end ChipTrace
