/-
The usage-log exporter: it asks for the newest usage logs page by page down to its cursor, exports
the oldest of what it has not exported, and moves the cursor.
-/
import ChipTrace.Gateway.Tracker
import ChipTrace.Lib.OrdMap
import ChipTrace.Lib.Paging
import ChipTrace.Lib.Result
import Mathlib.Data.List.SplitBy

namespace ChipTrace.Gateway

section Logs

structure UsageLog where
  id : Nat
  createdAt : Int
  model : String := ""
  requestedModel : String := ""
  upstreamModel : String := ""
  requestId : String := ""
  userAgent : String := ""
  apiKeyName : String := ""
  userName : String := ""
  userEmail : String := ""
  inboundEndpoint : String := ""
  upstreamEndpoint : String := ""
  deriving DecidableEq

/-- The settings of the exporter, within the bounds that the gateway holds them to. -/
structure TraceExportConfig where
  lookbackDays : Nat := 7
  batchSize : Nat := 100
  pageSize : Nat := 200
  maxScanPages : Nat := 20
  cursorOverlapMs : Nat := 600000
  filterMechanicalMonitor : Bool := true
  mechanicalUserName : String := "router-monitor"
  mechanicalKeyName : String := "gpt watchdog"
  lookbackDays_mem : 1 ≤ lookbackDays ∧ lookbackDays ≤ 30 := by decide
  batchSize_mem : 1 ≤ batchSize ∧ batchSize ≤ 500 := by decide
  pageSize_mem : 1 ≤ pageSize ∧ pageSize ≤ 1000 := by decide
  maxScanPages_mem : 1 ≤ maxScanPages ∧ maxScanPages ≤ 200 := by decide

def dayMs : Int := 24 * 60 * 60 * 1000

/-- The day of a time in Shanghai. -/
def formatDay (time : Int) : Int := (time + 8 * 60 * 60 * 1000) / dayMs

/-- What the usage service lists of its logs for a range of days. -/
def listed (start stop : Int) (logs : List UsageLog) : List UsageLog :=
  logs.filter fun log =>
    decide (formatDay start ≤ formatDay log.createdAt) &&
      decide (formatDay log.createdAt ≤ formatDay stop)

end Logs

section Filters

variable (lower : String → String) (config : TraceExportConfig)

def joinFields (fields : List String) : String :=
  lower (" ".intercalate (fields.filter (· ≠ "")))

def traceExportSkipReason (item : UsageLog) : Option String :=
  let modelFields := joinFields lower [item.model, item.requestedModel, item.upstreamModel]
  let endpoints := joinFields lower [item.inboundEndpoint, item.upstreamEndpoint]
  if (modelFields.toList.splitOnP isJsSpace).any ("legacy".toList.isPrefixOf ·) then
    some "legacy_model"
  else if Text.startsWith (lower item.requestId) "legacy-" then some "legacy_request_id"
  else if Text.startsWith (lower item.userAgent) "legacy-relay" then some "legacy_user_agent"
  else if Text.contains endpoints "legacy-import" then some "legacy_import_endpoint"
  else if config.filterMechanicalMonitor &&
      (lower item.apiKeyName == config.mechanicalKeyName ||
        lower item.userName == config.mechanicalUserName ||
        Text.startsWith (lower item.userEmail) (config.mechanicalUserName ++ "-")) then
    some "mechanical_monitor"
  else none

def shouldExportTraceUsageLog (item : UsageLog) : Bool :=
  (traceExportSkipReason lower config item).isNone

end Filters

section Scans

structure ExportState where
  lastUsageLogId : Nat := 0
  lastScannedUsageLogCreatedAt : Option Int := none
  lastUsageLogCreatedAt : Option Int := none
  lastExportedUsageLogId : Nat := 0
  lastTraceId : Option String := none
  exportedCount : Nat := 0
  skippedCount : Nat := 0

structure UsageScan where
  pages : Nat := 0
  fetchedRows : Nat := 0
  candidatesById : Table Nat UsageLog := Table.empty
  reachedCursor : Bool := false

variable (config : TraceExportConfig)

/-- The rows of a page that are above the cursor, by id. -/
def takeCandidates (lastId : Nat) (items : List UsageLog) (candidates : Table Nat UsageLog) :
    Table Nat UsageLog :=
  items.foldl
    (fun candidates item =>
      if item.id = 0 then candidates
      else if item.id ≤ lastId then candidates
      else candidates.insert item.id item)
    candidates

/-- Pages one after another, at most `remaining`, down to the cursor. -/
def scanPages (lastId : Nat) (listAdminUsagePage : Nat → Except String (List UsageLog)) :
    Nat → UsageScan → Except String UsageScan
  | 0, scan => .ok scan
  | remaining + 1, scan => do
      let items ← listAdminUsagePage scan.pages
      let reached := items.any fun item => decide (item.id ≠ 0) && decide (item.id ≤ lastId)
      let next : UsageScan := {
        pages := scan.pages + 1
        fetchedRows := scan.fetchedRows + items.length
        candidatesById := takeCandidates lastId items scan.candidatesById
        reachedCursor := items.isEmpty || reached || decide (items.length < config.pageSize) }
      if next.reachedCursor then pure next
      else scanPages lastId listAdminUsagePage remaining next

/-- Where the scan of a run starts: before the last log that was scanned, or some days back. -/
def scanStart (state : ExportState) (now : Int) : Int :=
  match state.lastScannedUsageLogCreatedAt.or state.lastUsageLogCreatedAt with
  | some cursorStart => cursorStart - config.cursorOverlapMs
  | none => now - config.lookbackDays * dayMs

def fetchTraceExportUsageLogs (state : ExportState) (now : Int)
    (listAdminUsagePage : Int → Int → Nat → Except String (List UsageLog)) :
    Except String (List UsageLog × UsageScan) := do
  let lastId := state.lastUsageLogId
  let scan ← scanPages config lastId (listAdminUsagePage (scanStart config state now) now)
    config.maxScanPages {}
  let candidates := scan.candidatesById.entries.map Prod.snd
  if !scan.reachedCursor && decide (config.batchSize < candidates.length) then
    .error s!"trace export backlog exceeded scan cap before reaching usage_log_id={lastId}"
  else pure (candidates.take config.batchSize, scan)

end Scans

section Runs

def usageTraceId (item : UsageLog) : String := "router-v2-usage-" ++ toString item.id

/-- The log with the greatest id. -/
def latestLog (logs : List UsageLog) : Option UsageLog :=
  logs.foldl
    (fun latest item =>
      if (latest.map UsageLog.id).getD 0 < item.id then some item else latest)
    none

def lastExportedId (state : ExportState) : Nat :=
  if state.lastExportedUsageLogId = 0 then state.lastUsageLogId else state.lastExportedUsageLogId

/-- The state after a run that exported some of the logs it scanned. -/
def nextState (state : ExportState) (logs exported : List UsageLog) : ExportState :=
  if logs = [] then { state with lastExportedUsageLogId := lastExportedId state }
  else {
    lastUsageLogId := (logs.map UsageLog.id).foldl max state.lastUsageLogId
    lastScannedUsageLogCreatedAt :=
      ((latestLog logs).map UsageLog.createdAt).or state.lastScannedUsageLogCreatedAt
    lastUsageLogCreatedAt :=
      (exported.getLast?.map UsageLog.createdAt).or state.lastUsageLogCreatedAt
    lastExportedUsageLogId :=
      if exported = [] then lastExportedId state
      else (exported.map UsageLog.id).foldl max state.lastExportedUsageLogId
    lastTraceId := (exported.getLast?.map usageTraceId).or state.lastTraceId
    exportedCount := state.exportedCount + exported.length
    skippedCount := state.skippedCount + (logs.length - exported.length) }

/-- What a run meets: the time, the logs that are new when it asks for each page, and where it
fails. -/
structure Run where
  now : Int
  arrivals : Nat → List UsageLog := fun _ => []
  datasetError : Option String := none
  pageError : Nat → Option String := fun _ => none
  exportError : Option String := none
  writeError : Option String := none

/-- The logs of the service when a page is asked for. -/
def Run.logsAt (run : Run) (logs : List UsageLog) : Nat → List UsageLog
  | 0 => run.arrivals 0 ++ logs
  | page + 1 => run.arrivals (page + 1) ++ run.logsAt logs page

def failed : Option String → Except String Unit
  | some error => .error error
  | none => .ok ()

variable (lower : String → String) (config : TraceExportConfig)

def Run.listAdminUsagePage (run : Run) (logs : List UsageLog) (start stop : Int) (page : Nat) :
    Except String (List UsageLog) := do
  failed (run.pageError page)
  pure (Paging.page config.pageSize page (listed start stop (run.logsAt logs page)))

def exportUsageLogBatch (run : Run) (logs : List UsageLog) : Except String (List UsageLog) :=
  if logs = [] then pure []
  else do
    failed run.exportError
    pure logs

/-- A run: the logs it scanned, those it exported, and the state that it writes. -/
def runTraceExportOnce (run : Run) (logs : List UsageLog) (state : ExportState) :
    Except String (List UsageLog × List UsageLog × ExportState) := do
  failed run.datasetError
  let (scanned, _) ←
    fetchTraceExportUsageLogs config state run.now (run.listAdminUsagePage config logs)
  let exported ←
    exportUsageLogBatch run (scanned.filter (shouldExportTraceUsageLog lower config))
  failed run.writeError
  pure (scanned, exported, nextState state scanned exported)

/-- The usage service, the state file, and the batches of the runs that succeeded. -/
structure World where
  logs : List UsageLog
  state : ExportState := {}
  scanned : List (List UsageLog) := []
  exported : List (List UsageLog) := []

def World.step (world : World) (run : Run) : World :=
  let logs := run.logsAt world.logs config.maxScanPages
  match runTraceExportOnce lower config run world.logs world.state with
  | .ok (scanned, exported, state) => {
      logs := logs
      state := state
      scanned := world.scanned ++ [scanned]
      exported := world.exported ++ [exported] }
  | .error _ => { world with logs := logs }

end Runs

end ChipTrace.Gateway
