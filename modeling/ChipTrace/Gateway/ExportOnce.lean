/-
The usage-log exporter skips nothing and exports nothing twice, unless its page cap cuts a scan
short or its first window moves on before anything is scanned.
-/
import ChipTrace.Gateway.ExportScan
import ChipTrace.Lib.Machine

namespace ChipTrace.Gateway

section States

variable {state : ExportState} {logs : List UsageLog}

theorem foldl_max_le {bound : Nat} (ids : List Nat) (hids : ∀ id ∈ ids, id ≤ bound) {start : Nat}
    (hstart : start ≤ bound) : ids.foldl max start ≤ bound := by
  induction ids generalizing start with
  | nil => exact hstart
  | cons id rest ih =>
      rw [List.forall_mem_cons] at hids
      exact ih hids.2 (Nat.max_le.mpr ⟨hstart, hids.1⟩)

theorem latestLog_concat (front : List UsageLog) (last : UsageLog) :
    latestLog (front ++ [last]) =
      if ((latestLog front).map UsageLog.id).getD 0 < last.id then some last
      else latestLog front := by
  rw [latestLog, List.foldl_append]
  rfl

theorem mem_of_latestLog {log : UsageLog} (hlatest : latestLog logs = some log) : log ∈ logs := by
  induction logs using List.reverseRecOn with
  | nil => cases hlatest
  | append_singleton front last ih =>
      rw [latestLog_concat] at hlatest
      split at hlatest
      · cases hlatest
        exact List.mem_append_right _ (List.mem_singleton_self _)
      · exact List.mem_append_left _ (ih hlatest)

theorem le_foldl_max (ids : List Nat) (start : Nat) : start ≤ ids.foldl max start := by
  induction ids generalizing start with
  | nil => exact Nat.le_refl _
  | cons id rest ih => exact (Nat.le_max_left start id).trans (ih _)

/-- The cursor never goes back. -/
theorem cursor_le_nextState (state : ExportState) (logs exported : List UsageLog) :
    state.lastUsageLogId ≤ (nextState state logs exported).lastUsageLogId := by
  rw [nextState]
  split
  · exact Nat.le_refl _
  · exact le_foldl_max _ _

/-- After a run that scanned some logs, the cursor and the creation time are those of the last. -/
theorem nextState_spec (exported : List UsageLog) (hne : logs ≠ [])
    (hascending : logs.Pairwise fun older newer => older.id < newer.id)
    (habove : ∀ log ∈ logs, state.lastUsageLogId < log.id) :
    ∃ last ∈ logs, (nextState state logs exported).lastUsageLogId = last.id ∧
      (nextState state logs exported).lastScannedUsageLogCreatedAt = some last.createdAt ∧
      ∀ log ∈ logs, log.id ≤ last.id := by
  obtain ⟨front, last, rfl⟩ := (List.eq_nil_or_concat logs).resolve_left hne
  rw [List.concat_eq_append] at *
  have hlast := List.mem_append_right front (List.mem_singleton_self last)
  have hbefore : ∀ log ∈ front, log.id < last.id := fun log hlog =>
    (List.pairwise_append.mp hascending).2.2 log hlog last (List.mem_singleton_self last)
  have hcursor := habove last hlast
  refine ⟨last, hlast, ?_, ?_, ?_⟩
  · rw [nextState, if_neg hne, List.map_append, List.foldl_append]
    refine Nat.max_eq_right (foldl_max_le _ ?_ hcursor.le)
    intro id hid
    obtain ⟨log, hlog, rfl⟩ := List.mem_map.mp hid
    exact (hbefore log hlog).le
  · rw [nextState, if_neg hne, latestLog_concat, if_pos]
    · rfl
    · cases hlatest : latestLog front with
      | none => exact Nat.zero_lt_of_lt hcursor
      | some log => exact hbefore log (mem_of_latestLog hlatest)
  · intro log hlog
    rcases List.mem_append.mp hlog with hfront | hsingle
    · exact (hbefore log hfront).le
    · exact (congrArg UsageLog.id (List.mem_singleton.mp hsingle)).le

end States

section Runs

variable {lower : String → String} {config : TraceExportConfig} {world : World} {run : Run}

/-- What the service lists for a run when it asks for a page. -/
def Run.listing (config : TraceExportConfig) (run : Run) (world : World) (page : Nat) :
    List UsageLog :=
  listed (scanStart config world.state run.now) run.now (run.logsAt world.logs page)

theorem listing_grows (config : TraceExportConfig) (run : Run) (world : World) (page : Nat) :
    run.listing config world page <:+ run.listing config world (page + 1) :=
  listed_suffix (logsAt_grows run world.logs page)

theorem failed_ok {error : Option String} {result : Unit} (hok : failed error = .ok result) :
    error = none := by
  cases error with
  | none => rfl
  | some message => cases hok

theorem listAdminUsagePage_ok {page : Nat} {items : List UsageLog}
    (hitems : run.listAdminUsagePage config world.logs
      (scanStart config world.state run.now) run.now page = .ok items) :
    items = Paging.page config.pageSize page (run.listing config world page) := by
  obtain ⟨_, _, hpage⟩ := Except.bind_eq_ok_iff.mp hitems
  exact (Except.ok.inj hpage).symm

theorem exportUsageLogBatch_ok {logs exported : List UsageLog}
    (hexported : exportUsageLogBatch run logs = .ok exported) : exported = logs := by
  rw [exportUsageLogBatch] at hexported
  split at hexported
  · next hnil =>
      cases hexported
      exact hnil.symm
  · obtain ⟨_, _, hlogs⟩ := Except.bind_eq_ok_iff.mp hexported
    exact (Except.ok.inj hlogs).symm

/-- What a run that succeeds did. -/
theorem runTraceExportOnce_ok {scanned exported : List UsageLog} {next : ExportState}
    (hrun : runTraceExportOnce lower config run world.logs world.state =
      .ok (scanned, exported, next)) :
    (∃ scan, fetchTraceExportUsageLogs config world.state run.now
      (run.listAdminUsagePage config world.logs) = .ok (scanned, scan)) ∧
    exported = scanned.filter (shouldExportTraceUsageLog lower config) ∧
    next = nextState world.state scanned exported := by
  obtain ⟨_, _, hrun⟩ := Except.bind_eq_ok_iff.mp hrun
  obtain ⟨⟨logs, scan⟩, hfetch, hrun⟩ := Except.bind_eq_ok_iff.mp hrun
  obtain ⟨batch, hbatch, hrun⟩ := Except.bind_eq_ok_iff.mp hrun
  obtain ⟨_, _, hresult⟩ := Except.bind_eq_ok_iff.mp hrun
  cases hresult
  exact ⟨⟨scan, hfetch⟩, exportUsageLogBatch_ok hbatch, rfl⟩

/-- The runs that the exporter is right about: a scan that its page cap cuts short leaves nothing
behind, and as long as nothing is scanned, the window still holds the first one. -/
structure Sound (config : TraceExportConfig) (firstDay : Int) (world : World) (run : Run) :
    Prop where
  nothingLeft : NothingLeft config world.state.lastUsageLogId (run.listing config world)
  window : world.state.lastScannedUsageLogCreatedAt.or world.state.lastUsageLogCreatedAt = none →
    ∀ log ∈ run.logsAt world.logs config.maxScanPages, firstDay ≤ formatDay log.createdAt →
      formatDay (scanStart config world.state run.now) ≤ formatDay log.createdAt

/-- The service keeps its logs newest first while a run goes on. -/
def Serves (config : TraceExportConfig) (world : World) (run : Run) : Prop :=
  Newest (run.logsAt world.logs config.maxScanPages)

/-- The cursor has passed only logs that were scanned, each of them once and in order. -/
structure Exported (lower : String → String) (config : TraceExportConfig) (firstDay : Int)
    (world : World) : Prop where
  newest : Newest world.logs
  filtered : world.exported.flatten =
    world.scanned.flatten.filter (shouldExportTraceUsageLog lower config)
  ascending : world.scanned.flatten.Pairwise fun older newer => older.id < newer.id
  known : ∀ log ∈ world.scanned.flatten,
    log ∈ world.logs ∧ log.id ≤ world.state.lastUsageLogId
  complete : ∀ log ∈ world.logs, firstDay ≤ formatDay log.createdAt →
    log.id ≤ world.state.lastUsageLogId → log ∈ world.scanned.flatten
  cursor : (world.state.lastUsageLogId = 0 ∧
      world.state.lastScannedUsageLogCreatedAt.or world.state.lastUsageLogCreatedAt = none) ∨
    ∃ log ∈ world.logs, log.id = world.state.lastUsageLogId ∧
      world.state.lastScannedUsageLogCreatedAt = some log.createdAt

theorem exported_start {logs : List UsageLog} (hnewest : Newest logs)
    (lower : String → String) (config : TraceExportConfig) (firstDay : Int) :
    Exported lower config firstDay { logs := logs } where
  newest := hnewest
  filtered := rfl
  ascending := List.Pairwise.nil
  known := fun _ hlog => absurd hlog List.not_mem_nil
  complete := fun log hlog _ hle => absurd hle (Nat.not_le.mpr (hnewest.pos log hlog))
  cursor := Or.inl ⟨rfl, rfl⟩

variable {firstDay : Int}

/-- New logs are above the cursor. -/
theorem Exported.mem_of_le_cursor (h : Exported lower config firstDay world)
    {logs : List UsageLog} (hnewest : Newest logs) (hsuffix : world.logs <:+ logs) {log : UsageLog}
    (hlog : log ∈ logs) (hle : log.id ≤ world.state.lastUsageLogId) : log ∈ world.logs := by
  rcases h.cursor with ⟨hzero, _⟩ | ⟨last, hlast, hid, _⟩
  · rw [hzero] at hle
    exact absurd hle (Nat.not_le.mpr (hnewest.pos log hlog))
  · exact hnewest.mem_of_suffix hsuffix hlast hlog (hid.symm ▸ hle)

/-- A run that fails changes nothing but the logs of the service. -/
theorem Exported.grow (h : Exported lower config firstDay world) {logs : List UsageLog}
    (hnewest : Newest logs) (hsuffix : world.logs <:+ logs) :
    Exported lower config firstDay { world with logs := logs } where
  newest := hnewest
  filtered := h.filtered
  ascending := h.ascending
  known := fun log hlog => ⟨hsuffix.mem (h.known log hlog).1, (h.known log hlog).2⟩
  complete := fun log hlog hday hle =>
    h.complete log (h.mem_of_le_cursor hnewest hsuffix hlog hle) hday hle
  cursor := h.cursor.imp_right fun ⟨last, hlast, hid, hcreated⟩ =>
    ⟨last, hsuffix.mem hlast, hid, hcreated⟩

/-- The window of a run holds every log above the cursor from the first day on. -/
theorem Exported.start_le (h : Exported lower config firstDay world)
    (hserves : Serves config world run) (hsound : Sound config firstDay world run) {log : UsageLog}
    (hlog : log ∈ run.logsAt world.logs config.maxScanPages)
    (hday : firstDay ≤ formatDay log.createdAt) (habove : world.state.lastUsageLogId < log.id) :
    formatDay (scanStart config world.state run.now) ≤ formatDay log.createdAt := by
  rcases h.cursor with ⟨_, hnone⟩ | ⟨last, hlast, hid, hcreated⟩
  · exact hsound.window hnone log hlog hday
  · have hlastNow := (suffix_logsAt run world.logs config.maxScanPages).mem hlast
    have hle := hserves.createdAt_le hlastNow hlog (hid ▸ habove.le)
    rw [scanStart, hcreated, Option.some_or]
    apply formatDay_mono
    simp only
    omega

/-- A run that succeeds scans the logs next to the cursor. -/
theorem Exported.succeed (h : Exported lower config firstDay world)
    (hserves : Serves config world run) (hsound : Sound config firstDay world run)
    {scanned exported : List UsageLog} {next : ExportState}
    (hrun : runTraceExportOnce lower config run world.logs world.state =
      .ok (scanned, exported, next)) :
    Exported lower config firstDay {
      logs := run.logsAt world.logs config.maxScanPages
      state := next
      scanned := world.scanned ++ [scanned]
      exported := world.exported ++ [exported] } := by
  obtain ⟨⟨scan, hfetch⟩, rfl, rfl⟩ := runTraceExportOnce_ok hrun
  have hgrown := h.grow hserves (suffix_logsAt run world.logs config.maxScanPages)
  have hfetched := fetched (listing_grows config run world) (hserves.listed _ _)
    (fun number items => listAdminUsagePage_ok) hsound.nothingLeft hfetch
  have hfiltered : (world.exported ++
      [scanned.filter (shouldExportTraceUsageLog lower config)]).flatten =
      (world.scanned ++ [scanned]).flatten.filter (shouldExportTraceUsageLog lower config) := by
    rw [List.flatten_append, List.flatten_append, List.filter_append, h.filtered,
      List.flatten_singleton, List.flatten_singleton]
  have hascending : (world.scanned ++ [scanned]).flatten.Pairwise
      fun older newer => older.id < newer.id := by
    rw [List.flatten_append, List.flatten_singleton, List.pairwise_append]
    refine ⟨h.ascending, hfetched.ascending, fun older holder newer hnewer => ?_⟩
    exact (h.known older holder).2.trans_lt (hfetched.listed newer hnewer).1
  by_cases hne : scanned = []
  · subst hne
    have hsame : (world.scanned ++ [[]]).flatten = world.scanned.flatten := by
      rw [List.flatten_append, List.flatten_singleton, List.append_nil]
    exact {
      newest := hserves
      filtered := hfiltered
      ascending := hascending
      known := by
        rw [hsame]
        exact hgrown.known
      complete := by
        rw [hsame]
        exact hgrown.complete
      cursor := hgrown.cursor }
  · obtain ⟨last, hlast, hcursor, hcreated, hbelow⟩ := nextState_spec
      (scanned.filter (shouldExportTraceUsageLog lower config)) hne
      hfetched.ascending (fun log hlog => (hfetched.listed log hlog).1)
    have hlastListed := hfetched.listed last hlast
    have hlastMem := mem_listed.mp hlastListed.2
    have hmem : ∀ log, log ∈ (world.scanned ++ [scanned]).flatten ↔
        log ∈ world.scanned.flatten ∨ log ∈ scanned := by
      intro log
      rw [List.flatten_append, List.flatten_singleton, List.mem_append]
    exact {
      newest := hserves
      filtered := hfiltered
      ascending := hascending
      known := fun log hlog => by
        rw [hcursor]
        rcases (hmem log).mp hlog with hold | hnew
        · obtain ⟨hlogs, hle⟩ := hgrown.known log hold
          exact ⟨hlogs, hle.trans hlastListed.1.le⟩
        · exact ⟨(mem_listed.mp (hfetched.listed log hnew).2).1, hbelow log hnew⟩
      complete := fun log hlog hday hle => by
        rw [hcursor] at hle
        rw [hmem]
        by_cases hold : log.id ≤ world.state.lastUsageLogId
        · exact Or.inl (hgrown.complete log hlog hday hold)
        · have habove := Nat.not_le.mp hold
          have hstop := (formatDay_mono (hserves.createdAt_le hlog hlastMem.1 hle)).trans
            hlastMem.2.2
          have hlisted : log ∈ run.listing config world config.maxScanPages :=
            mem_listed.mpr ⟨hlog, h.start_le hserves hsound hlog hday habove, hstop⟩
          exact Or.inr (hfetched.closed last hlast log hlisted habove hle)
      cursor := Or.inr ⟨last, hlastMem.1, hcursor.symm, hcreated⟩ }

theorem Exported.step (h : Exported lower config firstDay world)
    (hserves : Serves config world run) (hsound : Sound config firstDay world run) :
    Exported lower config firstDay (world.step lower config run) := by
  rw [World.step]
  cases hrun : runTraceExportOnce lower config run world.logs world.state with
  | error message => exact h.grow hserves (suffix_logsAt run world.logs config.maxScanPages)
  | ok result => exact h.succeed hserves hsound hrun

/-- How many of the runs that succeeded exported a log. -/
def timesExported (world : World) (log : UsageLog) : Nat :=
  world.exported.countP fun batch => decide (log ∈ batch)

/-- Each wanted log up to the cursor is exported in one run, in the order of ids, and the cursor
has passed no log that was not scanned. -/
structure ExactlyOnce (lower : String → String) (config : TraceExportConfig) (firstDay : Int)
    (world : World) : Prop where
  once : ∀ log ∈ world.logs, firstDay ≤ formatDay log.createdAt →
    shouldExportTraceUsageLog lower config log = true → log.id ≤ world.state.lastUsageLogId →
      timesExported world log = 1
  ordered : world.exported.flatten.Pairwise fun older newer => older.id < newer.id
  wanted : ∀ log ∈ world.exported.flatten, log ∈ world.logs ∧
    shouldExportTraceUsageLog lower config log = true ∧ log.id ≤ world.state.lastUsageLogId
  passed : ∀ log ∈ world.logs, firstDay ≤ formatDay log.createdAt →
    log.id ≤ world.state.lastUsageLogId → log ∈ world.scanned.flatten

theorem countP_eq_one {log : UsageLog} (batches : List (List UsageLog))
    (hnodup : batches.flatten.Nodup) (hlog : log ∈ batches.flatten) :
    batches.countP (fun batch => decide (log ∈ batch)) = 1 := by
  induction batches with
  | nil => exact absurd hlog List.not_mem_nil
  | cons batch rest ih =>
      rw [List.flatten_cons] at hnodup hlog
      obtain ⟨_, hrest, hdisjoint⟩ := List.nodup_append'.mp hnodup
      rw [List.countP_cons]
      by_cases hbatch : log ∈ batch
      · have hnone : rest.countP (fun batch => decide (log ∈ batch)) = 0 := by
          rw [List.countP_eq_zero]
          intro other hother hmem
          exact hdisjoint hbatch (List.mem_flatten.mpr ⟨other, hother, of_decide_eq_true hmem⟩)
        rw [hnone, if_pos (decide_eq_true hbatch)]
      · rw [ih hrest ((List.mem_append.mp hlog).resolve_left hbatch), if_neg (by simp [hbatch])]

theorem Exported.exactlyOnce (h : Exported lower config firstDay world) :
    ExactlyOnce lower config firstDay world := by
  have hordered : world.exported.flatten.Pairwise fun older newer => older.id < newer.id := by
    rw [h.filtered]
    exact h.ascending.sublist List.filter_sublist
  have hnodup : world.exported.flatten.Nodup :=
    hordered.imp fun hlt heq => absurd (congrArg UsageLog.id heq) hlt.ne
  exact {
    once := fun log hlog hday hwanted hle => by
      refine countP_eq_one _ hnodup ?_
      rw [h.filtered, List.mem_filter]
      exact ⟨h.complete log hlog hday hle, hwanted⟩
    ordered := hordered
    wanted := fun log hlog => by
      rw [h.filtered, List.mem_filter] at hlog
      exact ⟨(h.known log hlog.1).1, hlog.2, (h.known log hlog.1).2⟩
    passed := h.complete }

section Progress

variable {log : UsageLog}

/-- The logs up to this one that the cursor has not passed, by id. -/
def waiting (world : World) (log : UsageLog) : Finset Nat :=
  (world.logs.map UsageLog.id).toFinset.filter fun id =>
    world.state.lastUsageLogId < id ∧ id ≤ log.id

theorem mem_waiting {id : Nat} : id ∈ waiting world log ↔
    (∃ other ∈ world.logs, other.id = id) ∧ world.state.lastUsageLogId < id ∧ id ≤ log.id := by
  rw [waiting, Finset.mem_filter, List.mem_toFinset, List.mem_map]

theorem card_waiting_le (world : World) (log : UsageLog) :
    (waiting world log).card ≤ world.logs.length := by
  have hlength : (world.logs.map UsageLog.id).length = world.logs.length := List.length_map _
  rw [← hlength]
  exact (Finset.card_filter_le _ _).trans (List.toFinset_card_le _)

theorem cursor_le_step (lower : String → String) (config : TraceExportConfig) (world : World)
    (run : Run) :
    world.state.lastUsageLogId ≤ (world.step lower config run).state.lastUsageLogId := by
  rw [World.step]
  cases hrun : runTraceExportOnce lower config run world.logs world.state with
  | error message => exact Nat.le_refl _
  | ok result =>
      obtain ⟨scanned, exported, next⟩ := result
      obtain ⟨_, _, rfl⟩ := runTraceExportOnce_ok hrun
      exact cursor_le_nextState _ _ _

theorem cursor_le_run (lower : String → String) (config : TraceExportConfig) (world : World)
    (runs : List Run) :
    world.state.lastUsageLogId ≤
      (Machine.run (World.step lower config) world runs).state.lastUsageLogId := by
  induction runs generalizing world with
  | nil => exact Nat.le_refl _
  | cons run rest ih => exact (cursor_le_step lower config world run).trans (ih _)

theorem logs_step (lower : String → String) (config : TraceExportConfig) (world : World)
    (run : Run) :
    (world.step lower config run).logs = run.logsAt world.logs config.maxScanPages := by
  rw [World.step]
  split
  · rfl
  · rfl

/-- No log starts to wait before an old one. -/
theorem waiting_step_subset (lower : String → String) (hserves : Serves config world run)
    (hlog : log ∈ world.logs) :
    waiting (world.step lower config run) log ⊆ waiting world log := by
  intro id hid
  obtain ⟨⟨other, hother, rfl⟩, habove, hle⟩ := mem_waiting.mp hid
  rw [logs_step] at hother
  have hold := hserves.mem_of_suffix (suffix_logsAt run world.logs config.maxScanPages) hlog
    hother hle
  exact mem_waiting.mpr ⟨⟨other, hold, rfl⟩,
    (cursor_le_step lower config world run).trans_lt habove, hle⟩

/-- With every run that succeeds, one log less waits. -/
theorem Exported.waits (h : Exported lower config firstDay world)
    (hserves : Serves config world run) (hsound : Sound config firstDay world run)
    (hlog : log ∈ world.logs) (hday : firstDay ≤ formatDay log.createdAt)
    (hnow : formatDay log.createdAt ≤ formatDay run.now) :
    log.id ≤ (world.step lower config run).state.lastUsageLogId ∨
      (waiting (world.step lower config run) log).card +
          (world.step lower config run).scanned.length ≤
        (waiting world log).card + world.scanned.length := by
  have hsubset := waiting_step_subset lower hserves hlog
  have hcursor := cursor_le_step lower config world run
  by_cases hbelow : log.id ≤ world.state.lastUsageLogId
  · exact Or.inl (hbelow.trans hcursor)
  · right
    have habove := Nat.not_le.mp hbelow
    rw [World.step] at hsubset ⊢
    cases hrun : runTraceExportOnce lower config run world.logs world.state with
    | error message =>
        rw [hrun] at hsubset
        exact Nat.add_le_add_right (Finset.card_le_card hsubset) _
    | ok result =>
        rw [hrun] at hsubset
        obtain ⟨scanned, exported, next⟩ := result
        obtain ⟨⟨scan, hfetch⟩, hexported, rfl⟩ := runTraceExportOnce_ok hrun
        have hfetched := fetched (listing_grows config run world) (hserves.listed _ _)
          (fun number items => listAdminUsagePage_ok) hsound.nothingLeft hfetch
        have hgrown := suffix_logsAt run world.logs config.maxScanPages
        have hlisted : log ∈ run.listing config world 0 :=
          mem_listed.mpr ⟨(suffix_logsAt run world.logs 0).mem hlog,
            h.start_le hserves hsound (hgrown.mem hlog) hday habove, hnow⟩
        obtain ⟨first, hfirst, hfirstLe⟩ := hfetched.oldest log hlisted habove
        obtain ⟨last, _, hlast, _, hall⟩ := nextState_spec exported
          (List.ne_nil_of_mem hfirst) hfetched.ascending
          (fun other hother => (hfetched.listed other hother).1)
        obtain ⟨hfirstAbove, hfirstListed⟩ := hfetched.listed first hfirst
        have hfirstOld := hserves.mem_of_suffix hgrown hlog (mem_listed.mp hfirstListed).1 hfirstLe
        have hmem : first.id ∈ waiting world log :=
          mem_waiting.mpr ⟨⟨first, hfirstOld, rfl⟩, hfirstAbove, hfirstLe⟩
        have hless := Finset.card_lt_card
          ((Finset.ssubset_iff_of_subset hsubset).mpr ⟨first.id, hmem, fun hwaits => by
            have hpassed := (mem_waiting.mp hwaits).2.1
            simp only [hlast] at hpassed
            exact absurd (hall first hfirst) (Nat.not_le.mpr hpassed)⟩)
        rw [List.length_append, List.length_singleton]
        omega

/-- A log is passed when as many runs succeed as logs up to it wait. -/
theorem Exported.waits_run {runs : List Run} (h : Exported lower config firstDay world)
    (hserves : Machine.Along (World.step lower config) (Serves config) world runs)
    (hsound : Machine.Along (World.step lower config) (Sound config firstDay) world runs)
    (hlog : log ∈ world.logs) (hday : firstDay ≤ formatDay log.createdAt)
    (hnow : ∀ run ∈ runs, formatDay log.createdAt ≤ formatDay run.now) :
    log.id ≤ (Machine.run (World.step lower config) world runs).state.lastUsageLogId ∨
      (waiting (Machine.run (World.step lower config) world runs) log).card +
          (Machine.run (World.step lower config) world runs).scanned.length ≤
        (waiting world log).card + world.scanned.length := by
  induction runs generalizing world with
  | nil => exact Or.inr (Nat.le_refl _)
  | cons run rest ih =>
      rw [List.forall_mem_cons] at hnow
      have hmem : log ∈ (world.step lower config run).logs := by
        rw [logs_step]
        exact (suffix_logsAt run world.logs config.maxScanPages).mem hlog
      rw [Machine.run_cons]
      rcases h.waits hserves.1 hsound.1 hlog hday hnow.1 with hpassed | hless
      · exact Or.inl (hpassed.trans (cursor_le_run lower config _ rest))
      · exact (ih (h.step hserves.1 hsound.1) hserves.2 hsound.2 hmem hnow.2).imp_right
          fun hrest => hrest.trans hless

end Progress

theorem logs_run (lower : String → String) (config : TraceExportConfig) (world : World)
    (runs : List Run) :
    world.logs <:+ (Machine.run (World.step lower config) world runs).logs := by
  induction runs generalizing world with
  | nil => exact List.suffix_rfl
  | cons run rest ih =>
      have hstep := suffix_logsAt run world.logs config.maxScanPages
      rw [← logs_step lower config world run] at hstep
      exact hstep.trans (ih _)

/-- Where nothing up to a log waits, the cursor has passed it. -/
theorem passed_of_waiting {log : UsageLog} (hlog : log ∈ world.logs)
    (hnone : (waiting world log).card = 0) : log.id ≤ world.state.lastUsageLogId := by
  by_contra hbelow
  have hmem : log.id ∈ waiting world log :=
    mem_waiting.mpr ⟨⟨log, hlog, rfl⟩, Nat.not_le.mp hbelow, Nat.le_refl _⟩
  rw [Finset.card_eq_zero.mp hnone] at hmem
  exact absurd hmem (Finset.notMem_empty _)

/-- The day where the window of the first run starts. -/
def firstDayOf (config : TraceExportConfig) (first : Run) : Int :=
  formatDay (scanStart config {} first.now)

end Runs

section Limits

def twoLogs : List UsageLog := [{ id := 2, createdAt := 60000 }, { id := 1, createdAt := 0 }]

theorem newest_twoLogs : Newest twoLogs where
  pos := by decide
  order := by decide

def onePage : TraceExportConfig := { pageSize := 2, maxScanPages := 1 }

/-- A run that fails, and one after the first window. -/
def movedRuns : List Run := [
  { now := 60000, datasetError := some "unavailable" },
  { now := 8 * dayMs,
    arrivals := fun page => if page = 0 then [{ id := 3, createdAt := 8 * dayMs }] else [] }]

/-- When the first run fails, the logs of its window are passed once the window has moved on. -/
theorem moved_window_skips :
    ¬ ExactlyOnce id {} (firstDayOf {} { now := 60000 })
      (Machine.run (World.step id {}) { logs := twoLogs } movedRuns) := by
  intro hclaim
  have hpassed := hclaim.passed { id := 1, createdAt := 0 } (by decide) (by decide) (by decide)
  exact absurd hpassed (by decide)

end Limits

end ChipTrace.Gateway
