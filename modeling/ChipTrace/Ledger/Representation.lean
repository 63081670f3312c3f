/-
The ledger as a machine: any sequence of operations with any arguments and any
clock.  Indexes and state counters agree with the table in every state; the
attempts counter does too exactly when no requeue forgets attempts.
-/
import ChipTrace.Lib.Machine
import ChipTrace.Ledger.Transactions

namespace ChipTrace

open DeliveryTables DeliveryLedger

inductive LedgerOp where
  | ensureMany (locators : List CaptureLocator)
  | claimMany (now : UInt64) (timestamp : String) (captureIds : List String)
      (leaseMillis : Nat)
  | finishMany (now : UInt64) (timestamp : String) (updates : List DeliveryUpdate)
  | requeueFailed (now : UInt64) (captureIds : List String) (reason : String)
  | reclaimExpiredInflight (now : UInt64) (limit : Nat)
  | openLedger (seed : Except String (Option IngestQualitySeed))

namespace LedgerOp

/-- The ledger an operation commits. -/
def run (ledger : DeliveryLedger) : LedgerOp → Except String DeliveryLedger
  | ensureMany locators => Prod.snd <$> ledger.ensureMany locators
  | claimMany now timestamp captureIds leaseMillis =>
      Prod.snd <$> ledger.claimMany now timestamp captureIds leaseMillis
  | finishMany now timestamp updates => ledger.finishMany now timestamp updates
  | requeueFailed now captureIds reason =>
      Prod.snd <$> ledger.requeueFailed now captureIds reason
  | reclaimExpiredInflight now limit =>
      Prod.snd <$> ledger.reclaimExpiredInflight now limit
  | openLedger seed => ledger.openLedger seed

/-- An operation that fails aborts its transaction. -/
def step (ledger : DeliveryLedger) (op : LedgerOp) : DeliveryLedger :=
  match op.run ledger with
  | .ok next => next
  | .error _ => ledger

end LedgerOp

namespace DeliveryLedger

/-- The tables behind a ledger whose counters are present. -/
def tablesWith (ledger : DeliveryLedger) (counters : DeliveryCounters) : DeliveryTables :=
  ⟨ledger.deliveries, ledger.pendingDeliveries, ledger.inflightDeliveries, counters⟩

/-- An opened ledger with consistent tables. -/
def Consistent (ledger : DeliveryLedger) : Prop :=
  ∃ counters, ledger.metadata.deliveryCounters = some counters ∧
    (ledger.tablesWith counters).Consistent

def AttemptsExact (ledger : DeliveryLedger) : Prop :=
  ∀ counters, ledger.metadata.deliveryCounters = some counters →
    (ledger.tablesWith counters).AttemptsExact

/-- The representation invariant: the indexes list exactly the pending and the
inflight records, the stored counters are those of the table, and every record
is counted in one state. -/
structure RepInv (ledger : DeliveryLedger) : Prop where
  pendingIndex : ∀ key id, ledger.pendingDeliveries.get? key = some id ↔
    ∃ record, ledger.deliveries.get? id = some record ∧ record.state = .pending ∧
      key = deliveryIndexKey record.nextAttemptUnixMs id
  inflightIndex : ∀ key id, ledger.inflightDeliveries.get? key = some id ↔
    ∃ record, ledger.deliveries.get? id = some record ∧ record.state = .inflight ∧
      key = deliveryIndexKey record.leaseUntilUnixMs id
  counters : ledger.metadata.deliveryCounters =
    some (deliveryCountersFromTable ledger.deliveries)
  conservation : ∀ counters, ledger.metadata.deliveryCounters = some counters →
    counters.total = counters.pending + counters.inflight + counters.delivered +
      counters.conflicts + counters.failed

end DeliveryLedger

/-- Every row is counted in exactly one state. -/
theorem DeliveryTables.Consistent.conservation {tables : DeliveryTables}
    (h : tables.Consistent) :
    tables.counters.total = tables.counters.pending + tables.counters.inflight +
      tables.counters.delivered + tables.counters.conflicts + tables.counters.failed := by
  have hsplit : tables.deliveries.len =
      tables.deliveries.weigh (stateWeight .pending) +
        tables.deliveries.weigh (stateWeight .inflight) +
        tables.deliveries.weigh (stateWeight .delivered) +
        tables.deliveries.weigh (stateWeight .conflict) +
        tables.deliveries.weigh (stateWeight .failed) := by
    rw [Table.len_eq_weigh, ← Table.weigh_add, ← Table.weigh_add, ← Table.weigh_add,
      ← Table.weigh_add]
    congr 1
    funext id record
    cases hstate : record.state <;> simp [stateWeight, hstate]
  have htotal := h.total
  have hpending := h.stateCount .pending
  have hinflight := h.stateCount .inflight
  have hdelivered := h.stateCount .delivered
  have hconflict := h.stateCount .conflict
  have hfailed := h.stateCount .failed
  simp only [DeliveryCounters.ofState] at *
  omega

theorem indexOf_pendingKey_iff {deliveries : Table String DeliveryRecord}
    {index : Table String String} :
    IndexOf pendingKey deliveries index ↔ ∀ key id, index.get? key = some id ↔
      ∃ record, deliveries.get? id = some record ∧ record.state = .pending ∧
        key = deliveryIndexKey record.nextAttemptUnixMs id := by
  have hkey : ∀ key id record, pendingKey id record = some key ↔
      record.state = .pending ∧ key = deliveryIndexKey record.nextAttemptUnixMs id := by
    intro key id record
    unfold pendingKey
    split_ifs with hstate
    · simp [hstate, eq_comm]
    · simp [hstate]
  simp only [IndexOf, hkey]

theorem indexOf_inflightKey_iff {deliveries : Table String DeliveryRecord}
    {index : Table String String} :
    IndexOf inflightKey deliveries index ↔ ∀ key id, index.get? key = some id ↔
      ∃ record, deliveries.get? id = some record ∧ record.state = .inflight ∧
        key = deliveryIndexKey record.leaseUntilUnixMs id := by
  have hkey : ∀ key id record, inflightKey id record = some key ↔
      record.state = .inflight ∧ key = deliveryIndexKey record.leaseUntilUnixMs id := by
    intro key id record
    unfold inflightKey
    split_ifs with hstate
    · simp [hstate, eq_comm]
    · simp [hstate]
  simp only [IndexOf, hkey]

/-- On consistent tables the representation invariant is the exactness of the
attempts counter. -/
theorem DeliveryLedger.Consistent.repInv_iff {ledger : DeliveryLedger}
    (h : ledger.Consistent) : ledger.RepInv ↔ ledger.AttemptsExact := by
  obtain ⟨counters, hcounters, htables⟩ := h
  obtain ⟨htotal, hattempts, hstate⟩ := deliveryCountersFromTable_spec ledger.deliveries
  constructor
  · intro hrep counters' hcounters'
    have hsame := hrep.counters
    rw [hcounters', Option.some.injEq] at hsame
    rw [hsame]
    exact hattempts
  · intro hexact
    refine ⟨indexOf_pendingKey_iff.mp htables.pendingIndex,
      indexOf_inflightKey_iff.mp htables.inflightIndex, ?_, ?_⟩
    · rw [hcounters, Option.some.injEq]
      apply DeliveryCounters.ext_ofState
      · exact htables.total.trans htotal.symm
      · exact (hexact counters hcounters).trans hattempts.symm
      · exact fun state => (htables.stateCount state).trans (hstate state).symm
    · intro counters' hcounters'
      rw [hcounters, Option.some.injEq] at hcounters'
      subst hcounters'
      exact htables.conservation

/-- A committed transaction. -/
theorem DeliveryLedger.commit_consistent {ledger : DeliveryLedger}
    {tables : DeliveryTables} (h : tables.Consistent) : (ledger.commit tables).Consistent :=
  ⟨tables.counters, rfl, h⟩

theorem DeliveryLedger.commit_attemptsExact {ledger : DeliveryLedger}
    {tables : DeliveryTables} :
    (ledger.commit tables).AttemptsExact ↔ tables.AttemptsExact := by
  constructor
  · exact fun h => h tables.counters rfl
  · rintro h counters hcounters
    cases Option.some.inj hcounters
    exact h

theorem DeliveryLedger.beginWrite_eq {ledger : DeliveryLedger}
    {counters : DeliveryCounters}
    (hcounters : ledger.metadata.deliveryCounters = some counters) :
    ledger.beginWrite = .ok (ledger.tablesWith counters) := by
  simp [beginWrite, readDeliveryCounters, hcounters, tablesWith, pure, Except.pure]

section Transactions

variable {ledger : DeliveryLedger} {counters : DeliveryCounters}
  (hcounters : ledger.metadata.deliveryCounters = some counters)
include hcounters

theorem ensureMany_eq_ok_iff {locators : List CaptureLocator}
    {result : Nat × DeliveryLedger} :
    ledger.ensureMany locators = .ok result ↔
      ∃ work, locators.foldlM ensureOne (ledger.tablesWith counters, 0) = .ok work ∧
        (work.2, ledger.commit work.1) = result := by
  rw [ensureMany, beginWrite_eq hcounters, Except.ok_bind, Except.bind_eq_ok_iff]
  simp only [Except.pure_eq_ok_iff]

theorem claimMany_eq (now : UInt64) (timestamp : String) (captureIds : List String)
    (leaseMillis : Nat) :
    ledger.claimMany now timestamp captureIds leaseMillis =
      let work := captureIds.foldl (claimOne now timestamp leaseMillis)
        (ledger.tablesWith counters, [])
      .ok (work.2, ledger.commit work.1) := by
  rw [claimMany, beginWrite_eq hcounters]
  rfl

theorem finishMany_eq_ok_iff {now : UInt64} {timestamp : String}
    {updates : List DeliveryUpdate} {next : DeliveryLedger} :
    ledger.finishMany now timestamp updates = .ok next ↔
      ∃ tables, updates.foldlM (finishOne now timestamp) (ledger.tablesWith counters) =
        .ok tables ∧ ledger.commit tables = next := by
  rw [finishMany, beginWrite_eq hcounters, Except.ok_bind, Except.bind_eq_ok_iff]
  simp only [Except.pure_eq_ok_iff]

theorem requeueFailed_eq (now : UInt64) {captureIds : List String} (reason : String)
    (hids : captureIds ≠ []) :
    ledger.requeueFailed now captureIds reason =
      let work := captureIds.foldl (requeueOne now reason) (ledger.tablesWith counters, [])
      .ok (work.2, ledger.commit work.1) := by
  rw [requeueFailed, if_neg hids, beginWrite_eq hcounters]
  rfl

theorem reclaimExpiredInflight_eq (now : UInt64) {limit : Nat} (hlimit : limit ≠ 0)
    (htables : (ledger.tablesWith counters).Consistent) :
    ∃ finish, ledger.reclaimExpiredInflight now limit =
        .ok ((expiredRows now limit ledger.inflightDeliveries).map Prod.snd,
          ledger.commit finish) ∧
      ReleasedRows leaseExpiredError (ledger.tablesWith counters)
        (expiredRows now limit ledger.inflightDeliveries) finish := by
  obtain ⟨finish, hfold, hreleased⟩ := reclaimLoop_released htables
    (Listed.of_entries (expiredRows_sublist now limit _))
    (fun row hrow => expiredRows_expired hrow) []
  refine ⟨finish, ?_, hreleased⟩
  rw [reclaimExpiredInflight, if_neg hlimit, beginWrite_eq hcounters, Except.ok_bind, hfold]
  rfl

end Transactions

section Open

variable {ledger next : DeliveryLedger} {seed : Except String (Option IngestQualitySeed)}

/-- The schema check and the quality migration leave the deliveries alone. -/
theorem openMeta_spec (hok : ledger.openMeta seed = .ok next) :
    next.deliveries = ledger.deliveries ∧
      next.pendingDeliveries = ledger.pendingDeliveries ∧
      next.inflightDeliveries = ledger.inflightDeliveries ∧
      next.metadata.deliveryCounters = ledger.metadata.deliveryCounters := by
  obtain ⟨version, _, hok⟩ := Except.bind_eq_ok_iff.mp hok
  split at hok
  · rw [Except.pure_eq_ok_iff] at hok
    subst hok
    exact ⟨rfl, rfl, rfl, rfl⟩
  · obtain ⟨qualitySeed, _, hok⟩ := Except.bind_eq_ok_iff.mp hok
    split_ifs at hok
    obtain ⟨counters, _, hok⟩ := Except.bind_eq_ok_iff.mp hok
    rw [Except.pure_eq_ok_iff] at hok
    subst hok
    exact ⟨rfl, rfl, rfl, rfl⟩

theorem openMeta_consistent (hok : ledger.openMeta seed = .ok next)
    (h : ledger.Consistent) : next.Consistent := by
  obtain ⟨hdeliveries, hpending, hinflight, hcounters⟩ := openMeta_spec hok
  obtain ⟨counters, hstored, htables⟩ := h
  refine ⟨counters, hcounters.trans hstored, ?_⟩
  simpa only [tablesWith, hdeliveries, hpending, hinflight] using htables

theorem openMeta_attemptsExact (hok : ledger.openMeta seed = .ok next)
    (h : ledger.AttemptsExact) : next.AttemptsExact := by
  obtain ⟨hdeliveries, hpending, hinflight, hcounters⟩ := openMeta_spec hok
  intro counters hstored
  have hexact := h counters (hcounters.symm.trans hstored)
  simpa only [tablesWith, hdeliveries, hpending, hinflight] using hexact

/-- Startup without the scan either keeps the ledger or releases the whole
inflight index. -/
theorem fastStartup_cases (h : ledger.Consistent)
    (hok : ledger.fastStartup = .ok (some next)) :
    next = ledger ∨ ∃ counters tables,
      ledger.metadata.deliveryCounters = some counters ∧ next = ledger.commit tables ∧
        ReleasedRows leaseRecoveredError (ledger.tablesWith counters)
          ledger.inflightDeliveries.entries tables := by
  obtain ⟨counters, hcounters, htables⟩ := h
  rw [fastStartup, hcounters] at hok
  simp only at hok
  split_ifs at hok
  · cases hok
  · exact Or.inl (Option.some.inj (Except.ok.inj hok)).symm
  · cases hok
  · obtain ⟨tables, htablesOk, hok⟩ := Except.bind_eq_ok_iff.mp hok
    rw [Except.pure_eq_ok_iff, Option.some.injEq] at hok
    obtain ⟨finish, hfinish, hreleased⟩ := recoverLoop_released htables
      (Listed.of_entries (List.Sublist.refl ledger.inflightDeliveries.entries))
    have hsame : tables = finish := Except.ok.inj (htablesOk.symm.trans hfinish)
    exact Or.inr ⟨counters, tables, hcounters, hok.symm, hsame ▸ hreleased⟩

theorem openLedger_keeps (h : ledger.Consistent)
    (hok : ledger.openLedger seed = .ok next) :
    next.Consistent ∧ (ledger.AttemptsExact → next.AttemptsExact) := by
  obtain ⟨migrated, hmigrated, hok⟩ := Except.bind_eq_ok_iff.mp hok
  have hmid := openMeta_consistent hmigrated h
  obtain ⟨started, hstarted, hok⟩ := Except.bind_eq_ok_iff.mp hok
  cases started with
  | some started =>
      rw [Except.pure_eq_ok_iff] at hok
      subst hok
      rcases fastStartup_cases hmid hstarted with
        rfl | ⟨counters, tables, hcounters, rfl, hreleased⟩
      · exact ⟨hmid, openMeta_attemptsExact hmigrated⟩
      · obtain ⟨counters', hcounters', htables⟩ := hmid
        rw [hcounters, Option.some.injEq] at hcounters'
        subst hcounters'
        refine ⟨commit_consistent (hreleased.keeps.consistent htables), fun hexact => ?_⟩
        exact commit_attemptsExact.mpr (hreleased.keeps.attempts htables
          (openMeta_attemptsExact hmigrated hexact counters hcounters))
  | none =>
      rw [Except.pure_eq_ok_iff] at hok
      subst hok
      obtain ⟨counters, _, htables⟩ := hmid
      have hkeys : ∀ id record, migrated.deliveries.get? id = some record →
          record.captureId = id := htables.rowKeys
      obtain ⟨tables, hrebuild, hconsistent, hexact⟩ := rebuild_consistent hkeys
      rw [hrebuild]
      exact ⟨commit_consistent hconsistent, fun _ => commit_attemptsExact.mpr hexact⟩

/-- The first open of a database rebuilds from its empty table. -/
theorem openLedger_created (hok : created.openLedger seed = .ok next) :
    next.Consistent ∧ next.AttemptsExact := by
  obtain ⟨migrated, hmigrated, hok⟩ := Except.bind_eq_ok_iff.mp hok
  obtain ⟨hdeliveries, _, _, hcounters⟩ := openMeta_spec hmigrated
  have hfast : migrated.fastStartup = .ok none := by
    rw [fastStartup, hcounters]
    rfl
  rw [hfast, Except.ok_bind] at hok
  have hok := Except.pure_eq_ok_iff.mp hok
  subst hok
  have hkeys : ∀ id record, migrated.deliveries.get? id = some record →
      record.captureId = id := by
    intro id record hget
    rw [hdeliveries] at hget
    cases hget
  obtain ⟨tables, hrebuild, hconsistent, hexact⟩ := rebuild_consistent hkeys
  rw [hrebuild]
  exact ⟨commit_consistent hconsistent, commit_attemptsExact.mpr hexact⟩

end Open

namespace LedgerOp

/-- A requeue loses attempts when it finds a failed row that has some. -/
def KeepsAttempts (ledger : DeliveryLedger) : LedgerOp → Prop
  | requeueFailed _ captureIds _ => FailedWithoutAttempts ledger.deliveries captureIds
  | _ => True

variable {ledger : DeliveryLedger}

theorem step_of_ok {op : LedgerOp} {next : DeliveryLedger} (hok : op.run ledger = .ok next) :
    step ledger op = next := by
  rw [step, hok]

theorem step_of_error {op : LedgerOp} {error : String} (herror : op.run ledger = .error error) :
    step ledger op = ledger := by
  rw [step, herror]

/-- One operation keeps consistent tables, and keeps an exact attempts counter
exactly when it loses no attempts. -/
theorem step_spec (op : LedgerOp) (h : ledger.Consistent) :
    (step ledger op).Consistent ∧
      (ledger.AttemptsExact →
        ((step ledger op).AttemptsExact ↔ KeepsAttempts ledger op)) := by
  obtain ⟨counters, hcounters, htables⟩ := id h
  have hcommitted : ∀ tables : DeliveryTables, tables.Consistent →
      ((ledger.tablesWith counters).AttemptsExact → tables.AttemptsExact) →
      (ledger.commit tables).Consistent ∧
        (ledger.AttemptsExact → ((ledger.commit tables).AttemptsExact ↔ True)) := by
    intro tables hconsistent hexact
    refine ⟨commit_consistent hconsistent, fun hledger => ?_⟩
    simp only [iff_true]
    exact commit_attemptsExact.mpr (hexact (hledger counters hcounters))
  have hfailed : ∀ error, op.run ledger = .error error → KeepsAttempts ledger op →
      (step ledger op).Consistent ∧ (ledger.AttemptsExact →
        ((step ledger op).AttemptsExact ↔ KeepsAttempts ledger op)) := by
    intro error herror hkeeps
    rw [step_of_error herror]
    exact ⟨h, fun hexact => ⟨fun _ => hkeeps, fun _ => hexact⟩⟩
  cases op with
  | ensureMany locators =>
      cases hrun : (ensureMany locators).run ledger with
      | error error => exact hfailed error hrun trivial
      | ok next =>
          rw [step_of_ok hrun]
          obtain ⟨result, hresult, rfl⟩ := Except.map_eq_ok_iff.mp hrun
          obtain ⟨⟨tables, inserted⟩, hloop, rfl⟩ :=
            (ensureMany_eq_ok_iff hcounters).mp hresult
          have hkeeps := ensureLoop_keeps htables hloop
          exact hcommitted tables hkeeps.1 hkeeps.2
  | claimMany now timestamp captureIds leaseMillis =>
      rw [step, run, claimMany_eq hcounters]
      have hkeeps := claimLoop_keeps htables now timestamp leaseMillis [] captureIds
      exact hcommitted _ hkeeps.1 hkeeps.2
  | finishMany now timestamp updates =>
      cases hrun : (finishMany now timestamp updates).run ledger with
      | error error => exact hfailed error hrun trivial
      | ok next =>
          rw [step_of_ok hrun]
          obtain ⟨tables, hloop, rfl⟩ := (finishMany_eq_ok_iff hcounters).mp hrun
          have hkeeps := finishLoop_keeps htables hloop
          exact hcommitted tables hkeeps.1 hkeeps.2
  | requeueFailed now captureIds reason =>
      by_cases hempty : captureIds = []
      · subst hempty
        have hrun : (requeueFailed now [] reason).run ledger = .ok ledger := rfl
        rw [step_of_ok hrun]
        exact ⟨h, fun hexact => ⟨fun _ => by simp [KeepsAttempts, FailedWithoutAttempts],
          fun _ => hexact⟩⟩
      · rw [step, run, requeueFailed_eq hcounters now reason hempty]
        obtain ⟨hconsistent, hsame, _, hiff⟩ :=
          requeueLoop_spec now reason captureIds htables []
        refine ⟨commit_consistent hconsistent, fun hledger => ?_⟩
        have hexact := hledger counters hcounters
        change DeliveryLedger.AttemptsExact (ledger.commit _) ↔ _
        rw [commit_attemptsExact]
        unfold DeliveryTables.AttemptsExact at hexact ⊢
        rw [hsame, hexact, KeepsAttempts]
        exact eq_comm.trans hiff
  | reclaimExpiredInflight now limit =>
      by_cases hzero : limit = 0
      · subst hzero
        have hrun : (reclaimExpiredInflight now 0).run ledger = .ok ledger := rfl
        rw [step_of_ok hrun]
        exact ⟨h, fun hexact => ⟨fun _ => trivial, fun _ => hexact⟩⟩
      · obtain ⟨finish, hreclaim, hreleased⟩ :=
          reclaimExpiredInflight_eq hcounters now hzero htables
        rw [step, run, hreclaim]
        exact hcommitted finish (hreleased.keeps.consistent htables)
          (hreleased.keeps.attempts htables)
  | openLedger seed =>
      cases hrun : (openLedger seed).run ledger with
      | error error => exact hfailed error hrun trivial
      | ok next =>
          rw [step_of_ok hrun]
          obtain ⟨hconsistent, hexact⟩ := openLedger_keeps h hrun
          exact ⟨hconsistent, fun hledger => ⟨fun _ => trivial, fun _ => hexact hledger⟩⟩

theorem step_consistent (ledger : DeliveryLedger) (op : LedgerOp) (h : ledger.Consistent) :
    (step ledger op).Consistent := (step_spec op h).1

/-- From the first open on, the representation invariant holds in every state of
a run exactly when no requeue of the run loses attempts. -/
theorem repInv_always_iff {seed : Except String (Option IngestQualitySeed)}
    {start : DeliveryLedger} (hopen : created.openLedger seed = .ok start)
    (trace : List LedgerOp) :
    Machine.Always step RepInv start trace ↔ Machine.Along step KeepsAttempts start trace := by
  obtain ⟨hconsistent, hexact⟩ := openLedger_created hopen
  refine Machine.always_iff_along step_consistent ?_ hconsistent
    (hconsistent.repInv_iff.mpr hexact) trace
  intro ledger op h hrep
  obtain ⟨hnext, hiff⟩ := step_spec op h
  exact hnext.repInv_iff.trans (hiff (h.repInv_iff.mp hrep))

namespace RequeueDrift

def locator : CaptureLocator := ⟨"c", "h", 1, 0, 12, none, none⟩

def rejection : DeliveryUpdate :=
  ⟨"c", .failed, some "invalid", none, DeliveryState.failed_settled⟩

/-- One delivery that is claimed, rejected and requeued by an operator. -/
def trace : List LedgerOp :=
  [ensureMany [locator], claimMany 5 "t" ["c"] 1000, finishMany 6 "t" [rejection],
    requeueFailed 7 ["c"] "operator"]

end RequeueDrift

open RequeueDrift in
theorem repInv_not_always :
    ¬ ∀ (seed : Except String (Option IngestQualitySeed)) (start : DeliveryLedger),
      created.openLedger seed = .ok start →
        ∀ trace : List LedgerOp, Machine.Always step RepInv start trace := by
  intro hclaim
  have hrep := (hclaim (.ok none) fresh openLedger_fresh trace).run
  -- the counter keeps the attempt that the requeued row has forgotten
  have hdrift : (Machine.run step fresh trace).metadata.deliveryCounters ≠
      some (deliveryCountersFromTable (Machine.run step fresh trace).deliveries) := by
    decide
  exact hdrift hrep.counters

open RequeueDrift in
theorem repInv_always_reclaimed :
    Machine.Always step RepInv fresh
      [ensureMany [locator], claimMany 5 "t" ["c"] 1000, reclaimExpiredInflight 9000 10] :=
  (repInv_always_iff openLedger_fresh _).mpr ⟨trivial, trivial, trivial, trivial⟩

end LedgerOp

end ChipTrace
