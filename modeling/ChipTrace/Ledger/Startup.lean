/-
The two ways of opening a delivery ledger: the fast path, which trusts the stored
counters, against the full rebuild.  They agree exactly while the attempts counter
is exact.
-/
import ChipTrace.Ledger.Representation

namespace ChipTrace

open DeliveryTables DeliveryLedger

section Startup

/-- A row without its diagnostic text. -/
def undiagnosed (record : DeliveryRecord) : DeliveryRecord := { record with lastError := none }

/-- Two startups leave the same rows but for diagnostic texts, the same indexes and the same
counters. -/
structure SameStartup (fast full : DeliveryLedger) : Prop where
  deliveries : ∀ id, (fast.deliveries.get? id).map undiagnosed =
    (full.deliveries.get? id).map undiagnosed
  pending : fast.pendingDeliveries = full.pendingDeliveries
  inflight : fast.inflightDeliveries = full.inflightDeliveries
  counters : fast.metadata.deliveryCounters = full.metadata.deliveryCounters

/-- Wherever an opening takes the fast path it does what the rebuild would do. -/
def FastRefines (ledger : DeliveryLedger) : Prop :=
  ∀ seed migrated fast, ledger.openMeta seed = .ok migrated →
    migrated.fastStartup = .ok (some fast) → SameStartup fast migrated.rebuild

variable {ledger : DeliveryLedger} {counters : DeliveryCounters} {tables : DeliveryTables}

/-- The fast path is open to every consistent ledger: it releases what the inflight index lists. -/
theorem fastStartup_eq (hcounters : ledger.metadata.deliveryCounters = some counters)
    (h : (ledger.tablesWith counters).Consistent) :
    ∃ tables, ledger.fastStartup = .ok (some (ledger.commit tables)) ∧
      ReleasedRows leaseRecoveredError (ledger.tablesWith counters)
        ledger.inflightDeliveries.entries tables := by
  have hpending : counters.pending = ledger.pendingDeliveries.len := by
    refine (h.stateCount .pending).trans (Eq.trans ?_ h.pendingIndex.len.symm)
    congr 1
    funext id record
    cases hstate : record.state <;> simp [stateWeight, pendingKey, hstate]
  have hinflight : counters.inflight = ledger.inflightDeliveries.len := by
    refine (h.stateCount .inflight).trans (Eq.trans ?_ h.inflightIndex.len.symm)
    congr 1
    funext id record
    cases hstate : record.state <;> simp [stateWeight, inflightKey, hstate]
  have htotal : counters.total = ledger.deliveries.len := h.total
  have hvalid : ledger.indexedInflightValid = true := by
    apply List.all_eq_true.mpr
    intro row hrow
    obtain ⟨record, hget, hstate, hkey⟩ :=
      inflight_entry h ((ledger.inflightDeliveries.mem_entries row.1 row.2).mp hrow)
    have hget' : ledger.deliveries.get? row.2 = some record := hget
    have hid : record.captureId = row.2 := h.rowKeys row.2 record hget
    rw [hget', hkey, deliveryIndexDue_key]
    simp [hstate, hid]
  rw [fastStartup, hcounters]
  dsimp only
  rw [if_neg (by rw [htotal, hpending, hinflight]; simp)]
  split_ifs with hnone hinvalid
  · have hentries : ledger.inflightDeliveries.entries = [] :=
      List.length_eq_zero_iff.mp (hinflight.symm.trans hnone)
    have hsame : ledger.commit (ledger.tablesWith counters) = ledger := by
      rw [commit, tablesWith, ← hcounters]
    refine ⟨ledger.tablesWith counters, by rw [hsame], ?_⟩
    rw [hentries]
    exact ReleasedRows.nil _
  · rw [hvalid] at hinvalid
    cases hinvalid
  · obtain ⟨finish, hfinish, hreleased⟩ := recoverLoop_released h
      (Listed.of_entries (List.Sublist.refl ledger.inflightDeliveries.entries))
    refine ⟨finish, ?_, hreleased⟩
    have hloop : ledger.inflightDeliveries.entries.foldlM recoverInflightRow
        ⟨ledger.deliveries, ledger.pendingDeliveries, ledger.inflightDeliveries, counters⟩ =
          .ok finish := hfinish
    rw [hloop]
    rfl

/-- What the fast path leaves of a row is what the rebuild leaves, but for the diagnostic text. -/
theorem undiagnosed_released (h : (ledger.tablesWith counters).Consistent)
    (hreleased : ReleasedRows leaseRecoveredError (ledger.tablesWith counters)
      ledger.inflightDeliveries.entries tables) (id : String) :
    (tables.deliveries.get? id).map undiagnosed =
      (ledger.rebuild.deliveries.get? id).map undiagnosed := by
  have hrebuilt : ledger.rebuild.deliveries.get? id =
      (ledger.deliveries.get? id).map rebuiltRecord := get?_rebuilt ledger.deliveries id
  rw [hrebuilt, hreleased.get? id]
  change (if _ then (ledger.deliveries.get? id).map _ else ledger.deliveries.get? id).map _ = _
  cases hget : ledger.deliveries.get? id with
  | none => simp
  | some record =>
      by_cases hstate : record.state = .inflight
      · have hlisted : id ∈ ledger.inflightDeliveries.entries.map Prod.snd := by
          have hindex := (h.inflightIndex (deliveryIndexKey record.leaseUntilUnixMs id) id).mpr
            ⟨record, hget, by rw [inflightKey, if_pos hstate]⟩
          exact List.mem_map.mpr ⟨_, (ledger.inflightDeliveries.mem_entries _ _).mpr hindex, rfl⟩
        rw [if_pos hlisted]
        simp [undiagnosed, releasedRecord, rebuiltRecord, hstate]
      · have hunlisted : id ∉ ledger.inflightDeliveries.entries.map Prod.snd := by
          intro hlisted
          obtain ⟨row, hrow, rfl⟩ := List.mem_map.mp hlisted
          obtain ⟨other, hother, hinflight, _⟩ :=
            inflight_entry h ((ledger.inflightDeliveries.mem_entries row.1 row.2).mp hrow)
          rw [show (ledger.tablesWith counters).deliveries.get? row.2 = some record from hget]
            at hother
          cases hother
          exact hstate hinflight
        rw [if_neg hunlisted]
        simp [rebuiltRecord, hstate]

/-- The fast path and the rebuild agree exactly when the attempts counter was exact. -/
theorem sameStartup_iff (h : (ledger.tablesWith counters).Consistent)
    (hreleased : ReleasedRows leaseRecoveredError (ledger.tablesWith counters)
      ledger.inflightDeliveries.entries tables) :
    SameStartup (ledger.commit tables) ledger.rebuild ↔
      (ledger.tablesWith counters).AttemptsExact := by
  have hrows := undiagnosed_released h hreleased
  have hfast := hreleased.keeps.consistent h
  obtain ⟨rebuilt, hrebuild, hfull, hexact⟩ := rebuild_consistent h.rowKeys
  rw [hrebuild] at hrows ⊢
  change ∀ id, (tables.deliveries.get? id).map undiagnosed =
    (rebuilt.deliveries.get? id).map undiagnosed at hrows
  have hattempts : rebuilt.counters.attempts =
      (ledger.tablesWith counters).deliveries.weigh attemptsWeight := by
    rw [hexact]
    refine @Table.weigh_congr _ _ _ _ _ rebuilt.deliveries
      (ledger.tablesWith counters).deliveries DeliveryRecord.attempts DeliveryRecord.attempts
      (fun id => ?_) fun _ attempts => attempts
    have hdeliveries : rebuilt.deliveries = ledger.rebuild.deliveries := by
      rw [hrebuild]
      rfl
    have hget : ledger.rebuild.deliveries.get? id =
        (ledger.deliveries.get? id).map rebuiltRecord := get?_rebuilt ledger.deliveries id
    rw [hdeliveries, hget, Option.map_map]
    congr 1
    funext record
    rw [Function.comp_apply, rebuiltRecord]
    split_ifs <;> rfl
  constructor
  · intro hsame
    have hcounters := Option.some.inj hsame.counters
    have hkept := hreleased.attempts
    rw [hcounters, hattempts] at hkept
    exact hkept.symm
  · intro hexact'
    refine ⟨hrows, ?_, ?_, ?_⟩
    · have hindex : IndexOf pendingKey rebuilt.deliveries tables.pending :=
        @IndexOf.congr _ _ _ _ _ _ _ _ _ _ _ pendingKey hfast.pendingIndex hrows fun _ _ => rfl
      exact hindex.unique hfull.pendingIndex
    · have hindex : IndexOf inflightKey rebuilt.deliveries tables.inflight :=
        @IndexOf.congr _ _ _ _ _ _ _ _ _ _ _ inflightKey hfast.inflightIndex hrows fun _ _ => rfl
      exact hindex.unique hfull.inflightIndex
    · refine congrArg some (DeliveryCounters.ext_ofState ?_ ?_ fun state => ?_)
      · rw [hfast.total, hfull.total, Table.len_eq_weigh, Table.len_eq_weigh]
        exact Table.weigh_congr hrows fun _ _ => 1
      · rw [hattempts, hreleased.attempts]
        exact hexact'
      · rw [hfast.stateCount, hfull.stateCount]
        exact Table.weigh_congr hrows (stateWeight state)

end Startup

section Runs

/-- A ledger whose schema and quality history are in place. -/
structure Migrated (ledger : DeliveryLedger) : Prop where
  schemaVersion : ledger.metadata.schemaVersion = some deliverySchemaVersion
  quality : ledger.metadata.ingestQualityCounters.isSome

variable {ledger start : DeliveryLedger}

theorem Migrated.commit (h : Migrated ledger) (tables : DeliveryTables) :
    Migrated (ledger.commit tables) := ⟨h.schemaVersion, h.quality⟩

theorem openMeta_migrated (h : Migrated ledger)
    (seed : Except String (Option IngestQualitySeed)) : ledger.openMeta seed = .ok ledger := by
  obtain ⟨quality, hquality⟩ := Option.isSome_iff_exists.mp h.quality
  rw [openMeta, checkSchema, h.schemaVersion]
  dsimp only
  rw [if_neg (not_not.mpr rfl), Except.ok_bind, hquality]
  dsimp only
  rw [← h.schemaVersion, ← hquality]
  rfl

/-- On an opened ledger the fast path refines the rebuild exactly while the attempts are exact. -/
theorem fastRefines_iff (h : ledger.Consistent) (hmigrated : Migrated ledger) :
    FastRefines ledger ↔ ledger.AttemptsExact := by
  obtain ⟨counters, hcounters, htables⟩ := h
  obtain ⟨tables, hfast, hreleased⟩ := fastStartup_eq hcounters htables
  have hsame := sameStartup_iff htables hreleased
  constructor
  · intro hrefines counters' hcounters'
    rw [hcounters] at hcounters'
    cases hcounters'
    exact hsame.mp (hrefines (.ok none) ledger _ (openMeta_migrated hmigrated _) hfast)
  · intro hexact seed migrated fast hopen hstarted
    rw [openMeta_migrated hmigrated] at hopen
    cases hopen
    rw [hfast] at hstarted
    cases hstarted
    exact hsame.mpr (hexact counters hcounters)

theorem openLedger_migrated (hmigrated : Migrated ledger) (h : ledger.Consistent)
    {seed : Except String (Option IngestQualitySeed)} {next : DeliveryLedger}
    (hok : ledger.openLedger seed = .ok next) : Migrated next := by
  obtain ⟨counters, hcounters, htables⟩ := h
  obtain ⟨tables, hfast, _⟩ := fastStartup_eq hcounters htables
  rw [openLedger, openMeta_migrated hmigrated, Except.ok_bind, hfast, Except.ok_bind] at hok
  cases hok
  exact hmigrated.commit tables

theorem created_migrated {seed : Except String (Option IngestQualitySeed)}
    (hopen : created.openLedger seed = .ok start) : Migrated start := by
  obtain ⟨migrated, hmeta, hok⟩ := Except.bind_eq_ok_iff.mp hopen
  obtain ⟨version, hversion, hmeta⟩ := Except.bind_eq_ok_iff.mp hmeta
  cases hversion
  obtain ⟨qualitySeed, _, hmeta⟩ := Except.bind_eq_ok_iff.mp hmeta
  split_ifs at hmeta
  obtain ⟨quality, _, hmeta⟩ := Except.bind_eq_ok_iff.mp hmeta
  cases hmeta
  cases hok
  exact ⟨rfl, rfl⟩

namespace LedgerOp

theorem step_migrated (op : LedgerOp) (h : ledger.Consistent) (hmigrated : Migrated ledger) :
    Migrated (step ledger op) := by
  obtain ⟨counters, hcounters, htables⟩ := id h
  cases hrun : op.run ledger with
  | error error => rwa [step_of_error hrun]
  | ok next =>
      rw [step_of_ok hrun]
      cases op with
      | ensureMany locators =>
          obtain ⟨result, hresult, rfl⟩ := Except.map_eq_ok_iff.mp hrun
          obtain ⟨work, _, rfl⟩ := (ensureMany_eq_ok_iff hcounters).mp hresult
          exact hmigrated.commit _
      | claimMany now timestamp captureIds leaseMillis =>
          rw [run, claimMany_eq hcounters] at hrun
          cases hrun
          exact hmigrated.commit _
      | finishMany now timestamp updates =>
          obtain ⟨tables, _, rfl⟩ := (finishMany_eq_ok_iff hcounters).mp hrun
          exact hmigrated.commit _
      | requeueFailed now captureIds reason =>
          by_cases hempty : captureIds = []
          · subst hempty
            cases hrun
            exact hmigrated
          · rw [run, requeueFailed_eq hcounters now reason hempty] at hrun
            cases hrun
            exact hmigrated.commit _
      | reclaimExpiredInflight now limit =>
          by_cases hzero : limit = 0
          · subst hzero
            cases hrun
            exact hmigrated
          · obtain ⟨finish, hreclaim, _⟩ :=
              reclaimExpiredInflight_eq hcounters now hzero htables
            rw [run, hreclaim] at hrun
            cases hrun
            exact hmigrated.commit _
      | openLedger seed => exact openLedger_migrated hmigrated h hrun

/-- From the first open on, the fast path of an opening does in every state of a run what the
full rebuild would do, exactly when no requeue of the run loses attempts. -/
theorem fastRefines_always_iff {seed : Except String (Option IngestQualitySeed)}
    (hopen : created.openLedger seed = .ok start) (trace : List LedgerOp) :
    Machine.Always step FastRefines start trace ↔ Machine.Along step KeepsAttempts start trace := by
  obtain ⟨hconsistent, hexact⟩ := openLedger_created hopen
  have hmigrated := created_migrated hopen
  refine @Machine.always_iff_along _ _ step
    (fun ledger => ledger.Consistent ∧ Migrated ledger) _ _ ?_ ?_ _ ⟨hconsistent, hmigrated⟩
    ((fastRefines_iff hconsistent hmigrated).mpr hexact) trace
  · intro ledger op h
    exact ⟨step_consistent ledger op h.1, step_migrated op h.1 h.2⟩
  · intro ledger op h hrefines
    obtain ⟨hnext, hiff⟩ := step_spec op h.1
    rw [fastRefines_iff hnext (step_migrated op h.1 h.2)]
    exact hiff ((fastRefines_iff h.1 h.2).mp hrefines)

open RequeueDrift in
theorem fastRefines_always_reclaimed :
    Machine.Always step FastRefines fresh
      [ensureMany [locator], claimMany 5 "t" ["c"] 1000, openLedger (.ok none)] :=
  (fastRefines_always_iff openLedger_fresh _).mpr ⟨trivial, trivial, trivial, trivial⟩

open RequeueDrift in
/-- The fast path keeps an attempts counter that the rebuild would lower. -/
theorem not_fastRefines_always :
    ¬ ∀ (seed : Except String (Option IngestQualitySeed)) (start : DeliveryLedger),
      created.openLedger seed = .ok start →
        ∀ trace : List LedgerOp, Machine.Always step FastRefines start trace := by
  intro hclaim
  have hrefines := (hclaim (.ok none) fresh openLedger_fresh trace).run
  have hstarted : (Machine.run step fresh trace).fastStartup =
      .ok (some (Machine.run step fresh trace)) := by decide
  have hmeta : (Machine.run step fresh trace).openMeta (.ok none) =
      .ok (Machine.run step fresh trace) := by decide
  have hcounters := (hrefines _ _ _ hmeta hstarted).counters
  exact absurd hcounters (by decide)

end LedgerOp

end Runs

end ChipTrace
