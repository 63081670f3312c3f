/-
Workers holding leases over ledger rows.  A grant remembers whether its lease
was reclaimed and whether the row was then claimed again; a finish consumes the
grants it reports on, whatever happened to them in the meantime.
-/
import ChipTrace.Ledger.Representation

namespace ChipTrace

open DeliveryTables DeliveryLedger

/-- What became of the lease behind a grant. -/
inductive LeasePhase where
  | held
  | expired
  | reassigned
  deriving DecidableEq, Repr

structure Grant where
  captureId : String
  phase : LeasePhase
  deriving DecidableEq, Repr

namespace Grant

/-- The lease of a reclaimed row is over. -/
def expire (captureIds : List String) (grant : Grant) : Grant :=
  if grant.captureId ∈ captureIds ∧ grant.phase = .held then
    { grant with phase := .expired }
  else grant

/-- A claim takes over the rows whose lease is over. -/
def reassign (captureIds : List String) (grant : Grant) : Grant :=
  if grant.captureId ∈ captureIds ∧ grant.phase = .expired then
    { grant with phase := .reassigned }
  else grant

@[simp] theorem expire_captureId (captureIds : List String) (grant : Grant) :
    (grant.expire captureIds).captureId = grant.captureId := by
  unfold expire
  split_ifs <;> rfl

@[simp] theorem reassign_captureId (captureIds : List String) (grant : Grant) :
    (grant.reassign captureIds).captureId = grant.captureId := by
  unfold reassign
  split_ifs <;> rfl

end Grant

/-- A worker's report on one of its grants. -/
structure Verdict where
  grant : Grant
  update : DeliveryUpdate
  sameRecord : update.captureId = grant.captureId

structure LeaseSystem where
  ledger : DeliveryLedger
  grants : List Grant

inductive LeaseAction where
  | ensure (locators : List CaptureLocator)
  | requeue (now : UInt64) (captureIds : List String) (reason : String)
  | reclaim (now : UInt64) (limit : Nat)
  | claim (now : UInt64) (timestamp : String) (captureIds : List String) (leaseMillis : Nat)
  | finish (now : UInt64) (timestamp : String) (verdicts : List Verdict)
  | restart (seed : Except String (Option IngestQualitySeed))

namespace LeaseSystem

/-- One delivery round reports once on each of the records it claimed. -/
def Admits (system : LeaseSystem) (verdicts : List Verdict) : Prop :=
  (verdicts.map fun verdict => verdict.update.captureId).Nodup ∧
    ∀ verdict ∈ verdicts, verdict.grant ∈ system.grants

instance (system : LeaseSystem) (verdicts : List Verdict) :
    Decidable (system.Admits verdicts) :=
  inferInstanceAs (Decidable (_ ∧ _))

def updates (verdicts : List Verdict) : List DeliveryUpdate :=
  verdicts.map Verdict.update

def step (system : LeaseSystem) : LeaseAction → LeaseSystem
  | .ensure locators =>
      { system with ledger := LedgerOp.step system.ledger (.ensureMany locators) }
  | .requeue now captureIds reason =>
      { system with ledger := LedgerOp.step system.ledger (.requeueFailed now captureIds reason) }
  | .reclaim now limit =>
      match system.ledger.reclaimExpiredInflight now limit with
      | .ok (reclaimed, ledger) => ⟨ledger, system.grants.map (Grant.expire reclaimed)⟩
      | .error _ => system
  | .claim now timestamp captureIds leaseMillis =>
      match system.ledger.claimMany now timestamp captureIds leaseMillis with
      | .ok (claimed, ledger) =>
          let ids := claimed.map DeliveryRecord.captureId
          ⟨ledger, system.grants.map (Grant.reassign ids) ++ ids.map fun id => ⟨id, .held⟩⟩
      | .error _ => system
  | .finish now timestamp verdicts =>
      if system.Admits verdicts then
        match system.ledger.finishMany now timestamp (updates verdicts) with
        | .ok ledger =>
            ⟨ledger, system.grants.diff (verdicts.map Verdict.grant)⟩
        | .error _ => system
      else system
  -- the workers of the old process are gone
  | .restart seed => ⟨LedgerOp.step system.ledger (.openLedger seed), []⟩

/-- Every delivered record of the first ledger is delivered in the second. -/
def KeepsDelivered (before after : Table String DeliveryRecord) : Prop :=
  ∀ id record, before.get? id = some record → record.state = .delivered →
    ∃ record', after.get? id = some record' ∧ record'.state = .delivered

/-- The loop body of a finish leaves the record's state, the counters and the
indexes as they are. -/
def Untouched (tables tables' : DeliveryTables) (captureId : String) : Prop :=
  (tables'.deliveries.get? captureId).map DeliveryRecord.state =
      (tables.deliveries.get? captureId).map DeliveryRecord.state ∧
    tables'.counters = tables.counters ∧ tables'.pending = tables.pending ∧
    tables'.inflight = tables.inflight

/-- Each report under a reassigned lease leaves the tables untouched, on top of
the reports before it. -/
def Fenced (now : UInt64) (timestamp : String) : DeliveryTables → List Verdict → Prop
  | _, [] => True
  | tables, verdict :: rest =>
      ∀ tables', finishOne now timestamp tables verdict.update = .ok tables' →
        (verdict.grant.phase = .reassigned →
          Untouched tables tables' verdict.update.captureId) ∧
        Fenced now timestamp tables' rest

def FencedStep (system : LeaseSystem) : LeaseAction → Prop
  | .finish now timestamp verdicts =>
      system.Admits verdicts → ∀ counters,
        system.ledger.metadata.deliveryCounters = some counters →
          Fenced now timestamp (system.ledger.tablesWith counters) verdicts
  | _ => True

/-- The step does not undo a delivery, and no report under a reassigned lease
takes effect. -/
structure LeaseSafe (system : LeaseSystem) (action : LeaseAction) : Prop where
  final : KeepsDelivered system.ledger.deliveries (system.step action).ledger.deliveries
  fenced : system.FencedStep action

/-- A report under a reassigned lease repeats what its record says. -/
def Repeats (now : UInt64) (timestamp : String) (verdict : Verdict)
    (record : DeliveryRecord) : Prop :=
  verdict.grant.phase = .reassigned →
    verdict.update.state = record.state ∧ (record.state = .pending →
      (finishedRecord now timestamp verdict.update record).nextAttemptUnixMs =
        record.nextAttemptUnixMs)

/-- A report that meets the guard `finish_many` lacks: it does not take back a
delivery, and under a reassigned lease it repeats what the record says. -/
def Guarded (now : UInt64) (timestamp : String) (verdict : Verdict)
    (record : DeliveryRecord) : Prop :=
  (record.state = .delivered → verdict.update.state = .delivered) ∧
    Repeats now timestamp verdict record

def GuardedStep (system : LeaseSystem) : LeaseAction → Prop
  | .finish now timestamp verdicts =>
      system.Admits verdicts → ∀ verdict ∈ verdicts, ∀ record,
        system.ledger.deliveries.get? verdict.update.captureId = some record →
          Guarded now timestamp verdict record
  | _ => True

end LeaseSystem

open LeaseSystem

/-- Rows stay, and delivered rows stay delivered. -/
def Evolves (before after : Table String DeliveryRecord) : Prop :=
  ∀ id record, before.get? id = some record → ∃ record', after.get? id = some record' ∧
    (record.state = .delivered → record'.state = .delivered)

theorem Evolves.refl (deliveries : Table String DeliveryRecord) :
    Evolves deliveries deliveries := fun _ record hget => ⟨record, hget, id⟩

theorem Evolves.trans {first second third : Table String DeliveryRecord}
    (h : Evolves first second) (h' : Evolves second third) : Evolves first third := by
  intro id record hget
  obtain ⟨record', hget', hstate⟩ := h id record hget
  obtain ⟨record'', hget'', hstate'⟩ := h' id record' hget'
  exact ⟨record'', hget'', fun hdelivered => hstate' (hstate hdelivered)⟩

theorem Evolves.keepsDelivered {before after : Table String DeliveryRecord}
    (h : Evolves before after) : KeepsDelivered before after := by
  intro id record hget hdelivered
  obtain ⟨record', hget', hstate⟩ := h id record hget
  exact ⟨record', hget', hstate hdelivered⟩

theorem DeliveryTables.Writes.evolves {tables tables' : DeliveryTables} {id : String}
    {record : DeliveryRecord} (hwrites : Writes tables tables' id record)
    (hdelivered : ∀ old, tables.deliveries.get? id = some old → old.state = .delivered →
      record.state = .delivered) : Evolves tables.deliveries tables'.deliveries := by
  intro id' old hget
  rw [hwrites.get?]
  split_ifs with hid
  · subst hid
    exact ⟨record, rfl, hdelivered old hget⟩
  · exact ⟨old, hget, fun h => h⟩

/-- A write over a row in another state cannot touch a delivered one. -/
theorem DeliveryTables.Writes.evolves_of_state {tables tables' : DeliveryTables}
    {id : String} {record old : DeliveryRecord} (hwrites : Writes tables tables' id record)
    (hget : tables.deliveries.get? id = some old) (hstate : old.state ≠ .delivered) :
    Evolves tables.deliveries tables'.deliveries := by
  refine hwrites.evolves fun old' hget' hdelivered => ?_
  rw [hget, Option.some.injEq] at hget'
  exact absurd (hget' ▸ hdelivered) hstate

section Loops

variable {tables : DeliveryTables}

theorem ensureLoop_evolves (hconsistent : tables.Consistent) {inserted : Nat}
    {locators : List CaptureLocator} {finish : DeliveryTables × Nat}
    (hok : locators.foldlM ensureOne (tables, inserted) = .ok finish) :
    Evolves tables.deliveries finish.1.deliveries := by
  have h := foldlM_ok_preserves
    (fun work : DeliveryTables × Nat =>
      work.1.Consistent ∧ Evolves tables.deliveries work.1.deliveries)
    locators ?_ (tables, inserted) ⟨hconsistent, Evolves.refl _⟩ hok
  · exact h.2
  rintro locator - ⟨work, count⟩ ⟨next, count'⟩ ⟨hwork, hevolves⟩ hstep
  refine ⟨(ensureOne_keeps hwork hstep).consistent hwork, hevolves.trans ?_⟩
  rcases ensureOne_cases hwork hstep with
    ⟨rfl, _⟩ | ⟨_, _, existing, hget, _, _, hwrites⟩ | ⟨_, _, hget, hwrites⟩
  · exact Evolves.refl _
  · refine hwrites.evolves fun old hold hdelivered => ?_
    rw [hget, Option.some.injEq] at hold
    exact hold ▸ hdelivered
  · refine hwrites.evolves fun old hold _ => ?_
    rw [hget] at hold
    cases hold

theorem claimLoop_evolves (hconsistent : tables.Consistent) (now : UInt64)
    (timestamp : String) (leaseMillis : Nat) (captureIds : List String)
    (claimed : List DeliveryRecord) :
    Evolves tables.deliveries (captureIds.foldl (claimOne now timestamp leaseMillis)
      (tables, claimed)).1.deliveries := by
  have h := foldl_preserves
    (claimOne now timestamp leaseMillis)
    (fun work : DeliveryTables × List DeliveryRecord =>
      work.1.Consistent ∧ Evolves tables.deliveries work.1.deliveries)
    captureIds ?_ (tables, claimed) ⟨hconsistent, Evolves.refl _⟩
  · exact h.2
  rintro captureId - ⟨work, output⟩ ⟨hwork, hevolves⟩
  obtain ⟨⟨next, output'⟩, hrun⟩ : ∃ result,
    claimOne now timestamp leaseMillis (work, output) captureId = result := ⟨_, rfl⟩
  rw [hrun]
  refine ⟨(claimOne_keeps hwork hrun).consistent hwork, hevolves.trans ?_⟩
  rcases claimOne_cases hwork hrun with
    ⟨rfl, _⟩ | ⟨record, hget, hpending, _, _, _, hwrites⟩
  · exact Evolves.refl _
  · exact hwrites.evolves_of_state hget (by rw [hpending]; decide)

theorem requeueLoop_evolves (hconsistent : tables.Consistent) (now : UInt64)
    (reason : String) (captureIds : List String) (requeued : List String) :
    Evolves tables.deliveries
      (captureIds.foldl (requeueOne now reason) (tables, requeued)).1.deliveries := by
  have h := foldl_preserves
    (requeueOne now reason)
    (fun work : DeliveryTables × List String =>
      work.1.Consistent ∧ Evolves tables.deliveries work.1.deliveries)
    captureIds ?_ (tables, requeued) ⟨hconsistent, Evolves.refl _⟩
  · exact h.2
  rintro captureId - ⟨work, output⟩ ⟨hwork, hevolves⟩
  obtain ⟨⟨next, output'⟩, hrun⟩ : ∃ result,
    requeueOne now reason (work, output) captureId = result := ⟨_, rfl⟩
  rw [hrun]
  rcases requeueOne_cases hwork hrun with
    ⟨rfl, _⟩ | ⟨record, hget, hfailed, _, _, hwrites⟩
  · exact ⟨hwork, hevolves⟩
  · exact ⟨hwrites.consistent_of_update hwork hget rfl,
      hevolves.trans (hwrites.evolves_of_state hget (by rw [hfailed]; decide))⟩

theorem ReleasedRows.evolves {reason : String} {finish : DeliveryTables}
    {rows : List (String × String)} (h : ReleasedRows reason tables rows finish) :
    Evolves tables.deliveries finish.deliveries := by
  induction h with
  | nil tables => exact Evolves.refl _
  | cons hget hstate _ _ hwrites _ ih =>
      exact (hwrites.evolves_of_state hget (by rw [hstate]; decide)).trans ih

/-- A finish keeps every row. -/
theorem finishLoop_rows {now : UInt64} {timestamp : String}
    (hconsistent : tables.Consistent) {updates : List DeliveryUpdate}
    {finish : DeliveryTables}
    (hok : updates.foldlM (finishOne now timestamp) tables = .ok finish) (id : String)
    (hid : (tables.deliveries.get? id).isSome) : (finish.deliveries.get? id).isSome := by
  have h := foldlM_ok_preserves
    (fun work : DeliveryTables =>
      work.Consistent ∧ (work.deliveries.get? id).isSome)
    updates ?_ tables ⟨hconsistent, hid⟩ hok
  · exact h.2
  rintro update - work next ⟨hwork, hrow⟩ hstep
  refine ⟨(finishOne_keeps hwork hstep).consistent hwork, ?_⟩
  obtain ⟨record, hget, _, hwrites⟩ := finishOne_cases hwork hstep
  rw [hwrites.get?]
  split_ifs
  · rfl
  · exact hrow

/-- A finish of existing rows commits. -/
theorem finishLoop_ok (now : UInt64) (timestamp : String) (hconsistent : tables.Consistent)
    (updates : List DeliveryUpdate)
    (hrows : ∀ update ∈ updates, (tables.deliveries.get? update.captureId).isSome) :
    ∃ finish, updates.foldlM (finishOne now timestamp) tables = .ok finish := by
  induction updates generalizing tables with
  | nil => exact ⟨tables, rfl⟩
  | cons update rest ih =>
      obtain ⟨record, hget⟩ := Option.isSome_iff_exists.mp (hrows update List.mem_cons_self)
      obtain ⟨mid, hmid⟩ : ∃ mid, finishOne now timestamp tables update = .ok mid := by
        rw [finishOne, hget]
        exact ⟨_, rfl⟩
      have hone : [update].foldlM (finishOne now timestamp) tables = .ok mid := by
        rw [List.foldlM_cons, hmid]
        rfl
      obtain ⟨finish, hfinish⟩ := ih ((finishOne_keeps hconsistent hmid).consistent hconsistent)
        fun other hother => finishLoop_rows hconsistent hone other.captureId
          (hrows other (List.mem_cons_of_mem _ hother))
      exact ⟨finish, by rw [List.foldlM_cons, hmid, Except.ok_bind, hfinish]⟩

/-- Where a finish leaves each row: rewritten by its own report, or alone. -/
theorem finishLoop_get? {now : UInt64} {timestamp : String} (hconsistent : tables.Consistent)
    {updates : List DeliveryUpdate} {finish : DeliveryTables}
    (hok : updates.foldlM (finishOne now timestamp) tables = .ok finish)
    (hdistinct : (updates.map DeliveryUpdate.captureId).Nodup) :
    (∀ id, id ∉ updates.map DeliveryUpdate.captureId →
      finish.deliveries.get? id = tables.deliveries.get? id) ∧
    ∀ update ∈ updates, finish.deliveries.get? update.captureId =
      (tables.deliveries.get? update.captureId).map (finishedRecord now timestamp update) := by
  induction updates generalizing tables with
  | nil =>
      rw [List.foldlM_nil, Except.pure_eq_ok_iff] at hok
      subst hok
      simp
  | cons head rest ih =>
      rw [List.foldlM_cons, Except.bind_eq_ok_iff] at hok
      obtain ⟨mid, hmid, hrest⟩ := hok
      obtain ⟨record, hget, _, hwrites⟩ := finishOne_cases hconsistent hmid
      rw [List.map_cons, List.nodup_cons] at hdistinct
      obtain ⟨hnew, hdistinct⟩ := hdistinct
      obtain ⟨hothers, hown⟩ :=
        ih ((finishOne_keeps hconsistent hmid).consistent hconsistent) hrest hdistinct
      refine ⟨?_, ?_⟩
      · intro id hid
        rw [List.map_cons, List.mem_cons, not_or] at hid
        rw [hothers id hid.2, hwrites.get?, if_neg hid.1]
      · intro update hupdate
        rcases List.mem_cons.mp hupdate with rfl | hupdate
        · rw [hothers _ hnew, hwrites.get?, if_pos rfl, hget, Option.map_some]
        · have hne : update.captureId ≠ head.captureId := by
            intro heq
            exact hnew (heq ▸ List.mem_map_of_mem hupdate)
          rw [hown update hupdate, hwrites.get?, if_neg hne]

/-- A report leaves the tables untouched exactly when it repeats the record's
state, and its due time where that is an index key. -/
theorem finishOne_untouched_iff {now : UInt64} {timestamp : String}
    {update : DeliveryUpdate} {tables' : DeliveryTables} {record : DeliveryRecord}
    (hconsistent : tables.Consistent)
    (hget : tables.deliveries.get? update.captureId = some record)
    (hok : finishOne now timestamp tables update = .ok tables') :
    Untouched tables tables' update.captureId ↔
      update.state = record.state ∧ (record.state = .pending →
        (finishedRecord now timestamp update record).nextAttemptUnixMs =
          record.nextAttemptUnixMs) := by
  obtain ⟨record', hget', hattempts, hwrites⟩ := finishOne_cases hconsistent hok
  rw [hget, Option.some.injEq] at hget'
  subst hget'
  have hstored : tables'.deliveries.get? update.captureId =
      some (finishedRecord now timestamp update record) := by
    rw [hwrites.get?, if_pos rfl]
  have hstate : (finishedRecord now timestamp update record).state = update.state := rfl
  have hnext : tables'.Consistent := hwrites.consistent_of_update hconsistent hget rfl
  constructor
  · rintro ⟨hsame, _, hpending, _⟩
    rw [hstored, hget, Option.map_some, Option.map_some, Option.some.injEq, hstate] at hsame
    refine ⟨hsame, fun hrecord => ?_⟩
    -- the new key of the row is listed, so it is also the old key
    have hnew : pendingKey update.captureId (finishedRecord now timestamp update record) =
        some (deliveryIndexKey
          (finishedRecord now timestamp update record).nextAttemptUnixMs
          update.captureId) := by
      rw [pendingKey, if_pos (hstate.trans (hsame.trans hrecord))]
    have hlisted := (hnext.pendingIndex _ _).mpr ⟨_, hstored, hnew⟩
    rw [hpending] at hlisted
    obtain ⟨old, hold, hkey⟩ := (hconsistent.pendingIndex _ _).mp hlisted
    rw [hget, Option.some.injEq] at hold
    subst hold
    rw [pendingKey, if_pos hrecord, Option.some.injEq] at hkey
    exact (deliveryIndexKey_injective hkey).1.symm
  · rintro ⟨hsame, hdue⟩
    refine ⟨by rw [hstored, hget, Option.map_some, Option.map_some, hstate, hsame],
      ?_, ?_, ?_⟩
    · apply DeliveryCounters.ext_ofState
      · have htotal := hwrites.total
        rw [hget] at htotal
        simpa using htotal
      · exact hattempts
      · intro state
        have hcount := hwrites.stateCount state
        rw [hget] at hcount
        simp only [Option.map_some, Option.getD_some, stateWeight, hstate, hsame] at hcount
        omega
    · rw [hwrites.pending]
      refine hconsistent.pendingIndex.write_same hget ?_
      unfold pendingKey
      rw [hstate, hsame]
      split_ifs with hrecord
      · rw [hdue hrecord]
      · rfl
    · rw [hwrites.inflight]
      refine hconsistent.inflightIndex.write_same hget ?_
      have hsettled := update.settles
      unfold inflightKey
      rw [hstate, hsame, if_neg (hsame ▸ hsettled), if_neg (hsame ▸ hsettled)]

/-- A finish is fenced exactly when its reports under reassigned leases repeat
their records. -/
theorem fenced_iff (now : UInt64) (timestamp : String) (hconsistent : tables.Consistent)
    {verdicts : List Verdict}
    (hdistinct : (verdicts.map fun verdict => verdict.update.captureId).Nodup)
    (hrows : ∀ verdict ∈ verdicts,
      (tables.deliveries.get? verdict.update.captureId).isSome) :
    Fenced now timestamp tables verdicts ↔ ∀ verdict ∈ verdicts, ∀ record,
      tables.deliveries.get? verdict.update.captureId = some record →
        Repeats now timestamp verdict record := by
  induction verdicts generalizing tables with
  | nil => simp [Fenced]
  | cons verdict rest ih =>
      obtain ⟨record, hget⟩ :=
        Option.isSome_iff_exists.mp (hrows verdict List.mem_cons_self)
      obtain ⟨mid, hmid⟩ : ∃ mid, finishOne now timestamp tables verdict.update = .ok mid := by
        rw [finishOne, hget]
        exact ⟨_, rfl⟩
      have hhead := finishOne_untouched_iff hconsistent hget hmid
      obtain ⟨record', hget', _, hwrites⟩ := finishOne_cases hconsistent hmid
      rw [List.map_cons, List.nodup_cons] at hdistinct
      have hsame : ∀ other ∈ rest, mid.deliveries.get? other.update.captureId =
          tables.deliveries.get? other.update.captureId := by
        intro other hother
        have hne : other.update.captureId ≠ verdict.update.captureId := by
          intro heq
          exact hdistinct.1 (List.mem_map.mpr ⟨other, hother, heq⟩)
        rw [hwrites.get?, if_neg hne]
      have hrest := ih (hwrites.consistent_of_update hconsistent hget' rfl) hdistinct.2
        fun other hother => by
          rw [hsame other hother]
          exact hrows other (List.mem_cons_of_mem _ hother)
      constructor
      · intro hfenced other hother record'' hget''
        obtain ⟨hverdict, htail⟩ := hfenced mid hmid
        rcases List.mem_cons.mp hother with rfl | hother
        · rw [hget, Option.some.injEq] at hget''
          exact hget'' ▸ fun hphase => hhead.mp (hverdict hphase)
        · exact hrest.mp htail other hother record'' ((hsame other hother).trans hget'')
      · intro hall mid' hmid'
        cases Except.ok.inj (hmid.symm.trans hmid')
        refine ⟨fun hphase => hhead.mpr (hall verdict List.mem_cons_self record hget hphase),
          hrest.mpr fun other hother record'' hget'' => ?_⟩
        exact hall other (List.mem_cons_of_mem _ hother) record''
          ((hsame other hother).symm.trans hget'')

end Loops

theorem rebuild_evolves (ledger : DeliveryLedger) :
    Evolves ledger.deliveries ledger.rebuild.deliveries := by
  intro id record hget
  refine ⟨rebuiltRecord record, ?_, ?_⟩
  · change (ledger.deliveries.keys.foldl rebuildRow ledger.deliveries).get? id = _
    rw [get?_rebuilt, hget, Option.map_some]
  · intro hdelivered
    rw [rebuiltRecord, if_neg (by rw [hdelivered]; decide)]
    exact hdelivered

theorem openLedger_evolves {ledger next : DeliveryLedger}
    {seed : Except String (Option IngestQualitySeed)} (h : ledger.Consistent)
    (hok : ledger.openLedger seed = .ok next) :
    Evolves ledger.deliveries next.deliveries := by
  obtain ⟨migrated, hmigrated, hok⟩ := Except.bind_eq_ok_iff.mp hok
  have hmid := openMeta_consistent hmigrated h
  rw [← (openMeta_spec hmigrated).1]
  obtain ⟨started, hstarted, hok⟩ := Except.bind_eq_ok_iff.mp hok
  cases started with
  | some started =>
      rw [Except.pure_eq_ok_iff] at hok
      subst hok
      rcases fastStartup_cases hmid hstarted with
        rfl | ⟨counters, tables, _, rfl, hreleased⟩
      · exact Evolves.refl _
      · exact hreleased.evolves
  | none =>
      rw [Except.pure_eq_ok_iff] at hok
      subst hok
      exact rebuild_evolves migrated

/-- Every operation but a finish keeps rows and deliveries. -/
theorem LedgerOp.step_evolves {ledger : DeliveryLedger} (h : ledger.Consistent)
    (op : LedgerOp) (hop : ∀ now timestamp updates, op ≠ .finishMany now timestamp updates) :
    Evolves ledger.deliveries (LedgerOp.step ledger op).deliveries := by
  obtain ⟨counters, hcounters, htables⟩ := id h
  cases op with
  | ensureMany locators =>
      cases hrun : (ensureMany locators).run ledger with
      | error error =>
          rw [step_of_error hrun]
          exact Evolves.refl _
      | ok next =>
          rw [step_of_ok hrun]
          obtain ⟨result, hresult, rfl⟩ := Except.map_eq_ok_iff.mp hrun
          obtain ⟨work, hloop, rfl⟩ := (ensureMany_eq_ok_iff hcounters).mp hresult
          exact ensureLoop_evolves htables hloop
  | claimMany now timestamp captureIds leaseMillis =>
      rw [step, run, claimMany_eq hcounters]
      exact claimLoop_evolves htables now timestamp leaseMillis captureIds []
  | finishMany now timestamp updates => exact absurd rfl (hop now timestamp updates)
  | requeueFailed now captureIds reason =>
      by_cases hempty : captureIds = []
      · subst hempty
        exact Evolves.refl _
      · rw [step, run, requeueFailed_eq hcounters now reason hempty]
        exact requeueLoop_evolves htables now reason captureIds []
  | reclaimExpiredInflight now limit =>
      by_cases hzero : limit = 0
      · subst hzero
        exact Evolves.refl _
      · obtain ⟨finish, hreclaim, hreleased⟩ :=
          reclaimExpiredInflight_eq hcounters now hzero htables
        rw [step, run, hreclaim]
        exact hreleased.evolves
  | openLedger seed =>
      cases hrun : (openLedger seed).run ledger with
      | error error =>
          rw [step_of_error hrun]
          exact Evolves.refl _
      | ok next =>
          rw [step_of_ok hrun]
          exact openLedger_evolves h hrun

/-- The records a claim hands out have rows. -/
theorem claimLoop_rows {tables : DeliveryTables} (hconsistent : tables.Consistent)
    (now : UInt64) (timestamp : String) (leaseMillis : Nat) (captureIds : List String) :
    ∀ record ∈ (captureIds.foldl (claimOne now timestamp leaseMillis) (tables, [])).2,
      ((captureIds.foldl (claimOne now timestamp leaseMillis)
        (tables, [])).1.deliveries.get? record.captureId).isSome := by
  have h := foldl_preserves
    (claimOne now timestamp leaseMillis)
    (fun work : DeliveryTables × List DeliveryRecord =>
      work.1.Consistent ∧ ∀ record ∈ work.2,
        (work.1.deliveries.get? record.captureId).isSome)
    captureIds ?_ (tables, []) ⟨hconsistent, by simp⟩
  · exact h.2
  rintro captureId - ⟨work, output⟩ ⟨hwork, hrows⟩
  obtain ⟨⟨next, output'⟩, hrun⟩ : ∃ result,
    claimOne now timestamp leaseMillis (work, output) captureId = result := ⟨_, rfl⟩
  rw [hrun]
  rcases claimOne_cases hwork hrun with
    ⟨rfl, rfl⟩ | ⟨record, hget, _, _, rfl, _, hwrites⟩
  · exact ⟨hwork, hrows⟩
  · refine ⟨hwrites.consistent_of_update hwork hget rfl, ?_⟩
    intro claimed hclaimed
    rw [hwrites.get?]
    split_ifs with hid
    · rfl
    · rcases List.mem_append.mp hclaimed with hold | hnew
      · exact hrows claimed hold
      · rw [List.mem_singleton] at hnew
        subst hnew
        exact absurd (hwork.rowKeys captureId record hget) hid

namespace LeaseSystem

/-- Reachable systems: consistent tables, and every grant names a row. -/
structure Sound (system : LeaseSystem) : Prop where
  consistent : system.ledger.Consistent
  rows : ∀ grant ∈ system.grants, (system.ledger.deliveries.get? grant.captureId).isSome

theorem Sound.rows_of_evolves {system : LeaseSystem} (h : system.Sound)
    {deliveries : Table String DeliveryRecord}
    (hevolves : Evolves system.ledger.deliveries deliveries) {grant : Grant}
    (hgrant : grant ∈ system.grants) : (deliveries.get? grant.captureId).isSome := by
  obtain ⟨record, hget⟩ := Option.isSome_iff_exists.mp (h.rows grant hgrant)
  obtain ⟨record', hget', _⟩ := hevolves _ record hget
  rw [hget']
  rfl

theorem Sound.verdict_rows {system : LeaseSystem} (h : system.Sound)
    {verdicts : List Verdict} (hadmits : system.Admits verdicts) :
    ∀ verdict ∈ verdicts,
      (system.ledger.deliveries.get? verdict.update.captureId).isSome := by
  intro verdict hverdict
  rw [verdict.sameRecord]
  exact h.rows _ (hadmits.2 verdict hverdict)

/-- An admitted finish commits, and its tables are known. -/
theorem Sound.finish_eq {system : LeaseSystem} (h : system.Sound) (now : UInt64)
    (timestamp : String) {verdicts : List Verdict} (hadmits : system.Admits verdicts)
    {counters : DeliveryCounters}
    (hcounters : system.ledger.metadata.deliveryCounters = some counters)
    (htables : (system.ledger.tablesWith counters).Consistent) :
    ∃ finish, (updates verdicts).foldlM (finishOne now timestamp)
        (system.ledger.tablesWith counters) = .ok finish ∧
      system.step (.finish now timestamp verdicts) =
        ⟨system.ledger.commit finish, system.grants.diff (verdicts.map Verdict.grant)⟩ := by
  obtain ⟨finish, hfinish⟩ := finishLoop_ok now timestamp htables
    (updates verdicts) (by
      intro update hupdate
      obtain ⟨verdict, hverdict, rfl⟩ := List.mem_map.mp hupdate
      exact h.verdict_rows hadmits verdict hverdict)
  have hrun := (finishMany_eq_ok_iff hcounters).mpr ⟨finish, hfinish, rfl⟩
  refine ⟨finish, hfinish, ?_⟩
  simp only [step, if_pos hadmits, hrun]

theorem step_sound (system : LeaseSystem) (action : LeaseAction) (h : system.Sound) :
    (system.step action).Sound := by
  obtain ⟨counters, hcounters, htables⟩ := id h.consistent
  cases action with
  | ensure locators =>
      have hevolves := LedgerOp.step_evolves h.consistent (.ensureMany locators) (by simp)
      exact ⟨LedgerOp.step_consistent _ _ h.consistent,
        fun grant hgrant => h.rows_of_evolves hevolves hgrant⟩
  | requeue now captureIds reason =>
      have hevolves := LedgerOp.step_evolves h.consistent
        (.requeueFailed now captureIds reason) (by simp)
      exact ⟨LedgerOp.step_consistent _ _ h.consistent,
        fun grant hgrant => h.rows_of_evolves hevolves hgrant⟩
  | reclaim now limit =>
      have hevolves := LedgerOp.step_evolves h.consistent
        (.reclaimExpiredInflight now limit) (by simp)
      have hconsistent := LedgerOp.step_consistent _
        (.reclaimExpiredInflight now limit) h.consistent
      rw [step]
      cases hrun : system.ledger.reclaimExpiredInflight now limit with
      | error error => exact h
      | ok result =>
          obtain ⟨reclaimed, ledger⟩ := result
          rw [LedgerOp.step_of_ok (Except.map_eq_ok_iff.mpr ⟨_, hrun, rfl⟩)]
            at hevolves hconsistent
          refine ⟨hconsistent, fun grant hgrant => ?_⟩
          obtain ⟨old, hold, rfl⟩ := List.mem_map.mp hgrant
          rw [Grant.expire_captureId]
          exact h.rows_of_evolves hevolves hold
  | claim now timestamp captureIds leaseMillis =>
      have hevolves := LedgerOp.step_evolves h.consistent
        (.claimMany now timestamp captureIds leaseMillis) (by simp)
      have hconsistent := LedgerOp.step_consistent _
        (.claimMany now timestamp captureIds leaseMillis) h.consistent
      rw [LedgerOp.step, LedgerOp.run, claimMany_eq hcounters] at hevolves hconsistent
      rw [step, claimMany_eq hcounters]
      refine ⟨hconsistent, fun grant hgrant => ?_⟩
      rcases List.mem_append.mp hgrant with hearlier | hnew
      · obtain ⟨old, hold, rfl⟩ := List.mem_map.mp hearlier
        rw [Grant.reassign_captureId]
        exact h.rows_of_evolves hevolves hold
      · rw [List.map_map] at hnew
        obtain ⟨record, hrecord, rfl⟩ := List.mem_map.mp hnew
        exact claimLoop_rows htables now timestamp leaseMillis captureIds record hrecord
  | finish now timestamp verdicts =>
      by_cases hadmits : system.Admits verdicts
      · obtain ⟨finish, hloop, hstep⟩ :=
          h.finish_eq now timestamp hadmits hcounters htables
        rw [hstep]
        refine ⟨commit_consistent (finishLoop_keeps htables hloop).1, fun grant hgrant => ?_⟩
        exact finishLoop_rows htables hloop _ (h.rows grant (List.diff_subset _ _ hgrant))
      · rw [step, if_neg hadmits]
        exact h
  | restart seed =>
      exact ⟨LedgerOp.step_consistent _ _ h.consistent, by simp [step]⟩

/-- In a sound system a step is safe exactly when its reports are guarded. -/
theorem leaseSafe_iff (system : LeaseSystem) (action : LeaseAction) (h : system.Sound) :
    system.LeaseSafe action ↔ system.GuardedStep action := by
  obtain ⟨counters, hcounters, htables⟩ := id h.consistent
  have hother : ∀ op : LedgerOp, (∀ now timestamp updates, op ≠ .finishMany now timestamp updates) →
      KeepsDelivered system.ledger.deliveries (LedgerOp.step system.ledger op).deliveries :=
    fun op hop => (LedgerOp.step_evolves h.consistent op hop).keepsDelivered
  cases action with
  | ensure locators =>
      exact ⟨fun _ => trivial, fun _ => ⟨hother (.ensureMany locators) (by simp), trivial⟩⟩
  | requeue now captureIds reason =>
      exact ⟨fun _ => trivial,
        fun _ => ⟨hother (.requeueFailed now captureIds reason) (by simp), trivial⟩⟩
  | reclaim now limit =>
      refine ⟨fun _ => trivial, fun _ => ⟨?_, trivial⟩⟩
      have hkeeps := hother (.reclaimExpiredInflight now limit) (by simp)
      rw [step]
      cases hrun : system.ledger.reclaimExpiredInflight now limit with
      | error error => exact (Evolves.refl _).keepsDelivered
      | ok result =>
          rw [LedgerOp.step_of_ok (Except.map_eq_ok_iff.mpr ⟨_, hrun, rfl⟩)] at hkeeps
          exact hkeeps
  | claim now timestamp captureIds leaseMillis =>
      refine ⟨fun _ => trivial, fun _ => ⟨?_, trivial⟩⟩
      have hkeeps := hother (.claimMany now timestamp captureIds leaseMillis) (by simp)
      rw [LedgerOp.step, LedgerOp.run, claimMany_eq hcounters] at hkeeps
      rw [step, claimMany_eq hcounters]
      exact hkeeps
  | finish now timestamp verdicts =>
      by_cases hadmits : system.Admits verdicts
      · obtain ⟨finish, hloop, hstep⟩ :=
          h.finish_eq now timestamp hadmits hcounters htables
        have hrows := h.verdict_rows hadmits
        have hfenced := fenced_iff now timestamp htables
          hadmits.1 hrows
        have hdistinct : ((updates verdicts).map DeliveryUpdate.captureId).Nodup := by
          rw [updates, List.map_map]
          exact hadmits.1
        obtain ⟨hothers, hown⟩ := finishLoop_get? htables hloop hdistinct
        constructor
        · rintro ⟨hfinal, hfence⟩ - verdict hverdict record hget
          refine ⟨fun hdelivered => ?_,
            hfenced.mp (hfence hadmits counters hcounters) verdict hverdict record hget⟩
          rw [hstep] at hfinal
          obtain ⟨record', hget', hstate⟩ := hfinal _ record hget hdelivered
          have hwritten := hown verdict.update (List.mem_map_of_mem hverdict)
          change finish.deliveries.get? _ = _ at hget'
          change _ = Option.map _ (system.ledger.deliveries.get? _) at hwritten
          rw [hwritten, hget, Option.map_some, Option.some.injEq] at hget'
          rw [← hget'] at hstate
          exact hstate
        · intro hguarded
          refine ⟨?_, ?_⟩
          · rw [hstep]
            intro id record hget hdelivered
            change ∃ record', finish.deliveries.get? id = some record' ∧ _
            by_cases hid : id ∈ (updates verdicts).map DeliveryUpdate.captureId
            · obtain ⟨update, hupdate, rfl⟩ := List.mem_map.mp hid
              obtain ⟨verdict, hverdict, rfl⟩ := List.mem_map.mp hupdate
              have hwritten := hown verdict.update hupdate
              change _ = Option.map _ (system.ledger.deliveries.get? _) at hwritten
              rw [hwritten, hget, Option.map_some]
              exact ⟨_, rfl, (hguarded hadmits verdict hverdict record hget).1 hdelivered⟩
            · rw [hothers id hid]
              exact ⟨record, hget, hdelivered⟩
          · intro _ counters' hcounters'
            rw [hcounters, Option.some.injEq] at hcounters'
            subst hcounters'
            exact hfenced.mpr fun verdict hverdict record hget =>
              (hguarded hadmits verdict hverdict record hget).2
      · constructor
        · exact fun _ hadmits' => absurd hadmits' hadmits
        · intro _
          refine ⟨?_, fun hadmits' => absurd hadmits' hadmits⟩
          rw [step, if_neg hadmits]
          exact (Evolves.refl _).keepsDelivered
  | restart seed =>
      exact ⟨fun _ => trivial, fun _ => ⟨hother (.openLedger seed) (by simp), trivial⟩⟩

/-- From the first open on, in every interleaving deliveries are final and
reports under reassigned leases have no effect exactly when every finish of the
run is guarded. -/
theorem leaseSafe_along_iff {seed : Except String (Option IngestQualitySeed)}
    {start : DeliveryLedger} (hopen : created.openLedger seed = .ok start)
    (trace : List LeaseAction) :
    Machine.Along step LeaseSafe ⟨start, []⟩ trace ↔
      Machine.Along step GuardedStep ⟨start, []⟩ trace :=
  Machine.along_congr step_sound leaseSafe_iff
    ⟨(openLedger_created hopen).1, by simp⟩ trace

namespace LateFinish

def locator : CaptureLocator := ⟨"c", "h", 1, 0, 12, none, none⟩

/-- The second worker's report, under its live lease. -/
def delivered : Verdict :=
  ⟨⟨"c", .held⟩, ⟨"c", .delivered, none, none, DeliveryState.delivered_settled⟩, rfl⟩

/-- The first worker's report, long after its lease was reclaimed. -/
def retry : Verdict :=
  ⟨⟨"c", .reassigned⟩,
    ⟨"c", .pending, some "timeout", some 500, DeliveryState.pending_settled⟩, rfl⟩

/-- A lease expires, a second worker delivers, then the first one reports. -/
def trace : List LeaseAction :=
  [.ensure [locator], .claim 0 "t" ["c"] 10, .reclaim 20 8, .claim 20 "t" ["c"] 10,
    .finish 25 "t" [delivered]]

end LateFinish

open LedgerOp.RequeueDrift LateFinish in
theorem leaseSafe_not_along :
    ¬ ∀ (seed : Except String (Option IngestQualitySeed)) (start : DeliveryLedger),
      created.openLedger seed = .ok start →
        ∀ trace : List LeaseAction, Machine.Along step LeaseSafe ⟨start, []⟩ trace := by
  intro hclaim
  have halong := hclaim (.ok none) fresh openLedger_fresh
    (LateFinish.trace ++ [.finish 30 "t" [retry]])
  obtain ⟨hfinal, _⟩ := (Machine.Along.append.mp halong).2.1
  -- the delivered record is pending again
  have hbefore : ((Machine.run step ⟨fresh, []⟩ LateFinish.trace).ledger.deliveries.get?
      "c").map DeliveryRecord.state = some .delivered := by decide
  have hafter : (((Machine.run step ⟨fresh, []⟩ LateFinish.trace).step
      (.finish 30 "t" [retry])).ledger.deliveries.get? "c").map DeliveryRecord.state =
        some .pending := by decide
  obtain ⟨record, hget, hdelivered⟩ := Option.map_eq_some_iff.mp hbefore
  obtain ⟨record', hget', hdelivered'⟩ := hfinal "c" record hget hdelivered
  rw [hget', Option.map_some, hdelivered'] at hafter
  exact absurd hafter (by decide)

open LedgerOp.RequeueDrift in
theorem leaseSafe_along_second_worker :
    Machine.Along step LeaseSafe ⟨fresh, []⟩ LateFinish.trace := by
  refine (leaseSafe_along_iff openLedger_fresh _).mpr
    ⟨trivial, trivial, trivial, trivial, ?_, trivial⟩
  intro _ verdict hverdict record _
  obtain rfl := List.mem_singleton.mp hverdict
  exact ⟨fun _ => rfl, fun hphase => LeasePhase.noConfusion hphase⟩

end LeaseSystem

end ChipTrace
