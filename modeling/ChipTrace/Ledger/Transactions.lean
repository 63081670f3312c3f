/-
The loops of the ledger's transactions: what a whole pass over its arguments
keeps, and how the rebuild of startup produces the same representation.
-/
import ChipTrace.Ledger.Invariant
import Mathlib.Data.List.TakeWhile

namespace ChipTrace

open DeliveryTables DeliveryLedger

/-- A transaction keeps the tables consistent and the attempts counter exact. -/
structure Keeps (before after : DeliveryTables) : Prop where
  consistent : before.Consistent → after.Consistent
  attempts : before.Consistent → before.AttemptsExact → after.AttemptsExact

theorem Keeps.refl (tables : DeliveryTables) : Keeps tables tables :=
  ⟨id, fun _ => id⟩

theorem Keeps.trans {first second third : DeliveryTables} (h : Keeps first second)
    (h' : Keeps second third) : Keeps first third :=
  ⟨fun hc => h'.consistent (h.consistent hc),
    fun hc ha => h'.attempts (h.consistent hc) (h.attempts hc ha)⟩

theorem ensureOne_keeps {tables tables' : DeliveryTables} {inserted inserted' : Nat}
    {locator : CaptureLocator} (hconsistent : tables.Consistent)
    (hok : ensureOne (tables, inserted) locator = .ok (tables', inserted')) :
    Keeps tables tables' := by
  rcases ensureOne_cases hconsistent hok with
    ⟨rfl, _⟩ | ⟨_, hcounters, existing, hget, _, _, hwrites⟩ | ⟨_, hattempts, hget, hwrites⟩
  · exact Keeps.refl _
  · refine ⟨fun h => hwrites.consistent_of_update h hget rfl, fun _ hexact => ?_⟩
    rw [hwrites.attemptsExact_iff hexact, hget, hcounters]
    rfl
  · refine ⟨fun h => hwrites.consistent h rfl, fun _ hexact => ?_⟩
    rw [hwrites.attemptsExact_iff hexact, hget, hattempts]
    rfl

theorem ensureLoop_keeps {tables : DeliveryTables} (hconsistent : tables.Consistent)
    {inserted : Nat} {locators : List CaptureLocator} {finish : DeliveryTables × Nat}
    (hok : locators.foldlM ensureOne (tables, inserted) = .ok finish) :
    finish.1.Consistent ∧ (tables.AttemptsExact → finish.1.AttemptsExact) := by
  refine foldlM_ok_preserves
    (fun work : DeliveryTables × Nat =>
      work.1.Consistent ∧ (tables.AttemptsExact → work.1.AttemptsExact))
    locators ?_ (tables, inserted) ⟨hconsistent, id⟩ hok
  rintro locator - ⟨work, count⟩ ⟨next, count'⟩ ⟨hwork, hexact⟩ hstep
  have hkeeps := ensureOne_keeps hwork hstep
  exact ⟨hkeeps.consistent hwork, fun h => hkeeps.attempts hwork (hexact h)⟩

theorem claimOne_keeps {now : UInt64} {timestamp : String} {leaseMillis : Nat}
    {tables tables' : DeliveryTables} {claimed claimed' : List DeliveryRecord}
    {captureId : String} (hconsistent : tables.Consistent)
    (hrun : claimOne now timestamp leaseMillis (tables, claimed) captureId =
      (tables', claimed')) : Keeps tables tables' := by
  rcases claimOne_cases hconsistent hrun with
    ⟨rfl, _⟩ | ⟨record, hget, _, _, _, hattempts, hwrites⟩
  · exact Keeps.refl _
  · refine ⟨fun h => hwrites.consistent_of_update h hget rfl, fun _ hexact => ?_⟩
    rw [hwrites.attemptsExact_iff hexact, hget, hattempts]
    simp only [Option.map_some, Option.getD_some, attemptsWeight, claimedRecord]
    omega

theorem claimLoop_keeps {tables : DeliveryTables} (hconsistent : tables.Consistent)
    (now : UInt64) (timestamp : String) (leaseMillis : Nat) (claimed : List DeliveryRecord) (captureIds : List String) :
    let finish := captureIds.foldl (claimOne now timestamp leaseMillis) (tables, claimed)
    finish.1.Consistent ∧ (tables.AttemptsExact → finish.1.AttemptsExact) := by
  refine foldl_preserves (claimOne now timestamp leaseMillis)
    (fun work : DeliveryTables × List DeliveryRecord =>
      work.1.Consistent ∧ (tables.AttemptsExact → work.1.AttemptsExact))
    captureIds ?_ (tables, claimed) ⟨hconsistent, id⟩
  rintro captureId - ⟨work, output⟩ ⟨hwork, hexact⟩
  obtain ⟨⟨next, output'⟩, hrun⟩ : ∃ result,
    claimOne now timestamp leaseMillis (work, output) captureId = result := ⟨_, rfl⟩
  rw [hrun]
  have hkeeps := claimOne_keeps hwork hrun
  exact ⟨hkeeps.consistent hwork, fun h => hkeeps.attempts hwork (hexact h)⟩

theorem finishOne_keeps {now : UInt64} {timestamp : String} {update : DeliveryUpdate}
    {tables tables' : DeliveryTables} (hconsistent : tables.Consistent)
    (hok : finishOne now timestamp tables update = .ok tables') :
    Keeps tables tables' := by
  obtain ⟨record, hget, hattempts, hwrites⟩ := finishOne_cases hconsistent hok
  refine ⟨fun h => hwrites.consistent_of_update h hget rfl, fun _ hexact => ?_⟩
  rw [hwrites.attemptsExact_iff hexact, hget, hattempts]
  rfl

theorem finishLoop_keeps {now : UInt64} {timestamp : String} {tables : DeliveryTables}
    (hconsistent : tables.Consistent) {updates : List DeliveryUpdate}
    {finish : DeliveryTables}
    (hok : updates.foldlM (finishOne now timestamp) tables = .ok finish) :
    finish.Consistent ∧ (tables.AttemptsExact → finish.AttemptsExact) := by
  refine foldlM_ok_preserves
    (fun work : DeliveryTables =>
      work.Consistent ∧ (tables.AttemptsExact → work.AttemptsExact))
    updates ?_ tables ⟨hconsistent, id⟩ hok
  rintro update - work next ⟨hwork, hexact⟩ hstep
  have hkeeps := finishOne_keeps hwork hstep
  exact ⟨hkeeps.consistent hwork, fun h => hkeeps.attempts hwork (hexact h)⟩

/-- No failed row among the named ids carries attempts. -/
def FailedWithoutAttempts (deliveries : Table String DeliveryRecord)
    (captureIds : List String) : Prop :=
  ∀ id ∈ captureIds, ∀ record, deliveries.get? id = some record →
    record.state = .failed → record.attempts = 0

/-- The requeue loop lowers the attempts of the table but not the counter: the
sum stays exactly when there was nothing to lower. -/
theorem requeueLoop_spec (now : UInt64) (reason : String) (captureIds : List String)
    {tables : DeliveryTables} (hconsistent : tables.Consistent) (requeued : List String) :
    let finish := captureIds.foldl (requeueOne now reason) (tables, requeued)
    finish.1.Consistent ∧ finish.1.counters.attempts = tables.counters.attempts ∧
      finish.1.deliveries.weigh attemptsWeight ≤ tables.deliveries.weigh attemptsWeight ∧
      (finish.1.deliveries.weigh attemptsWeight = tables.deliveries.weigh attemptsWeight ↔
        FailedWithoutAttempts tables.deliveries captureIds) := by
  induction captureIds generalizing tables requeued with
  | nil => simp [hconsistent, FailedWithoutAttempts]
  | cons captureId rest ih =>
      obtain ⟨⟨next, output⟩, hrun⟩ :
          ∃ work, requeueOne now reason (tables, requeued) captureId = work := ⟨_, rfl⟩
      rw [List.foldl_cons, hrun]
      rcases requeueOne_cases hconsistent hrun with
        ⟨rfl, _, hskip⟩ | ⟨record, hget, hstate, _, hattempts, hwrites⟩
      · obtain ⟨hfinish, hsame, hle, hiff⟩ := ih hconsistent output
        refine ⟨hfinish, hsame, hle, hiff.trans ?_⟩
        constructor
        · intro hrest id hid record hget hfailed
          rcases List.mem_cons.mp hid with rfl | hid
          · exact absurd hfailed (hskip record hget)
          · exact hrest id hid record hget hfailed
        · exact fun hall id hid => hall id (List.mem_cons_of_mem _ hid)
      · have hnext : next.Consistent :=
          hwrites.consistent_of_update hconsistent hget rfl
        obtain ⟨hfinish, hsame, hle, hiff⟩ := ih hnext output
        have hweigh := tables.deliveries.weigh_insert attemptsWeight captureId
          (requeuedRecord now reason record)
        rw [← hwrites.deliveries, hget] at hweigh
        simp only [Option.map_some, Option.getD_some, attemptsWeight,
          requeuedRecord] at hweigh
        refine ⟨hfinish, hsame.trans hattempts, by omega, ?_⟩
        constructor
        · intro heq
          have hzero : record.attempts = 0 := by omega
          have hrest := hiff.mp (by omega)
          intro id hid record' hget' hfailed
          by_cases hsame : id = captureId
          · subst hsame
            rw [hget, Option.some.injEq] at hget'
            exact hget' ▸ hzero
          · rcases List.mem_cons.mp hid with heq' | hid
            · exact absurd heq' hsame
            · refine hrest id hid record' ?_ hfailed
              rw [hwrites.get?, if_neg hsame]
              exact hget'
        · intro hall
          have hzero := hall captureId List.mem_cons_self record hget hstate
          have hrest := hiff.mpr (by
            intro id hid record' hget' hfailed
            rw [hwrites.get?] at hget'
            split_ifs at hget' with hsame
            · rw [Option.some.injEq] at hget'
              subst hget'
              rfl
            · exact hall id (List.mem_cons_of_mem _ hid) record' hget' hfailed)
          omega

/-- A pass that releases the listed rows one after the other. -/
inductive ReleasedRows (reason : String) :
    DeliveryTables → List (String × String) → DeliveryTables → Prop where
  | nil (tables : DeliveryTables) : ReleasedRows reason tables [] tables
  | cons {tables mid finish : DeliveryTables} {row : String × String}
      {rest : List (String × String)} {record : DeliveryRecord}
      (hget : tables.deliveries.get? row.2 = some record)
      (hstate : record.state = .inflight)
      (hkey : row.1 = deliveryIndexKey record.leaseUntilUnixMs row.2)
      (hattempts : mid.counters.attempts = tables.counters.attempts)
      (hwrites : Writes tables mid row.2 (releasedRecord reason record))
      (hrest : ReleasedRows reason mid rest finish) :
      ReleasedRows reason tables (row :: rest) finish

theorem ReleasedRows.keeps {reason : String} {tables finish : DeliveryTables}
    {rows : List (String × String)} (h : ReleasedRows reason tables rows finish) :
    Keeps tables finish := by
  induction h with
  | nil tables => exact Keeps.refl tables
  | @cons tables mid finish row rest record hget hstate hkey hattempts hwrites _ ih =>
      refine Keeps.trans ⟨?_, ?_⟩ ih
      · exact fun hc => hwrites.consistent_of_update hc hget rfl
      · intro _ hexact
        rw [hwrites.attemptsExact_iff hexact, hget, hattempts]
        rfl

/-- A release touches the listed rows only. -/
theorem ReleasedRows.get? {reason : String} {tables finish : DeliveryTables}
    {rows : List (String × String)} (h : ReleasedRows reason tables rows finish) (id : String) :
    finish.deliveries.get? id =
      if id ∈ rows.map Prod.snd then (tables.deliveries.get? id).map (releasedRecord reason)
      else tables.deliveries.get? id := by
  induction h with
  | nil tables => simp
  | @cons tables mid finish row rest record hget _ _ _ hwrites _ ih =>
      rw [ih, hwrites.get?, List.map_cons]
      by_cases hid : id = row.2
      · subst hid
        simp [hget, releasedRecord]
      · simp only [List.mem_cons, hid, false_or, if_false]

theorem ReleasedRows.attempts {reason : String} {tables finish : DeliveryTables}
    {rows : List (String × String)} (h : ReleasedRows reason tables rows finish) :
    finish.counters.attempts = tables.counters.attempts := by
  induction h with
  | nil tables => rfl
  | cons _ _ _ hattempts _ _ ih => rw [ih, hattempts]

/-- Index rows that are listed and pairwise distinct. -/
structure Listed (tables : DeliveryTables) (rows : List (String × String)) : Prop where
  stored : ∀ row ∈ rows, tables.inflight.get? row.1 = some row.2
  distinct : rows.Pairwise fun left right => left.1 ≠ right.1

theorem Listed.of_entries {tables : DeliveryTables} {rows : List (String × String)}
    (hsub : rows.Sublist tables.inflight.entries) : Listed tables rows := by
  refine ⟨fun row hrow => ?_, ?_⟩
  · exact (tables.inflight.mem_entries row.1 row.2).mp (hsub.subset hrow)
  · exact (tables.inflight.sorted.sublist hsub).imp fun hlt => ne_of_lt hlt

/-- After one row is released the others are still listed. -/
theorem Listed.tail {tables mid : DeliveryTables} {row : String × String}
    {rest : List (String × String)} {record : DeliveryRecord} {reason : String}
    (hlisted : Listed tables (row :: rest))
    (hget : tables.deliveries.get? row.2 = some record) (hstate : record.state = .inflight)
    (hkey : row.1 = deliveryIndexKey record.leaseUntilUnixMs row.2)
    (hwrites : Writes tables mid row.2 (releasedRecord reason record)) :
    Listed mid rest := by
  obtain ⟨hhead, htail⟩ := List.pairwise_cons.mp hlisted.distinct
  refine ⟨fun other hother => ?_, htail⟩
  have hinflight : mid.inflight = tables.inflight.remove row.1 := by
    rw [hwrites.inflight, hget]
    simp [inflightKey, hstate, hkey, releasedRecord, Table.removeKey?, Table.insertKey?]
  rw [hinflight, Table.get?_remove_of_ne _ (hhead other hother).symm]
  exact hlisted.stored other (List.mem_cons_of_mem _ hother)

theorem reclaimLoop_released {now : UInt64} {rows : List (String × String)}
    {tables : DeliveryTables} (hconsistent : tables.Consistent)
    (hlisted : Listed tables rows)
    (hexpired : ∀ row ∈ rows, ∃ due, deliveryIndexDue row.1 = some due ∧ due ≤ now)
    (reclaimed : List String) :
    ∃ finish, rows.foldl (reclaimOne now) (tables, reclaimed) =
        (finish, reclaimed ++ rows.map Prod.snd) ∧
      ReleasedRows leaseExpiredError tables rows finish := by
  induction rows generalizing tables reclaimed with
  | nil => exact ⟨tables, by simp, ReleasedRows.nil tables⟩
  | cons row rest ih =>
      obtain ⟨record, mid, hget, hstate, hkey, hrun, hattempts, hwrites⟩ :=
        reclaimOne_eq hconsistent reclaimed
          (hlisted.stored row List.mem_cons_self) (hexpired row List.mem_cons_self)
      have hmid : mid.Consistent :=
        hwrites.consistent_of_update hconsistent hget rfl
      obtain ⟨finish, hfold, hrest⟩ := ih hmid
        (hlisted.tail hget hstate hkey hwrites)
        (fun other hother => hexpired other (List.mem_cons_of_mem _ hother))
        (reclaimed ++ [row.2])
      refine ⟨finish, ?_, ReleasedRows.cons hget hstate hkey hattempts hwrites hrest⟩
      rw [List.foldl_cons, hrun, hfold]
      simp

theorem expiredRows_sublist (now : UInt64) (limit : Nat) (inflight : Table String String) :
    (expiredRows now limit inflight).Sublist inflight.entries :=
  (List.takeWhile_sublist _).trans (List.take_sublist limit _)

theorem expiredRows_expired {now : UInt64} {limit : Nat} {inflight : Table String String}
    {row : String × String} (hrow : row ∈ expiredRows now limit inflight) :
    ∃ due, deliveryIndexDue row.1 = some due ∧ due ≤ now := by
  have hdue := List.mem_takeWhile_imp hrow
  split at hdue
  · rename_i due hkey
    exact ⟨due, hkey, by simpa using hdue⟩
  · cases hdue

theorem recoverLoop_released {rows : List (String × String)} {tables : DeliveryTables}
    (hconsistent : tables.Consistent) (hlisted : Listed tables rows) :
    ∃ finish, rows.foldlM recoverInflightRow tables = .ok finish ∧
      ReleasedRows leaseRecoveredError tables rows finish := by
  induction rows generalizing tables with
  | nil => exact ⟨tables, rfl, ReleasedRows.nil tables⟩
  | cons row rest ih =>
      obtain ⟨record, mid, hget, hstate, hkey, hrun, hattempts, hwrites⟩ :=
        recoverInflightRow_eq hconsistent (hlisted.stored row List.mem_cons_self)
      have hmid : mid.Consistent :=
        hwrites.consistent_of_update hconsistent hget rfl
      obtain ⟨finish, hfold, hrest⟩ := ih hmid (hlisted.tail hget hstate hkey hwrites)
      refine ⟨finish, ?_, ReleasedRows.cons hget hstate hkey hattempts hwrites hrest⟩
      rw [List.foldlM_cons, hrun, Except.ok_bind, hfold]

section Rebuild

/-- The row a rebuild leaves: nothing stays in flight. -/
def rebuiltRecord (record : DeliveryRecord) : DeliveryRecord :=
  if record.state = .inflight then
    { record with state := .pending, nextAttemptUnixMs := 0, leaseUntilUnixMs := 0 }
  else record

theorem rebuiltRecord_settled (record : DeliveryRecord) :
    (rebuiltRecord record).state ≠ .inflight := by
  unfold rebuiltRecord
  split_ifs with hstate
  · exact DeliveryState.noConfusion
  · exact hstate

theorem rebuiltRecord_captureId (record : DeliveryRecord) :
    (rebuiltRecord record).captureId = record.captureId := by
  unfold rebuiltRecord
  split_ifs <;> rfl

theorem rebuiltRecord_idem (record : DeliveryRecord) :
    rebuiltRecord (rebuiltRecord record) = rebuiltRecord record := by
  rw [rebuiltRecord, if_neg (rebuiltRecord_settled record)]

theorem get?_rebuildRow (deliveries : Table String DeliveryRecord) (key id : String) :
    (rebuildRow deliveries key).get? id =
      if id = key then (deliveries.get? id).map rebuiltRecord else deliveries.get? id := by
  rw [rebuildRow]
  split
  · rename_i hget
    split_ifs with hid
    · rw [hid, hget, Option.map_none]
    · rfl
  · rename_i record hget
    by_cases hstate : record.state = .inflight
    · rw [if_pos hstate, Table.get?_insert]
      split_ifs with hid
      · rw [hid, hget, Option.map_some, rebuiltRecord, if_pos hstate]
      · rfl
    · rw [if_neg hstate]
      split_ifs with hid
      · rw [hid, hget, Option.map_some, rebuiltRecord, if_neg hstate]
      · rfl

theorem get?_rebuildRows (deliveries : Table String DeliveryRecord) (keys : List String)
    (id : String) :
    (keys.foldl rebuildRow deliveries).get? id =
      if id ∈ keys then (deliveries.get? id).map rebuiltRecord else deliveries.get? id := by
  induction keys generalizing deliveries with
  | nil => simp
  | cons key rest ih =>
      rw [List.foldl_cons, ih, get?_rebuildRow]
      by_cases hid : id = key
      · subst hid
        cases hget : deliveries.get? id with
        | none => simp
        | some record => simp [rebuiltRecord_idem]
      · simp [hid]

/-- A rebuild maps every row. -/
theorem get?_rebuilt (deliveries : Table String DeliveryRecord) (id : String) :
    (deliveries.keys.foldl rebuildRow deliveries).get? id =
      (deliveries.get? id).map rebuiltRecord := by
  rw [get?_rebuildRows]
  split_ifs with hid
  · rfl
  · cases hget : deliveries.get? id with
    | none => rfl
    | some record => exact absurd ((deliveries.mem_keys id).mpr ⟨record, hget⟩) hid

theorem pendingRows_index {deliveries : Table String DeliveryRecord}
    (hkeys : ∀ id record, deliveries.get? id = some record → record.captureId = id) :
    IndexOf pendingKey deliveries (Table.empty.insertAll (pendingRows deliveries)) := by
  have hmem : ∀ i id, (i, id) ∈ pendingRows deliveries ↔
      ∃ record, deliveries.get? id = some record ∧ pendingKey id record = some i := by
    intro i id
    rw [pendingRows, List.mem_filterMap]
    constructor
    · rintro ⟨⟨id', record⟩, hentry, hrow⟩
      have hget := (deliveries.mem_entries id' record).mp hentry
      have hid := hkeys id' record hget
      split_ifs at hrow with hstate
      rw [Option.some.injEq, Prod.mk.injEq] at hrow
      obtain ⟨rfl, rfl⟩ := hrow
      rw [← hid] at hget
      exact ⟨record, hget, by rw [pendingKey, if_pos hstate]⟩
    · rintro ⟨record, hget, hkey⟩
      have hid := hkeys id record hget
      unfold pendingKey at hkey
      split_ifs at hkey with hstate
      rw [Option.some.injEq] at hkey
      exact ⟨(id, record), (deliveries.mem_entries id record).mpr hget,
        by simp [hstate, hid, hkey]⟩
  intro i id
  rw [Table.get?_insertAll_empty, hmem]
  intro key id id' hid hid'
  obtain ⟨record, _, hkey⟩ := (hmem key id).mp hid
  obtain ⟨record', _, hkey'⟩ := (hmem key id').mp hid'
  exact pendingKey_separates id id' record record' key hkey hkey'

/-- The rebuild produces consistent tables from any rows stored under their id. -/
theorem rebuild_consistent {ledger : DeliveryLedger}
    (hkeys : ∀ id record, ledger.deliveries.get? id = some record →
      record.captureId = id) :
    ∃ tables, ledger.rebuild = ledger.commit tables ∧ tables.Consistent ∧
      tables.AttemptsExact := by
  refine ⟨_, rfl, ?_, ?_⟩
  · have hrebuilt : ∀ id record,
        (ledger.deliveries.keys.foldl rebuildRow ledger.deliveries).get? id = some record →
          record.captureId = id ∧ record.state ≠ .inflight := by
      intro id record hget
      rw [get?_rebuilt, Option.map_eq_some_iff] at hget
      obtain ⟨old, hold, rfl⟩ := hget
      exact ⟨(rebuiltRecord_captureId old).trans (hkeys id old hold),
        rebuiltRecord_settled old⟩
    obtain ⟨htotal, _, hstate⟩ := deliveryCountersFromTable_spec
      (ledger.deliveries.keys.foldl rebuildRow ledger.deliveries)
    refine ⟨fun id record hget => (hrebuilt id record hget).1, ?_, ?_, htotal, hstate⟩
    · rw [Table.removeAll_keys]
      exact pendingRows_index fun id record hget => (hrebuilt id record hget).1
    · intro i id
      simp only [Table.removeAll_keys, Table.get?_empty, reduceCtorEq, false_iff, not_exists, not_and]
      intro record hget hkey
      unfold inflightKey at hkey
      split_ifs at hkey with hinflight
      exact (hrebuilt id record hget).2 hinflight
  · exact (deliveryCountersFromTable_spec _).2.1

end Rebuild

end ChipTrace
