/-
What the ledger's transactions keep true: rows are stored under their own id,
both indexes list exactly the rows of their state, and the counters count the
table.  Every loop body either leaves the tables alone or writes one row.
-/
import ChipTrace.Ledger.Ops

namespace ChipTrace

/-- The pending-index key of a row. -/
def pendingKey (captureId : String) (record : DeliveryRecord) : Option String :=
  if record.state = .pending then
    some (deliveryIndexKey record.nextAttemptUnixMs captureId)
  else none

/-- The inflight-index key of a row. -/
def inflightKey (captureId : String) (record : DeliveryRecord) : Option String :=
  if record.state = .inflight then
    some (deliveryIndexKey record.leaseUntilUnixMs captureId)
  else none

theorem pendingKey_separates : SeparatesRows pendingKey := by
  intro k k' v v' i hkey hkey'
  unfold pendingKey at hkey hkey'
  split_ifs at hkey hkey'
  rw [Option.some.injEq] at hkey hkey'
  exact (deliveryIndexKey_injective (hkey.trans hkey'.symm)).2

theorem inflightKey_separates : SeparatesRows inflightKey := by
  intro k k' v v' i hkey hkey'
  unfold inflightKey at hkey hkey'
  split_ifs at hkey hkey'
  rw [Option.some.injEq] at hkey hkey'
  exact (deliveryIndexKey_injective (hkey.trans hkey'.symm)).2

namespace DeliveryTables

/-- The part of the representation that every operation keeps. -/
structure Consistent (tables : DeliveryTables) : Prop where
  rowKeys : ∀ id record, tables.deliveries.get? id = some record → record.captureId = id
  pendingIndex : IndexOf pendingKey tables.deliveries tables.pending
  inflightIndex : IndexOf inflightKey tables.deliveries tables.inflight
  total : tables.counters.total = tables.deliveries.len
  stateCount : ∀ state, tables.counters.ofState state =
    tables.deliveries.weigh (stateWeight state)

/-- The attempts counter is the sum over the rows. -/
def AttemptsExact (tables : DeliveryTables) : Prop :=
  tables.counters.attempts = tables.deliveries.weigh attemptsWeight

/-- One row is written, and indexes and counters follow it. -/
structure Writes (before after : DeliveryTables) (id : String)
    (record : DeliveryRecord) : Prop where
  deliveries : after.deliveries = before.deliveries.insert id record
  pending : after.pending =
    (before.pending.removeKey? ((before.deliveries.get? id).bind (pendingKey id))).insertKey?
      id (pendingKey id record)
  inflight : after.inflight =
    (before.inflight.removeKey?
      ((before.deliveries.get? id).bind (inflightKey id))).insertKey?
      id (inflightKey id record)
  total : after.counters.total + ((before.deliveries.get? id).map fun _ => 1).getD 0 =
    before.counters.total + 1
  stateCount : ∀ state, after.counters.ofState state +
      ((before.deliveries.get? id).map (stateWeight state id)).getD 0 =
    before.counters.ofState state + stateWeight state id record

variable {before after : DeliveryTables} {id : String} {record : DeliveryRecord}

theorem Writes.consistent (hwrites : Writes before after id record)
    (hbefore : before.Consistent) (hid : record.captureId = id) : after.Consistent := by
  refine ⟨?_, ?_, ?_, ?_, ?_⟩
  · intro id' record' hget
    rw [hwrites.deliveries, Table.get?_insert] at hget
    split_ifs at hget with heq
    · rw [Option.some.injEq] at hget
      rw [← hget, hid, heq]
    · exact hbefore.rowKeys id' record' hget
  · rw [hwrites.deliveries, hwrites.pending]
    exact hbefore.pendingIndex.write pendingKey_separates id record
  · rw [hwrites.deliveries, hwrites.inflight]
    exact hbefore.inflightIndex.write inflightKey_separates id record
  · have hlen := before.deliveries.weigh_insert (fun _ _ => 1) id record
    have hstep := hwrites.total
    have htotal := hbefore.total
    rw [hwrites.deliveries, Table.len_eq_weigh]
    rw [Table.len_eq_weigh] at htotal
    omega
  · intro state
    have hweigh := before.deliveries.weigh_insert (stateWeight state) id record
    have hstep := hwrites.stateCount state
    have hcount := hbefore.stateCount state
    rw [hwrites.deliveries]
    omega

/-- A rewritten row keeps its id. -/
theorem Writes.consistent_of_update {old : DeliveryRecord}
    (hwrites : Writes before after id record) (hbefore : before.Consistent)
    (hget : before.deliveries.get? id = some old)
    (hsame : record.captureId = old.captureId) : after.Consistent :=
  hwrites.consistent hbefore (hsame.trans (hbefore.rowKeys id old hget))

/-- A stored row is counted in its state. -/
theorem Consistent.stateCount_pos (hbefore : before.Consistent)
    (hget : before.deliveries.get? id = some record) :
    0 < before.counters.ofState record.state := by
  have hweigh := before.deliveries.weigh_remove (stateWeight record.state) id
  have hcount := hbefore.stateCount record.state
  rw [hget] at hweigh
  simp only [Option.map_some, Option.getD_some, stateWeight, if_true] at hweigh
  omega

theorem Writes.attemptsExact_iff (hwrites : Writes before after id record)
    (hexact : before.AttemptsExact) :
    after.AttemptsExact ↔
      after.counters.attempts + ((before.deliveries.get? id).map (attemptsWeight id)).getD 0 =
        before.counters.attempts + record.attempts := by
  have hweigh := before.deliveries.weigh_insert attemptsWeight id record
  unfold AttemptsExact at *
  rw [hwrites.deliveries]
  have hrecord : attemptsWeight id record = record.attempts := rfl
  omega

end DeliveryTables

open DeliveryTables DeliveryLedger

variable {tables tables' : DeliveryTables}

/-- Reading rows by id commutes with a write. -/
theorem DeliveryTables.Writes.get? {id id' : String} {record : DeliveryRecord}
    (hwrites : Writes tables tables' id record) :
    tables'.deliveries.get? id' =
      if id' = id then some record else tables.deliveries.get? id' := by
  rw [hwrites.deliveries, Table.get?_insert]

theorem decrement_increment_stateCount {counters : DeliveryCounters}
    {old new state : DeliveryState} (hpos : 0 < counters.ofState old) :
    (incrementDeliveryState (decrementDeliveryState counters old) new).ofState state +
        (if old = state then 1 else 0) =
      counters.ofState state + if new = state then 1 else 0 := by
  rw [increment_ofState, decrement_ofState]
  by_cases hold : old = state
  · subst hold
    simp only [if_true]
    omega
  · simp [hold]

section LoopBodies

variable (hconsistent : tables.Consistent)
include hconsistent

/-- `ensure_many` rejects a locator, keeps the tables, fills in a missing
length, or adds a new row. -/
theorem ensureOne_cases {inserted inserted' : Nat} {locator : CaptureLocator}
    (hok : ensureOne (tables, inserted) locator = .ok (tables', inserted')) :
    (tables' = tables ∧ inserted' = inserted ∧
      ∃ existing, tables.deliveries.get? locator.captureId = some existing ∧
        existing.rawSha256 = locator.rawSha256 ∧ existing.bytes = locator.length) ∨
    (inserted' = inserted ∧ tables'.counters = tables.counters ∧
      ∃ existing, tables.deliveries.get? locator.captureId = some existing ∧
        existing.rawSha256 = locator.rawSha256 ∧ existing.bytes = 0 ∧
        Writes tables tables' locator.captureId
          { existing with bytes := locator.length }) ∨
    (inserted' = inserted + 1 ∧ tables'.counters.attempts = tables.counters.attempts ∧
      tables.deliveries.get? locator.captureId = none ∧
      Writes tables tables' locator.captureId (newDelivery locator)) := by
  rw [ensureOne] at hok
  split at hok
  · rename_i existing hget
    split_ifs at hok with hhash hzero hlength
    · obtain ⟨rfl, rfl⟩ := Prod.mk.inj (Except.ok.inj hok)
      refine Or.inr (Or.inl ⟨rfl, rfl, existing, hget, not_not.mp hhash, hzero, ?_⟩)
      have hpending := hconsistent.pendingIndex.write_same hget
        (v := { existing with bytes := locator.length }) rfl
      have hinflight := hconsistent.inflightIndex.write_same hget
        (v := { existing with bytes := locator.length }) rfl
      refine ⟨rfl, hpending.symm, hinflight.symm, ?_, ?_⟩
      · simp [hget]
      · intro state
        simp [hget, stateWeight]
    · obtain ⟨rfl, rfl⟩ := Prod.mk.inj (Except.ok.inj hok)
      exact Or.inl ⟨rfl, rfl, existing, hget, not_not.mp hhash, not_not.mp hlength⟩
  · rename_i hget
    obtain ⟨rfl, rfl⟩ := Prod.mk.inj (Except.ok.inj hok)
    refine Or.inr (Or.inr ⟨rfl, rfl, hget, ?_⟩)
    refine ⟨rfl, ?_, ?_, ?_, ?_⟩
    · simp [hget, pendingKey, newDelivery, Table.removeKey?, Table.insertKey?]
    · simp [hget, inflightKey, newDelivery, Table.removeKey?, Table.insertKey?]
    · simp [hget]
    · intro state
      cases state <;> simp [hget, stateWeight, newDelivery, DeliveryCounters.ofState]

/-- `claim_many` skips an id or moves its due pending row in flight. -/
theorem claimOne_cases {now : UInt64} {timestamp : String} {leaseMillis : Nat}
    {claimed claimed' : List DeliveryRecord} {captureId : String}
    (hrun : claimOne now timestamp leaseMillis (tables, claimed) captureId =
      (tables', claimed')) :
    (tables' = tables ∧ claimed' = claimed) ∨
    ∃ record, tables.deliveries.get? captureId = some record ∧
      record.state = .pending ∧ ¬ now < record.nextAttemptUnixMs ∧
      claimed' = claimed ++ [claimedRecord now timestamp leaseMillis record] ∧
      tables'.counters.attempts = tables.counters.attempts + 1 ∧
      Writes tables tables' captureId (claimedRecord now timestamp leaseMillis record) := by
  rw [claimOne] at hrun
  split at hrun
  · obtain ⟨rfl, rfl⟩ := Prod.mk.inj hrun
    exact Or.inl ⟨rfl, rfl⟩
  · rename_i record hget
    split_ifs at hrun with hskip
    · obtain ⟨rfl, rfl⟩ := Prod.mk.inj hrun
      exact Or.inl ⟨rfl, rfl⟩
    · obtain ⟨rfl, rfl⟩ := Prod.mk.inj hrun
      rw [not_or, not_not] at hskip
      obtain ⟨hpending, hdue⟩ := hskip
      have hid := hconsistent.rowKeys captureId record hget
      have hpos := hconsistent.stateCount_pos hget
      rw [hpending] at hpos
      refine Or.inr ⟨record, hget, hpending, hdue, rfl, rfl, ⟨rfl, ?_, ?_, ?_, ?_⟩⟩
      · simp [hget, pendingKey, hpending, claimedRecord, hid, Table.removeKey?,
          Table.insertKey?]
      · simp [hget, inflightKey, hpending, claimedRecord, hid, Table.removeKey?,
          Table.insertKey?]
      · simp [hget]
      · intro state
        simp only [DeliveryCounters.ofState] at hpos
        cases state <;>
          simp [hget, stateWeight, claimedRecord, hpending, DeliveryCounters.ofState]
        omega

/-- `finish_many` writes the verdict over whatever row it finds. -/
theorem finishOne_cases {now : UInt64} {timestamp : String} {update : DeliveryUpdate}
    (hok : finishOne now timestamp tables update = .ok tables') :
    ∃ record, tables.deliveries.get? update.captureId = some record ∧
      tables'.counters.attempts = tables.counters.attempts ∧
      Writes tables tables' update.captureId
        (finishedRecord now timestamp update record) := by
  rw [finishOne] at hok
  split at hok
  · cases hok
  · rename_i record hget
    have hok := Except.ok.inj hok
    subst hok
    have hid := hconsistent.rowKeys update.captureId record hget
    have hpos := hconsistent.stateCount_pos hget
    refine ⟨record, hget, by simp, ⟨rfl, ?_, ?_, ?_, ?_⟩⟩
    · rw [hget, Option.bind_some]
      by_cases hold : record.state = .pending <;>
        by_cases hnew : update.state = .pending <;>
          simp [pendingKey, hold, hnew, finishedRecord, hid, Table.removeKey?,
            Table.insertKey?]
    · rw [hget, Option.bind_some]
      have hnew : inflightKey update.captureId
          (finishedRecord now timestamp update record) = none := by
        simp [inflightKey, finishedRecord, update.settles]
      rw [hnew]
      by_cases hold : record.state = .inflight <;>
        simp [inflightKey, hold, hid, Table.removeKey?, Table.insertKey?]
    · simp [hget]
    · intro state
      rw [hget]
      exact decrement_increment_stateCount hpos

/-- `requeue_failed` skips an id or moves its failed row to pending and forgets
its attempts. -/
theorem requeueOne_cases {now : UInt64} {reason : String}
    {requeued requeued' : List String} {captureId : String}
    (hrun : requeueOne now reason (tables, requeued) captureId = (tables', requeued')) :
    (tables' = tables ∧ requeued' = requeued ∧
      ∀ record, tables.deliveries.get? captureId = some record → record.state ≠ .failed) ∨
    ∃ record, tables.deliveries.get? captureId = some record ∧
      record.state = .failed ∧ requeued' = requeued ++ [captureId] ∧
      tables'.counters.attempts = tables.counters.attempts ∧
      Writes tables tables' captureId (requeuedRecord now reason record) := by
  rw [requeueOne] at hrun
  split at hrun
  · rename_i hget
    obtain ⟨rfl, rfl⟩ := Prod.mk.inj hrun
    exact Or.inl ⟨rfl, rfl, by simp [hget]⟩
  · rename_i record hget
    split_ifs at hrun with hfailed
    · obtain ⟨rfl, rfl⟩ := Prod.mk.inj hrun
      refine Or.inl ⟨rfl, rfl, ?_⟩
      intro record' hget'
      rw [hget, Option.some.injEq] at hget'
      exact hget' ▸ hfailed
    · obtain ⟨rfl, rfl⟩ := Prod.mk.inj hrun
      have hid := hconsistent.rowKeys captureId record hget
      have hpos := hconsistent.stateCount_pos hget
      have hstate := not_not.mp hfailed
      refine Or.inr ⟨record, hget, hstate, rfl, by simp, ⟨rfl, ?_, ?_, ?_, ?_⟩⟩
      · simp [hget, pendingKey, hstate, requeuedRecord, hid, Table.removeKey?,
          Table.insertKey?]
      · simp [hget, inflightKey, hstate, requeuedRecord, Table.removeKey?, Table.insertKey?]
      · simp [hget]
      · intro state
        rw [hget]
        exact decrement_increment_stateCount hpos

/-- The row an entry of the inflight index stands for. -/
theorem inflight_entry {row : String × String}
    (hentry : tables.inflight.get? row.1 = some row.2) :
    ∃ record, tables.deliveries.get? row.2 = some record ∧ record.state = .inflight ∧
      row.1 = deliveryIndexKey record.leaseUntilUnixMs row.2 := by
  obtain ⟨record, hget, hkey⟩ := (hconsistent.inflightIndex row.1 row.2).mp hentry
  unfold inflightKey at hkey
  split_ifs at hkey with hstate
  exact ⟨record, hget, hstate, (Option.some.inj hkey).symm⟩

/-- Releasing an indexed row: what reclaim and startup write. -/
theorem released_writes {row : String × String} {record : DeliveryRecord}
    (reason : String) (hentry : tables.inflight.get? row.1 = some row.2)
    (hget : tables.deliveries.get? row.2 = some record) :
    Writes tables
      { deliveries := tables.deliveries.insert record.captureId
          (releasedRecord reason record)
        pending := tables.pending.insert (deliveryIndexKey 0 record.captureId)
          record.captureId
        inflight := tables.inflight.remove row.1
        counters := incrementDeliveryState
          (decrementDeliveryState tables.counters .inflight) .pending }
      row.2 (releasedRecord reason record) := by
  obtain ⟨record', hget', hstate, hkey⟩ := inflight_entry hconsistent hentry
  rw [hget, Option.some.injEq] at hget'
  subst hget'
  have hid := hconsistent.rowKeys row.2 record hget
  have hpos := hconsistent.stateCount_pos hget
  rw [hstate] at hpos
  refine ⟨by rw [hid], ?_, ?_, ?_, ?_⟩
  · simp [hget, pendingKey, hstate, releasedRecord, hid, Table.removeKey?,
      Table.insertKey?]
  · simp [hget, inflightKey, hstate, releasedRecord, hkey, Table.removeKey?,
      Table.insertKey?]
  · simp [hget]
  · intro state
    rw [hget, Option.map_some, Option.getD_some, stateWeight, hstate]
    exact decrement_increment_stateCount hpos

/-- `reclaim_expired_inflight` releases every index row it was given: its checks
never skip one. -/
theorem reclaimOne_eq {now : UInt64} (reclaimed : List String) {row : String × String}
    (hentry : tables.inflight.get? row.1 = some row.2)
    (hexpired : ∃ due, deliveryIndexDue row.1 = some due ∧ due ≤ now) :
    ∃ record tables', tables.deliveries.get? row.2 = some record ∧
      record.state = .inflight ∧
      row.1 = deliveryIndexKey record.leaseUntilUnixMs row.2 ∧
      reclaimOne now (tables, reclaimed) row = (tables', reclaimed ++ [row.2]) ∧
      tables'.counters.attempts = tables.counters.attempts ∧
      Writes tables tables' row.2 (releasedRecord leaseExpiredError record) := by
  obtain ⟨record, hget, hstate, hkey⟩ := inflight_entry hconsistent hentry
  have hid := hconsistent.rowKeys row.2 record hget
  have hwrites := released_writes hconsistent leaseExpiredError hentry hget
  obtain ⟨due, hdue, hle⟩ := hexpired
  have hsame : deliveryIndexDue row.1 = some record.leaseUntilUnixMs := by
    rw [hkey, deliveryIndexDue_key]
  have hlease : ¬ now < record.leaseUntilUnixMs := by
    rw [hsame, Option.some.injEq] at hdue
    rw [hdue]
    exact UInt64.not_lt.mpr hle
  refine ⟨record, _, hget, hstate, hkey, ?_, ?_, hwrites⟩
  · rw [reclaimOne, hget]
    simp only [hstate, hlease, hsame, ne_eq, not_true_eq_false, or_self, if_false]
    simp [releasedRecord, hid]
  · simp

/-- The recovery of startup releases every index row. -/
theorem recoverInflightRow_eq {row : String × String}
    (hentry : tables.inflight.get? row.1 = some row.2) :
    ∃ record tables', tables.deliveries.get? row.2 = some record ∧
      record.state = .inflight ∧
      row.1 = deliveryIndexKey record.leaseUntilUnixMs row.2 ∧
      recoverInflightRow tables row = .ok tables' ∧
      tables'.counters.attempts = tables.counters.attempts ∧
      Writes tables tables' row.2 (releasedRecord leaseRecoveredError record) := by
  obtain ⟨record, hget, hstate, hkey⟩ := inflight_entry hconsistent hentry
  have hwrites := released_writes hconsistent leaseRecoveredError hentry hget
  refine ⟨record, _, hget, hstate, hkey, ?_, ?_, hwrites⟩
  · rw [recoverInflightRow, hget]
    rfl
  · simp

end LoopBodies

end ChipTrace
