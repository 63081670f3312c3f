/-
The operations of the delivery ledger, each one a database transaction: it
either commits the tables its loop produced or leaves the ledger as it was.
Clock readings are arguments.
-/
import ChipTrace.Ledger.Types

namespace ChipTrace

/-- The tables and the decoded counters a write transaction works on. -/
structure DeliveryTables where
  deliveries : Table String DeliveryRecord
  pending : Table String String
  inflight : Table String String
  counters : DeliveryCounters
  deriving DecidableEq

namespace DeliveryLedger

def readDeliveryCounters (ledger : DeliveryLedger) : Except String DeliveryCounters :=
  match ledger.metadata.deliveryCounters with
  | some counters => .ok counters
  | none => .error "Relay delivery counters are missing"

def beginWrite (ledger : DeliveryLedger) : Except String DeliveryTables := do
  let counters ← ledger.readDeliveryCounters
  pure ⟨ledger.deliveries, ledger.pendingDeliveries, ledger.inflightDeliveries, counters⟩

def commit (ledger : DeliveryLedger) (tables : DeliveryTables) : DeliveryLedger :=
  { deliveries := tables.deliveries
    pendingDeliveries := tables.pending
    inflightDeliveries := tables.inflight
    metadata := { ledger.metadata with deliveryCounters := some tables.counters } }

end DeliveryLedger

/-- `now` plus a lease in milliseconds, capped at the greatest clock value. -/
def leaseUntil (now : UInt64) (leaseMillis : Nat) : UInt64 :=
  UInt64.ofNat (U64.saturatingAdd now.toNat (min leaseMillis (U64.limit - 1)))

/-- `now` plus a retry delay, whose millisecond count is first truncated. -/
def retryAt (now : UInt64) (delayMillis : Nat) : UInt64 :=
  UInt64.ofNat (U64.saturatingAdd now.toNat (delayMillis % U64.limit))

/-- An error text cut to 500 characters. -/
def errorText (text : String) : String := String.ofList (text.toList.take 500)

/-- The row a new locator gets. -/
def newDelivery (locator : CaptureLocator) : DeliveryRecord :=
  { captureId := locator.captureId
    rawSha256 := locator.rawSha256
    bytes := locator.length
    state := .pending
    attempts := 0
    nextAttemptUnixMs := 0
    leaseUntilUnixMs := 0
    lastAttemptAt := none
    deliveredAt := none
    lastError := none }

def ensureOne (work : DeliveryTables × Nat) (locator : CaptureLocator) :
    Except String (DeliveryTables × Nat) :=
  let (tables, inserted) := work
  match tables.deliveries.get? locator.captureId with
  | some existing =>
      if existing.rawSha256 ≠ locator.rawSha256 then
        .error ("delivery ledger capture hash conflict: " ++ locator.captureId)
      else if existing.bytes = 0 then
        .ok ({ tables with
          deliveries := tables.deliveries.insert locator.captureId
            { existing with bytes := locator.length } }, inserted)
      else if existing.bytes ≠ locator.length then
        .error ("delivery ledger capture length conflict: " ++ locator.captureId)
      else .ok (tables, inserted)
  | none =>
      .ok ({ tables with
        deliveries := tables.deliveries.insert locator.captureId (newDelivery locator)
        pending := tables.pending.insert (deliveryIndexKey 0 locator.captureId)
          locator.captureId
        counters := { tables.counters with
          total := tables.counters.total + 1
          pending := tables.counters.pending + 1 } }, inserted + 1)

def claimedRecord (now : UInt64) (timestamp : String) (leaseMillis : Nat)
    (record : DeliveryRecord) : DeliveryRecord :=
  { record with
    state := .inflight
    attempts := record.attempts + 1
    lastAttemptAt := some timestamp
    leaseUntilUnixMs := leaseUntil now leaseMillis }

def claimOne (now : UInt64) (timestamp : String) (leaseMillis : Nat)
    (work : DeliveryTables × List DeliveryRecord) (captureId : String) :
    DeliveryTables × List DeliveryRecord :=
  let (tables, claimed) := work
  match tables.deliveries.get? captureId with
  | none => (tables, claimed)
  | some record =>
      if record.state ≠ .pending ∨ now < record.nextAttemptUnixMs then (tables, claimed)
      else
        let updated := claimedRecord now timestamp leaseMillis record
        ({ deliveries := tables.deliveries.insert captureId updated
           pending := tables.pending.remove
             (deliveryIndexKey record.nextAttemptUnixMs record.captureId)
           inflight := tables.inflight.insert
             (deliveryIndexKey updated.leaseUntilUnixMs updated.captureId) updated.captureId
           counters := { tables.counters with
             pending := tables.counters.pending - 1
             inflight := tables.counters.inflight + 1
             attempts := tables.counters.attempts + 1 } },
          claimed ++ [updated])

def finishedRecord (now : UInt64) (timestamp : String) (update : DeliveryUpdate)
    (record : DeliveryRecord) : DeliveryRecord :=
  { record with
    state := update.state
    lastError := update.error.map errorText
    nextAttemptUnixMs := (update.nextAttempt.map (retryAt now)).getD 0
    leaseUntilUnixMs := 0
    deliveredAt :=
      if update.state = .delivered then some timestamp else record.deliveredAt }

def finishOne (now : UInt64) (timestamp : String) (tables : DeliveryTables)
    (update : DeliveryUpdate) : Except String DeliveryTables :=
  match tables.deliveries.get? update.captureId with
  | none => .error ("delivery record missing: " ++ update.captureId)
  | some record =>
      let updated := finishedRecord now timestamp update record
      .ok {
        deliveries := tables.deliveries.insert update.captureId updated
        pending :=
          let pending :=
            if record.state = .pending then tables.pending.remove
              (deliveryIndexKey record.nextAttemptUnixMs record.captureId)
            else tables.pending
          if update.state = .pending then pending.insert
            (deliveryIndexKey updated.nextAttemptUnixMs updated.captureId) updated.captureId
          else pending
        inflight :=
          if record.state = .inflight then tables.inflight.remove
            (deliveryIndexKey record.leaseUntilUnixMs record.captureId)
          else tables.inflight
        counters := incrementDeliveryState
          (decrementDeliveryState tables.counters record.state) update.state }

def requeuedRecord (now : UInt64) (reason : String) (record : DeliveryRecord) :
    DeliveryRecord :=
  { record with
    state := .pending
    attempts := 0
    nextAttemptUnixMs := now
    leaseUntilUnixMs := 0
    lastError := some (errorText reason) }

def requeueOne (now : UInt64) (reason : String) (work : DeliveryTables × List String)
    (captureId : String) : DeliveryTables × List String :=
  let (tables, requeued) := work
  match tables.deliveries.get? captureId with
  | none => (tables, requeued)
  | some record =>
      if record.state ≠ .failed then (tables, requeued)
      else
        let updated := requeuedRecord now reason record
        ({ tables with
          deliveries := tables.deliveries.insert captureId updated
          pending := tables.pending.insert
            (deliveryIndexKey updated.nextAttemptUnixMs updated.captureId) updated.captureId
          counters := incrementDeliveryState
            (decrementDeliveryState tables.counters record.state) .pending },
          requeued ++ [captureId])

/-- A record whose lease ended without a verdict. -/
def releasedRecord (reason : String) (record : DeliveryRecord) : DeliveryRecord :=
  { record with
    state := .pending
    nextAttemptUnixMs := 0
    leaseUntilUnixMs := 0
    lastError := some reason }

def leaseExpiredError : String := "delivery lease expired; retry scheduled"

def leaseRecoveredError : String := "delivery lease recovered during startup"

def reclaimOne (now : UInt64) (work : DeliveryTables × List String)
    (row : String × String) : DeliveryTables × List String :=
  let (tables, reclaimed) := work
  let inflight := tables.inflight.remove row.1
  match tables.deliveries.get? row.2 with
  | none => ({ tables with inflight := inflight }, reclaimed)
  | some record =>
      if record.state ≠ .inflight ∨ now < record.leaseUntilUnixMs ∨
          deliveryIndexDue row.1 ≠ some record.leaseUntilUnixMs then
        ({ tables with inflight := inflight }, reclaimed)
      else
        let updated := releasedRecord leaseExpiredError record
        ({ deliveries := tables.deliveries.insert updated.captureId updated
           pending := tables.pending.insert (deliveryIndexKey 0 updated.captureId)
             updated.captureId
           inflight := inflight
           counters := incrementDeliveryState
             (decrementDeliveryState tables.counters record.state) .pending },
          reclaimed ++ [updated.captureId])

/-- The index rows a reclaim looks at: at most `limit`, and only while expired. -/
def expiredRows (now : UInt64) (limit : Nat) (inflight : Table String String) :
    List (String × String) :=
  (inflight.entries.take limit).takeWhile fun row =>
    match deliveryIndexDue row.1 with
    | some due => decide (due ≤ now)
    | none => false

namespace DeliveryLedger

def ensureMany (ledger : DeliveryLedger) (locators : List CaptureLocator) :
    Except String (Nat × DeliveryLedger) := do
  let tables ← ledger.beginWrite
  let (tables, inserted) ← locators.foldlM ensureOne (tables, 0)
  pure (inserted, ledger.commit tables)

def claimMany (ledger : DeliveryLedger) (now : UInt64) (timestamp : String)
    (captureIds : List String) (leaseMillis : Nat) :
    Except String (List DeliveryRecord × DeliveryLedger) := do
  let tables ← ledger.beginWrite
  let (tables, claimed) := captureIds.foldl (claimOne now timestamp leaseMillis) (tables, [])
  pure (claimed, ledger.commit tables)

def finishMany (ledger : DeliveryLedger) (now : UInt64) (timestamp : String)
    (updates : List DeliveryUpdate) : Except String DeliveryLedger := do
  let tables ← ledger.beginWrite
  let tables ← updates.foldlM (finishOne now timestamp) tables
  pure (ledger.commit tables)

def requeueFailed (ledger : DeliveryLedger) (now : UInt64) (captureIds : List String)
    (reason : String) : Except String (List String × DeliveryLedger) :=
  if captureIds = [] then .ok ([], ledger)
  else do
    let tables ← ledger.beginWrite
    let (tables, requeued) := captureIds.foldl (requeueOne now reason) (tables, [])
    pure (requeued, ledger.commit tables)

def reclaimExpiredInflight (ledger : DeliveryLedger) (now : UInt64) (limit : Nat) :
    Except String (List String × DeliveryLedger) :=
  if limit = 0 then .ok ([], ledger)
  else do
    let tables ← ledger.beginWrite
    let (tables, reclaimed) :=
      (expiredRows now limit tables.inflight).foldl (reclaimOne now) (tables, [])
    pure (reclaimed, ledger.commit tables)

/-- Failed ids in table order; the limit is checked after each push. -/
def failedIdsFrom (limit : Nat) :
    List (String × DeliveryRecord) → List String → List String
  | [], output => output
  | (_, record) :: rest, output =>
      if record.state ≠ .failed then failedIdsFrom limit rest output
      else
        let output := output ++ [record.captureId]
        if limit ≤ output.length then output else failedIdsFrom limit rest output

def failedIds (ledger : DeliveryLedger) (limit : Nat) : List String :=
  failedIdsFrom limit ledger.deliveries.entries []

/-- Due ids in index order, up to the first one that is not due yet. -/
def pendingIdsFrom (now : UInt64) (limit : Nat) :
    List (String × String) → List String → Except String (List String)
  | [], output => .ok output
  | (key, captureId) :: rest, output =>
      match deliveryIndexDue key with
      | none => .error "invalid pending delivery key"
      | some due =>
          if now < due then .ok output
          else
            let output := output ++ [captureId]
            if limit ≤ output.length then .ok output
            else pendingIdsFrom now limit rest output

def pendingIds (ledger : DeliveryLedger) (now : UInt64) (limit : Nat) :
    Except String (List String) :=
  pendingIdsFrom now limit ledger.pendingDeliveries.entries []

def deliverySchemaVersion : String := "chiptrace.delivery-ledger.v1"

/-- What `read_ingest_quality_seed` makes of the seed file beside the ledger. -/
def readIngestQualitySeed (seed : Except String (Option IngestQualitySeed)) :
    Except String (Option IngestQualityCounters) := do
  match ← seed with
  | none => pure none
  | some seed => do
      let counters ← seed.intoCounters
      pure (some counters)

/-- The schema version `open` finds or stores. -/
def checkSchema (ledger : DeliveryLedger) : Except String String :=
  match ledger.metadata.schemaVersion with
  | some version =>
      if version ≠ deliverySchemaVersion then
        .error "unsupported Relay delivery ledger schema"
      else .ok version
  | none => .ok deliverySchemaVersion

/-- The schema check and the one-time quality migration of `open`. -/
def openMeta (ledger : DeliveryLedger) (seed : Except String (Option IngestQualitySeed)) :
    Except String DeliveryLedger := do
  let version ← ledger.checkSchema
  match ledger.metadata.ingestQualityCounters with
  | some _ =>
      pure { ledger with metadata := { ledger.metadata with schemaVersion := some version } }
  | none => do
      let qualitySeed ← readIngestQualitySeed seed
      if 0 < ledger.deliveries.len ∧ qualitySeed = none then
        .error ("Relay delivery ledger requires ingest quality history migration; " ++
          "create ingest-quality-seed.json beside the ledger")
      else do
        let counters ← (qualitySeed.getD default).reconcileReasonMaps
        pure { ledger with metadata := { ledger.metadata with
          schemaVersion := some version
          ingestQualityCounters := some counters } }

/-- Every row of the inflight index names a record that is in flight until then. -/
def indexedInflightValid (ledger : DeliveryLedger) : Bool :=
  ledger.inflightDeliveries.entries.all fun row =>
    match ledger.deliveries.get? row.2 with
    | none => false
    | some record =>
        record.state == .inflight && record.captureId == row.2 &&
          deliveryIndexDue row.1 == some record.leaseUntilUnixMs

def recoverInflightRow (tables : DeliveryTables) (row : String × String) :
    Except String DeliveryTables :=
  match tables.deliveries.get? row.2 with
  | none => .error "inflight delivery row disappeared"
  | some record =>
      let updated := releasedRecord leaseRecoveredError record
      .ok {
        deliveries := tables.deliveries.insert updated.captureId updated
        pending := tables.pending.insert (deliveryIndexKey 0 updated.captureId)
          updated.captureId
        inflight := tables.inflight.remove row.1
        counters := { tables.counters with
          inflight := tables.counters.inflight - 1
          pending := tables.counters.pending + 1 } }

/-- Startup without a scan of the deliveries; `none` asks for the rebuild. -/
def fastStartup (ledger : DeliveryLedger) : Except String (Option DeliveryLedger) :=
  match ledger.metadata.deliveryCounters with
  | none => .ok none
  | some counters =>
      if counters.total ≠ ledger.deliveries.len ∨
          counters.pending ≠ ledger.pendingDeliveries.len ∨
          counters.inflight ≠ ledger.inflightDeliveries.len then .ok none
      else if counters.inflight = 0 then .ok (some ledger)
      else if ledger.indexedInflightValid = false then .ok none
      else do
        let tables ← ledger.inflightDeliveries.entries.foldlM recoverInflightRow
          ⟨ledger.deliveries, ledger.pendingDeliveries, ledger.inflightDeliveries, counters⟩
        pure (some (ledger.commit tables))

/-- Put a row that was in flight back to pending. -/
def rebuildRow (deliveries : Table String DeliveryRecord) (key : String) :
    Table String DeliveryRecord :=
  match deliveries.get? key with
  | none => deliveries
  | some record =>
      if record.state = .inflight then
        deliveries.insert key
          { record with state := .pending, nextAttemptUnixMs := 0, leaseUntilUnixMs := 0 }
      else deliveries

/-- The pending index rows that the records call for. -/
def pendingRows (deliveries : Table String DeliveryRecord) : List (String × String) :=
  deliveries.entries.filterMap fun row =>
    if row.2.state = .pending then
      some (deliveryIndexKey row.2.nextAttemptUnixMs row.2.captureId, row.2.captureId)
    else none

/-- The full rebuild of the indexes and counters from the records. -/
def rebuild (ledger : DeliveryLedger) : DeliveryLedger :=
  let deliveries := ledger.deliveries.keys.foldl rebuildRow ledger.deliveries
  ledger.commit
    { deliveries := deliveries
      pending := (ledger.pendingDeliveries.removeAll ledger.pendingDeliveries.keys).insertAll
        (pendingRows deliveries)
      inflight := ledger.inflightDeliveries.removeAll ledger.inflightDeliveries.keys
      counters := deliveryCountersFromTable deliveries }

def openLedger (ledger : DeliveryLedger) (seed : Except String (Option IngestQualitySeed)) :
    Except String DeliveryLedger := do
  let ledger ← ledger.openMeta seed
  match ← ledger.fastStartup with
  | some ledger => pure ledger
  | none => pure ledger.rebuild

/-- A database after its first open. -/
def fresh : DeliveryLedger :=
  ⟨Table.empty, Table.empty, Table.empty,
    ⟨some deliverySchemaVersion, some DeliveryCounters.zero,
      some IngestQualityCounters.zero, none⟩⟩

theorem openLedger_fresh : created.openLedger (.ok none) = .ok fresh := by decide

end DeliveryLedger

end ChipTrace
