/-
The writer of a capture store: sealing and creating segments, the commit of a
batch of records, flush and shutdown.
-/
import ChipTrace.Store.Ledger

namespace ChipTrace.CaptureStore

variable (sha256 : Bytes → String) (config : StoreConfig)

section Segments

def LedgerCounters.addSealed (counters : LedgerCounters) (bytes : Nat) : LedgerCounters :=
  { counters with
    sealedSegments := counters.sealedSegments + 1
    sealedBytes := counters.sealedBytes + bytes }

/-- Seal the active segment: rename its file, then enter it as sealed and count it. -/
def sealActive : StoreM SegmentMetadata := do
  let world ← Eff.get
  if world.active.metadata.records = 0 then fail "refusing to seal an empty WAL segment"
  else do
    sync config
    let openPath := world.active.path
    let digest := sha256 world.active.digest
    rename openPath openPath.sealedName
    sync config
    let sealedAt ← utcNow
    onActive fun active =>
      { active with
        path := openPath.sealedName
        metadata := { active.metadata with
          path := openPath.sealedName
          state := .sealed
          sealedAt := some sealedAt
          sha256 := some digest } }
    let world ← Eff.get
    let metadata := world.active.metadata
    let counters ← readCounters
    effect fun disk =>
      { disk with
        segments := disk.segments.insert metadata.segmentId metadata
        counters := some (counters.addSealed metadata.bytes) }
    pure metadata

/-- A new, empty segment with the id after the greatest one. -/
def createActiveSegment : StoreM ActiveSegment := do
  let world ← Eff.get
  let segmentId := Disk.nextKey world.disk.segments
  let path := openFile segmentId
  createNew path
  sync config
  let createdAt ← utcNow
  let metadata : SegmentMetadata :=
    { segmentId, path, state := .open, bytes := 0, records := 0, createdAt
      sealedAt := none, sha256 := none }
  effect fun disk => { disk with segments := disk.segments.insert segmentId metadata }
  pure { metadata, path, handle := path, digest := [] }

/-- Seal the active segment and go on with a new one. -/
def rotate : StoreM SegmentMetadata := do
  let finished ← sealActive sha256 config
  let active ← createActiveSegment config
  onActive fun _ => active
  pure finished

end Segments

section Commit

inductive SubmitErrorKind where
  | conflict
  | unavailable
  deriving DecidableEq, Repr

structure SubmitError where
  kind : SubmitErrorKind
  message : String
  deriving DecidableEq

structure BatchCommit where
  results : List (Except SubmitError SubmitAck)
  counters : LedgerCounters

/-- Where a duplicate's original lies: in the ledger, or earlier in the batch. -/
inductive DuplicateSource where
  | existing (locator : CaptureLocator)
  | batch (primary : Nat)

/-- The batch sorted into first captures, duplicates and conflicts, by index. -/
structure Sorted where
  primaryById : Table String (Nat × CaptureRecord)
  pending : List (Nat × CaptureRecord)
  duplicates : List ((Nat × CaptureRecord) × DuplicateSource)
  conflicts : List (Nat × CaptureRecord)

def Sorted.empty : Sorted := ⟨.empty, [], [], []⟩

/-- Decide one record by the ledger and the records before it in the batch. -/
def Sorted.add (captures : Table String CaptureLocator) (sorted : Sorted)
    (task : Nat × CaptureRecord) : Sorted :=
  match captures.get? task.2.captureId with
  | some locator =>
      if task.2.matchesPersistedSha256 locator.rawSha256 then
        { sorted with duplicates := sorted.duplicates ++ [(task, .existing locator)] }
      else { sorted with conflicts := sorted.conflicts ++ [task] }
  | none =>
      match sorted.primaryById.get? task.2.captureId with
      | some primary =>
          if primary.2.sha256 = task.2.sha256 then
            { sorted with duplicates := sorted.duplicates ++ [(task, .batch primary.1)] }
          else { sorted with conflicts := sorted.conflicts ++ [task] }
      | none =>
          { sorted with
            primaryById := sorted.primaryById.insert task.2.captureId task
            pending := sorted.pending ++ [task] }

def sortBatch (captures : Table String CaptureLocator) (tasks : List (Nat × CaptureRecord)) :
    Sorted :=
  tasks.foldl (Sorted.add captures) .empty

/-- Rotate where a record would not fit. -/
def makeRoom (record : CaptureRecord) : StoreM Unit := do
  let world ← Eff.get
  if 0 < world.active.metadata.records ∧
      config.segmentMaxBytes < world.active.metadata.bytes + (record.canonical.length + 1) then do
    let _ ← rotate sha256 config
    pure ()
  else pure ()

/-- The segment with one more record in it. -/
def ActiveSegment.addRecord (active : ActiveSegment) (record : CaptureRecord) : ActiveSegment :=
  { active with
    digest := active.digest ++ record.line
    metadata := { active.metadata with
      bytes := active.metadata.bytes + (record.canonical.length + 1)
      records := active.metadata.records + 1 } }

/-- Append a record to the active segment. -/
def writeRecord (task : Nat × CaptureRecord) : StoreM (Nat × CaptureLocator) := do
  makeRoom sha256 config task.2
  let world ← Eff.get
  writeAll task.2.canonical
  writeAll [10]
  onActive fun active => active.addRecord task.2
  pure (task.1, task.2.locator world.active.metadata.segmentId world.active.metadata.bytes)

/-- The locator of a duplicate's original. -/
def resolveDuplicate (primaries : Table Nat CaptureLocator)
    (duplicate : (Nat × CaptureRecord) × DuplicateSource) :
    StoreM ((Nat × CaptureRecord) × CaptureLocator) :=
  match duplicate.2 with
  | .existing locator => pure (duplicate.1, locator)
  | .batch primary =>
      match primaries.get? primary with
      | some locator => pure (duplicate.1, locator)
      | none => fail "batch primary locator missing"

def attemptRow (now : String) (captureId rawSha256 : String) (state : AttemptState)
    (reason : Option String) (segmentId : Option Nat) (attemptId : Nat) : Attempt :=
  { attemptId, captureId := some captureId, rawSha256 := some rawSha256, state, reason
    receivedAt := now, committedAt := some now, segmentId }

/-- The attempts of a batch, each still without its id. -/
def attemptRows (now : String) (sorted : Sorted) (pending : List (Nat × CaptureLocator))
    (duplicates : List ((Nat × CaptureRecord) × CaptureLocator)) : List (Nat → Attempt) :=
  (sorted.pending.zip pending).map (fun row =>
      attemptRow now row.1.2.captureId row.1.2.sha256 .accepted none (some row.2.2.segmentId)) ++
    duplicates.map (fun row =>
      attemptRow now row.1.2.captureId row.2.rawSha256 .duplicate (some "already_committed")
        (some row.2.segmentId)) ++
    sorted.conflicts.map fun task =>
      attemptRow now task.2.captureId task.2.sha256 .conflict
        (some "same_capture_id_different_payload") none

/-- Rows with consecutive ids. -/
def numberRows (first : Nat) (rows : List (Nat → Attempt)) : List (Nat × Attempt) :=
  rows.zipIdx.map fun row => (first + row.2, row.1 (first + row.2))

def LedgerCounters.addBatch (counters : LedgerCounters)
    (attempts accepted duplicates conflicts : Nat) (now : String) : LedgerCounters :=
  { counters with
    captures := counters.captures + accepted
    attempts := counters.attempts + attempts
    acceptedAttempts := counters.acceptedAttempts + accepted
    duplicateAttempts := counters.duplicateAttempts + duplicates
    conflictAttempts := counters.conflictAttempts + conflicts
    lastCommitAt := some now }

def conflictError : SubmitError :=
  ⟨.conflict, "captureId was reused with different payload bytes"⟩

/-- The results in the order of the batch. -/
def batchResults (tasks : List (Nat × CaptureRecord)) (pending duplicates : Table Nat CaptureLocator)
    (conflicts : List Nat) : StoreM (List (Except SubmitError SubmitAck)) :=
  Eff.forEach tasks fun task =>
    match pending.get? task.1 with
    | some locator => pure (.ok (ack locator false "accepted"))
    | none =>
        match duplicates.get? task.1 with
        | some locator => pure (.ok (ack locator true "duplicate"))
        | none =>
            if conflicts.contains task.1 then pure (.error conflictError)
            else fail "batch task has no durable outcome"

def syncWritten (pending : List (Nat × CaptureLocator)) : StoreM Unit :=
  if pending.isEmpty then pure () else sync config

/-- Commit a batch: append the first captures, then enter all attempts in one transaction. -/
def commitBatchInner (batch : List CaptureRecord) : StoreM BatchCommit := do
  let tasks := batch.zipIdx.map fun task => (task.2, task.1)
  let world ← Eff.get
  let sorted := sortBatch world.disk.captures tasks
  let pending ← Eff.forEach sorted.pending (writeRecord sha256 config)
  syncWritten config pending
  let duplicates ← Eff.forEach sorted.duplicates
    (resolveDuplicate (Table.empty.insertAll pending))
  let now ← utcNow
  let counters ← readCounters
  let world ← Eff.get
  let rows := attemptRows now sorted pending duplicates
  let active := world.active.metadata
  let counters := counters.addBatch batch.length pending.length duplicates.length
    sorted.conflicts.length now
  Eff.modify fun world => { world with nextAttemptId := world.nextAttemptId + rows.length }
  effect fun disk =>
    { disk with
      captures := disk.captures.insertAll (pending.map fun row => (row.2.captureId, row.2))
      attempts := disk.attempts.insertAll (numberRows world.nextAttemptId rows)
      segments := disk.segments.insert active.segmentId active
      counters := some counters }
  let results ← batchResults tasks (Table.empty.insertAll pending)
    (Table.empty.insertAll (duplicates.map fun row => (row.1.1, row.2)))
    (sorted.conflicts.map Prod.fst)
  if 0 < active.records then do
    let aged ← isAged
    if config.segmentMaxBytes ≤ active.bytes ∨ aged then do
      let _ ← rotate sha256 config
      let counters ← readCounters
      pure { results, counters }
    else pure { results, counters }
  else pure { results, counters }

end Commit

section Commands

/-- The flush command, with the counters that are reported afterwards; an empty segment stays
as it is and nothing is reported. -/
def sealAndRotate : StoreM (SegmentMetadata × Option LedgerCounters) := do
  let world ← Eff.get
  if world.active.metadata.records = 0 then do
    sync config
    pure (world.active.metadata, none)
  else do
    let finished ← rotate sha256 config
    let counters ← readCounters
    pure (finished, some counters)

def shutdownActive : StoreM Unit := do
  let world ← Eff.get
  if world.active.metadata.records = 0 then sync config
  else do
    let _ ← sealActive sha256 config
    pure ()

end Commands

end ChipTrace.CaptureStore
