/-
Opening a capture store: the ledger is set up, what the segment files hold beyond
it is entered, and the active segment is found or created.  Then the store as a
machine whose commands may end in failures and crashes.
-/
import ChipTrace.Store.Writer
import ChipTrace.Lib.Machine

namespace ChipTrace.CaptureStore

variable (sha256 : Bytes → String) (config : StoreConfig)

section Open

def initializeDatabase : StoreM Unit := do
  let world ← Eff.get
  let existing := world.disk.schemaVersion.getD ledgerSchemaVersion
  if existing ≠ ledgerSchemaVersion then fail s!"unsupported ledger schema {existing}"
  else effect fun disk =>
    { disk with
      schemaVersion := some existing
      counters := some (disk.counters.getD disk.countersFromTables) }

/-- The lines of a file that end in a newline, without it, and what follows the last. -/
def splitLines : Bytes → List Bytes × Bytes
  | [] => ([], [])
  | byte :: rest =>
      let (lines, tail) := splitLines rest
      if byte = 10 then ([] :: lines, tail)
      else match lines with
        | line :: more => ((byte :: line) :: more, tail)
        | [] => ([], byte :: tail)

/-- A line without the carriage return in front of its newline. -/
def dropReturn (line : Bytes) : Bytes :=
  if line.getLast? = some 13 then line.dropLast else line

/-- The rows that lines imply, from an offset on. -/
def readRows (segmentId : Nat) : Nat → List Bytes → Except Stop (List CaptureLocator)
  | _, [] => .ok []
  | offset, line :: rest =>
      match validateStoredCapture sha256 (dropReturn line) with
      | .error _ => .error (.failed s!"recover segment {segmentId} at offset {offset}")
      | .ok record => do
          let rows ← readRows segmentId (offset + (line.length + 1)) rest
          .ok ({ record.locator segmentId offset with length := line.length + 1 } :: rows)

def recoveredAttempt (committedAt : String) (locator : CaptureLocator) (attemptId : Nat) :
    Attempt :=
  { attemptId, captureId := some locator.captureId, rawSha256 := some locator.rawSha256
    state := .recovered, reason := some "wal_without_ledger_commit"
    receivedAt := locator.receivedAt.getD committedAt, committedAt := some committedAt
    segmentId := some locator.segmentId }

/-- What recovery has entered so far. -/
structure Recovered where
  disk : Disk
  nextAttemptId : Nat
  records : Nat
  ledgerChanged : Bool

/-- Enter one row into the tables of an open transaction. -/
def recoverRow (recovered : Recovered) (locator : CaptureLocator) : StoreM Recovered :=
  match recovered.disk.captures.get? locator.captureId with
  | some existing =>
      if existing.rawSha256 ≠ locator.rawSha256 then
        fail s!"captureId conflict during recovery: {locator.captureId}"
      else pure recovered
  | none => do
      let committedAt ← utcNow
      let id := recovered.nextAttemptId
      pure
        { disk :=
            { recovered.disk with
              captures := recovered.disk.captures.insert locator.captureId locator
              attempts := recovered.disk.attempts.insert id
                (recoveredAttempt committedAt locator id) }
          nextAttemptId := id + 1
          records := recovered.records + 1
          ledgerChanged := true }

def recoverRows (recovered : Recovered) : List CaptureLocator → StoreM Recovered
  | [] => pure recovered
  | locator :: rest => do
      let next ← recoverRow recovered locator
      recoverRows next rest

/-- A sealed file that the ledger already describes. -/
def isSettled (file : SegmentFile) (size : Nat) (existing : Option SegmentMetadata) : Bool :=
  (ofLex file).2 && existing.any fun metadata =>
    metadata.state == .sealed && metadata.path == file && metadata.bytes == size &&
      metadata.sha256.isSome

/-- The row of a segment file that was read to its end. -/
def recoveredMetadata (file : SegmentFile) (content : Bytes) (lines : List Bytes)
    (existing : Option SegmentMetadata) (createdAt sealedAt : String) : SegmentMetadata :=
  let isSealed := (ofLex file).2
  { segmentId := (ofLex file).1
    path := file
    state := if isSealed then .sealed else .open
    bytes := (lines.map fun line => line.length + 1).sum
    records := lines.length
    createdAt := (existing.map SegmentMetadata.createdAt).getD createdAt
    sealedAt := if isSealed then some ((existing.bind SegmentMetadata.sealedAt).getD sealedAt)
      else none
    sha256 := if isSealed then some (sha256 content) else none }

/-- Cut off the line that a crash left incomplete; a sealed segment must have none. -/
def cutTail (file : SegmentFile) (content tail : Bytes) : StoreM Unit :=
  if tail.isEmpty then pure ()
  else if (ofLex file).2 then fail "sealed segment has an incomplete tail"
  else effect fun disk =>
    { disk with files := disk.files.insert file (content.take (content.length - tail.length)) }

/-- Bring the ledger up to date with one segment file. -/
def recoverSegment (summary : Recovered) (file : SegmentFile) : StoreM Recovered := do
  let world ← Eff.get
  let content := (world.disk.files.get? file).getD []
  let segmentId := (ofLex file).1
  let existing := world.disk.segments.get? segmentId
  if isSettled file content.length existing then pure summary
  else do
    let (lines, tail) := splitLines content
    let rows ← Eff.lift (readRows sha256 segmentId 0 lines)
    cutTail file content tail
    let createdAt ← utcNow
    let sealedAt ← utcNow
    let metadata := recoveredMetadata sha256 file content lines existing createdAt sealedAt
    let world ← Eff.get
    let recovered ← recoverRows { summary with disk := world.disk } rows
    let changed := recovered.ledgerChanged || existing != some metadata
    effect fun _ =>
      { recovered.disk with segments := recovered.disk.segments.insert segmentId metadata }
    pure { recovered with ledgerChanged := changed }

def recoverFiles (summary : Recovered) : List SegmentFile → StoreM Recovered
  | [] => pure summary
  | file :: rest => do
      let next ← recoverSegment sha256 summary file
      recoverFiles next rest

def rebuildCounters : StoreM Unit :=
  effect fun disk => { disk with counters := some disk.countersFromTables }

def rebuildIf (changed : Bool) : StoreM Unit := if changed then rebuildCounters else pure ()

/-- Enter what the files hold beyond the ledger, then count again if anything changed. -/
def recoverSegments : StoreM Nat := do
  let world ← Eff.get
  let start : Recovered := ⟨world.disk, Disk.nextKey world.disk.attempts, 0, false⟩
  let summary ← recoverFiles sha256 start world.disk.files.keys
  rebuildIf summary.ledgerChanged
  pure summary.records

/-- Find the open segment, or create one. -/
def openActiveSegment : StoreM (ActiveSegment × Nat) := do
  let world ← Eff.get
  let nextAttempt := Disk.nextKey world.disk.attempts
  let isOpen := fun row : Nat × SegmentMetadata => row.2.state = .open
  match world.disk.segments.entries.filter isOpen with
  | [] => do
      let active ← createActiveSegment config
      pure (active, nextAttempt)
  | [(_, metadata)] =>
      match world.disk.files.get? metadata.path with
      | none => fail "No such file or directory"
      | some content =>
          pure ({ metadata, path := metadata.path, handle := metadata.path, digest := content },
            nextAttempt)
  | _ => fail "multiple open segments found"

/-- Open the writer; the number of recovered records comes back with the counters. -/
def openWriter : StoreM (Nat × LedgerCounters) := do
  initializeDatabase
  let recovered ← recoverSegments sha256
  let (active, nextAttemptId) ← openActiveSegment config
  Eff.modify fun world => { world with active, nextAttemptId }
  let counters ← readCounters
  pure (recovered, counters)

end Open

section Machine

/-- The writer's memory while it runs. -/
structure Writer where
  active : ActiveSegment
  nextAttemptId : Nat

/-- A store: its disk, its writer while one runs, and what its process last reported. -/
structure Store where
  disk : Disk
  writer : Option Writer
  runtime : Option RuntimeState

def Store.initial : Store := ⟨.empty, none, none⟩

inductive Command where
  | open
  | commit (batch : List CaptureRecord)
  | flush
  | shutdown
  | kill

abbrev Event := Command × Environment

namespace Store

def inactive : ActiveSegment :=
  ⟨⟨0, openFile 0, .open, 0, 0, "", none, none⟩, openFile 0, openFile 0, []⟩

/-- The state that the writer reports after a change. -/
def reported (active : ActiveSegment) (counters : LedgerCounters) (recovered : Nat) :
    RuntimeState :=
  { ready := true
    counters
    activeSegmentId := active.metadata.segmentId
    activeSegmentBytes := active.metadata.bytes
    activeSegmentRecords := active.metadata.records
    recoveryRecords := recovered
    lastError := none }

def recoveredOf (store : Store) : Nat := (store.runtime.map RuntimeState.recoveryRecords).getD 0

/-- The writer goes on after a command, with the state it reports. -/
def goesOn (store : Store) (world : World) (runtime : Option RuntimeState) : Store :=
  { store with disk := world.disk, writer := some ⟨world.active, world.nextAttemptId⟩, runtime }

/-- The writer stops, with an error or because it was told to. -/
def stops (store : Store) (disk : Disk) (error : Option String) : Store :=
  { disk, writer := none
    runtime := store.runtime.map fun runtime =>
      { runtime with ready := false, lastError := error.or runtime.lastError } }

/-- The process is gone. -/
def crashed (disk : Disk) : Store := ⟨disk, none, none⟩

/-- A computation on the disk with the writer's memory. -/
def runOn {α : Type} (store : Store) (environment : Environment) (action : StoreM α) :
    Except Stop α × World :=
  let writer := store.writer.getD ⟨inactive, 1⟩
  action ⟨store.disk, writer.active, writer.nextAttemptId, environment⟩

def stepOpen (store : Store) (environment : Environment) : Store :=
  if store.writer.isSome then store
  else match store.runOn environment (openWriter sha256 config) with
    | (.ok (recovered, counters), world) =>
        store.goesOn world (some (reported world.active counters recovered))
    | (.error _, world) => crashed world.disk

def stepCommit (store : Store) (environment : Environment) (batch : List CaptureRecord) : Store :=
  if store.writer.isNone || batch.isEmpty then store
  else match store.runOn environment (commitBatchInner sha256 config batch) with
    | (.ok commit, world) => store.goesOn world
        (some (reported world.active commit.counters store.recoveredOf))
    | (.error (.failed message), world) => store.stops world.disk (some message)
    | (.error .crashed, world) => crashed world.disk

/-- A flush that fails is answered with its error and the writer goes on. -/
def stepFlush (store : Store) (environment : Environment) : Store :=
  if store.writer.isNone then store
  else match store.runOn environment (sealAndRotate sha256 config) with
    | (.ok (_, counters), world) => store.goesOn world
        ((counters.map fun counters => reported world.active counters store.recoveredOf).or
          store.runtime)
    | (.error (.failed _), world) => store.goesOn world store.runtime
    | (.error .crashed, world) => crashed world.disk

def stepShutdown (store : Store) (environment : Environment) : Store :=
  if store.writer.isNone then store
  else match store.runOn environment (shutdownActive sha256 config) with
    | (.ok _, world) => store.stops world.disk none
    | (.error (.failed _), world) => store.stops world.disk none
    | (.error .crashed, world) => crashed world.disk

def step (store : Store) (event : Event) : Store :=
  match event.1 with
  | .open => store.stepOpen sha256 config event.2
  | .commit batch => store.stepCommit sha256 config event.2 batch
  | .flush => store.stepFlush sha256 config event.2
  | .shutdown => store.stepShutdown sha256 config event.2
  | .kill => crashed store.disk

end Store

end Machine

end ChipTrace.CaptureStore
