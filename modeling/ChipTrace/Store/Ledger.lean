/-
The disk of a capture store: segment files and the tables of its ledger, whose
transactions are atomic; effects on it, each of which may fail or be the last
before a crash; and the counters that the tables imply.
-/
import ChipTrace.Lib.Effects
import ChipTrace.Store.Layout
import Mathlib.Data.Prod.Lex

namespace ChipTrace.CaptureStore

section Rows

inductive SegmentState where
  | open
  | sealed
  deriving DecidableEq, Repr

/-- A segment file's id and whether its name ends in `.sealed.ndjson`.  In the order of
the names an id's `.open.ndjson` file comes first. -/
abbrev SegmentFile := Nat ×ₗ Bool

def openFile (segmentId : Nat) : SegmentFile := toLex (segmentId, false)

def sealedFile (segmentId : Nat) : SegmentFile := toLex (segmentId, true)

/-- The name with `.open.ndjson` replaced by `.sealed.ndjson`. -/
def SegmentFile.sealedName (file : SegmentFile) : SegmentFile := sealedFile (ofLex file).1

structure SegmentMetadata where
  segmentId : Nat
  path : SegmentFile
  state : SegmentState
  bytes : Nat
  records : Nat
  createdAt : String
  sealedAt : Option String
  sha256 : Option String
  deriving DecidableEq

inductive AttemptState where
  | accepted
  | recovered
  | duplicate
  | conflict
  | rejected
  deriving DecidableEq, Repr

structure Attempt where
  attemptId : Nat
  captureId : Option String
  rawSha256 : Option String
  state : AttemptState
  reason : Option String
  receivedAt : String
  committedAt : Option String
  segmentId : Option Nat
  deriving DecidableEq

structure LedgerCounters where
  captures : Nat
  attempts : Nat
  acceptedAttempts : Nat
  duplicateAttempts : Nat
  conflictAttempts : Nat
  rejectedAttempts : Nat
  sealedSegments : Nat
  sealedBytes : Nat
  lastCommitAt : Option String
  deriving DecidableEq

end Rows

def ledgerSchemaVersion : String := "chiptrace.ledger.v1"

/-- The files under `segments/` and the ledger's tables. -/
structure Disk where
  files : Table SegmentFile Bytes
  captures : Table String CaptureLocator
  attempts : Table Nat Attempt
  segments : Table Nat SegmentMetadata
  counters : Option LedgerCounters
  schemaVersion : Option String

namespace Disk

def empty : Disk := ⟨.empty, .empty, .empty, .empty, none, none⟩

instance : Inhabited Disk := ⟨empty⟩

/-- The counters that the tables imply. -/
def countersFromTables (disk : Disk) : LedgerCounters :=
  let countIf := fun (holds : AttemptState → Bool) =>
    disk.attempts.weigh fun _ attempt => if holds attempt.state then 1 else 0
  { captures := disk.captures.len
    attempts := disk.attempts.len
    acceptedAttempts := countIf fun state => state == .accepted || state == .recovered
    duplicateAttempts := countIf (· == .duplicate)
    conflictAttempts := countIf (· == .conflict)
    rejectedAttempts := countIf (· == .rejected)
    sealedSegments := disk.segments.weigh fun _ segment => if segment.state = .sealed then 1 else 0
    sealedBytes := disk.segments.weigh fun _ segment =>
      if segment.state = .sealed then segment.bytes else 0
    lastCommitAt := disk.attempts.last?.bind fun row => row.2.committedAt }

/-- The id after the greatest one of a table. -/
def nextKey {V : Type} (table : Table Nat V) : Nat :=
  match table.last? with
  | some row => row.1 + 1
  | none => 1

end Disk

structure StoreConfig where
  segmentMaxBytes : Nat
  fsync : Bool

/-- How an effect ends; a write that fails or is cut off may leave some of its bytes. -/
inductive Outcome where
  | done
  | fails (kept : Nat)
  | crashes (kept : Nat)
  deriving DecidableEq

inductive Stop where
  | failed (message : String)
  | crashed
  deriving DecidableEq

/-- The segment that is written: its row, its path, and the file that the open handle
writes to, which follows a rename. -/
structure ActiveSegment where
  metadata : SegmentMetadata
  path : SegmentFile
  handle : SegmentFile
  digest : Bytes

/-- What a store reports about itself. -/
structure RuntimeState where
  ready : Bool
  counters : LedgerCounters
  activeSegmentId : Nat
  activeSegmentBytes : Nat
  activeSegmentRecords : Nat
  recoveryRecords : Nat
  lastError : Option String

/-- What the environment contributes to one command: how its effects end, what the clock
says, and whether the active segment has reached its greatest age. -/
structure Environment where
  outcomes : List Outcome
  clock : List String
  aged : List Bool

/-- The disk and the writer's memory during a command. -/
structure World where
  disk : Disk
  active : ActiveSegment
  nextAttemptId : Nat
  environment : Environment

abbrev StoreM := Eff World Stop

section Effects

def fail {α : Type} (message : String) : StoreM α := Eff.throw (.failed message)

def onDisk (change : Disk → Disk) : StoreM Unit :=
  Eff.modify fun world => { world with disk := change world.disk }

def onActive (change : ActiveSegment → ActiveSegment) : StoreM Unit :=
  Eff.modify fun world => { world with active := change world.active }

def nextOutcome : StoreM Outcome := fun world =>
  match world.environment.outcomes with
  | [] => (.ok .done, world)
  | outcome :: rest =>
      (.ok outcome, { world with environment := { world.environment with outcomes := rest } })

def utcNow : StoreM String := fun world =>
  match world.environment.clock with
  | [] => (.ok "", world)
  | time :: rest =>
      (.ok time, { world with environment := { world.environment with clock := rest } })

/-- Whether the active segment is as old as a segment may be. -/
def isAged : StoreM Bool := fun world =>
  match world.environment.aged with
  | [] => (.ok false, world)
  | aged :: rest =>
      (.ok aged, { world with environment := { world.environment with aged := rest } })

/-- An atomic effect on the disk. -/
def effect (change : Disk → Disk) : StoreM Unit := do
  match ← nextOutcome with
  | .done => onDisk change
  | .fails _ => fail "I/O error"
  | .crashes _ => Eff.throw .crashed

/-- Flush what was written; nothing a reader of the disk sees. -/
def sync (config : StoreConfig) : StoreM Unit :=
  if config.fsync then effect id else pure ()

def appendTo (file : SegmentFile) (bytes : Bytes) (disk : Disk) : Disk :=
  { disk with files := disk.files.insert file ((disk.files.get? file).getD [] ++ bytes) }

/-- Append to the file of the open handle. -/
def writeAll (bytes : Bytes) : StoreM Unit := do
  let world ← Eff.get
  match ← nextOutcome with
  | .done => onDisk (appendTo world.active.handle bytes)
  | .fails kept => do
      onDisk (appendTo world.active.handle (bytes.take kept))
      fail "I/O error"
  | .crashes kept => do
      onDisk (appendTo world.active.handle (bytes.take kept))
      Eff.throw .crashed

/-- Rename a file, which an open handle follows; a file renamed to its own name stays. -/
def rename (source target : SegmentFile) : StoreM Unit := do
  let world ← Eff.get
  match world.disk.files.get? source with
  | none => fail "No such file or directory"
  | some content => do
      effect fun disk =>
        { disk with files := if source = target then disk.files
            else (disk.files.insert target content).remove source }
      onActive fun active =>
        { active with handle := if active.handle = source then target else active.handle }

/-- Create a file that does not exist yet. -/
def createNew (file : SegmentFile) : StoreM Unit := do
  let world ← Eff.get
  match world.disk.files.get? file with
  | some _ => fail "File exists"
  | none => effect fun disk => { disk with files := disk.files.insert file [] }

def readCounters : StoreM LedgerCounters := do
  let world ← Eff.get
  match world.disk.counters with
  | some counters => pure counters
  | none => fail "ledger runtime counters are missing"

end Effects

end ChipTrace.CaptureStore
