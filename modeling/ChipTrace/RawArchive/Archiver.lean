/-
The archiver as a program over the object store: upload of the objects, the manifest,
the read-back verification and the checkpoint, which is written last.
-/
import ChipTrace.Lib.Interleave
import ChipTrace.RawArchive.Manifest

namespace ChipTrace

open Interleave

/-! The object store. -/

inductive ObjectOp where
  | stat (key : String)
  | read (key : String)
  /-- The write of an object that must not exist yet. -/
  | create (key : String) (content : Bytes)

def ObjectOp.Reply : ObjectOp → Type
  | .stat _ => Option Nat
  | .read _ => Option Bytes
  | .create _ _ => Bool

abbrev ObjectMap := String → Option Bytes

def createObject (key : String) (content : Bytes) (store : ObjectMap) : Bool × ObjectMap :=
  match store key with
  | some _ => (false, store)
  | none => (true, Function.update store key (some content))

def execObject : (op : ObjectOp) → ObjectMap → op.Reply × ObjectMap
  | .stat key, store => ((store key).map List.length, store)
  | .read key, store => (store key, store)
  | .create key content, store => createObject key content store

def ObjectStore : Service where
  Op := ObjectOp
  Reply := ObjectOp.Reply
  Store := ObjectMap
  exec := execObject

inductive ArchiveError where
  | immutableConflict (key : String)
  | checkpointConflict (archiveId : String)
  | other (text : String)

abbrev ObjectTask := Task ObjectStore ArchiveError

abbrev ObjectProgram := Program ObjectStore ArchiveError

def statObject (key : String) : ObjectProgram (Option Nat) :=
  Program.op (S := ObjectStore) (ObjectOp.stat key)

def readOptional (key : String) : ObjectProgram (Option Bytes) :=
  Program.op (S := ObjectStore) (ObjectOp.read key)

def createIfAbsent (key : String) (content : Bytes) : ObjectProgram Bool :=
  Program.op (S := ObjectStore) (ObjectOp.create key content)

def refuse {α : Type} (text : String) : ObjectProgram α := Program.throw (.other text)

/-- The result of a pure check. -/
def checked {α : Type} (result : Except String α) : ObjectProgram α :=
  Program.ofExcept (result.mapError ArchiveError.other)

def readObject (key : String) : ObjectProgram Bytes := do
  match ← readOptional key with
  | some content => pure content
  | none => refuse s!"object not found: {key}"

/-! Objects and immutable documents. -/

structure LocalObject where
  key : String
  sha256 : String
  bytes : Nat
  content : Bytes

def verifyRemoteLength (object : LocalObject) (remoteBytes : Option Nat) : ObjectTask :=
  match remoteBytes with
  | none => .fail (.other s!"object not found: {object.key}")
  | some remoteBytes =>
      if remoteBytes ≠ object.bytes then
        .fail (.other s!"remote object size mismatch for {object.key}")
      else .done

/-- `ensure_object` without the read-back of the digest.  A lost conditional write ends
in the same check as a won one. -/
def ensureObject (object : LocalObject) : ObjectTask :=
  Task.call (S := ObjectStore) (ObjectOp.stat object.key) fun
    | some remoteBytes => verifyRemoteLength object (some remoteBytes)
    | none =>
        Task.call (S := ObjectStore) (ObjectOp.create object.key object.content) fun _ =>
          Task.call (S := ObjectStore) (ObjectOp.stat object.key) (verifyRemoteLength object)

def ensureLocalObjects (concurrency : ℕ+) (objects : List LocalObject) : ObjectProgram Unit :=
  .pool concurrency (objects.map ensureObject) (.ret ())

section Archive

variable (platform : RawPlatform)

def writeImmutableBytes (key : String) (content : Bytes) : ObjectProgram Bool := do
  checked (validateKey key)
  if ← createIfAbsent key content then pure true
  else do
    let existing ← readObject key
    if platform.sha256 existing ≠ platform.sha256 content then
      Program.throw (.immutableConflict key)
    else pure false

def readCheckpoint (key : String) : ObjectProgram (Option RawArchiveCheckpoint) := do
  match ← readOptional key with
  | none => pure none
  | some content =>
      match platform.checkpoint.read content with
      | none => refuse s!"parse raw archive checkpoint {key}"
      | some checkpoint => pure (some checkpoint)

def agreesWith (actual expected : RawArchiveCheckpoint) (archiveId manifestKey : String) :
    Bool :=
  actual.schemaVersion == rawCheckpointSchemaVersion && actual.state == "committed" &&
    !Text.isBlank actual.committedAtUtc && actual.completeness == expected.completeness &&
    actual.archiveId == archiveId && actual.manifestKey == manifestKey &&
    actual.manifestSha256 == expected.manifestSha256 &&
    actual.segmentCount == expected.segmentCount &&
    actual.totalRecords == expected.totalRecords && actual.totalBytes == expected.totalBytes

def validateCheckpoint (actual expected : RawArchiveCheckpoint)
    (archiveId manifestKey : String) : ObjectProgram Unit :=
  if agreesWith actual expected archiveId manifestKey then pure ()
  else Program.throw (.checkpointConflict archiveId)

def writeCheckpoint (key : String) (content : Bytes) (expected : RawArchiveCheckpoint) :
    ObjectProgram Bool := do
  if ← createIfAbsent key content then pure true
  else do
    match ← readCheckpoint platform key with
    | none => refuse "checkpoint exists but cannot be read after conditional write"
    | some existing => do
        validateCheckpoint existing expected expected.archiveId expected.manifestKey
        pure false

/-! Verification of the objects that a manifest names. -/

/-- What was found of one object. -/
structure VerifiedObject where
  bytes : Nat
  records : Nat

structure VerifyWalk where
  seen : List (String × Nat)
  objects : List (String × VerifiedObject)
  records : Nat

def verifyRemoteSegmentRecords (key : String) (expectedBytes : Nat) (expectedSha256 : String) :
    ObjectProgram Nat := do
  let content ← readObject key
  let records ← checked (remoteReader.read platform.json content)
  if content.length ≠ expectedBytes then refuse s!"raw archive object length mismatch: {key}"
  else if platform.sha256 content ≠ expectedSha256 then
    refuse s!"raw archive object SHA-256 mismatch: {key}"
  else pure records.length

/-- The look at one object: its length, then its digest, with its records if asked. -/
def verifyObject (verifyRecords : Bool) (entry : SegmentEntry) :
    ObjectProgram VerifiedObject := do
  match ← statObject entry.objectKey with
  | none => refuse s!"object not found: {entry.objectKey}"
  | some remoteBytes =>
      if remoteBytes ≠ entry.bytes then
        refuse s!"raw archive object length mismatch: {entry.objectKey}"
      else if verifyRecords then do
        let records ← verifyRemoteSegmentRecords platform entry.objectKey entry.bytes entry.sha256
        pure ⟨remoteBytes, records⟩
      else do
        let content ← readObject entry.objectKey
        if platform.sha256 content ≠ entry.sha256 then
          refuse s!"raw archive object SHA-256 mismatch: {entry.objectKey}"
        else pure ⟨remoteBytes, 0⟩

/-- The checks of a descriptor before its object is looked at; the path of an empty
segment was checked with the manifest. -/
def checkDescriptor (paths : ArchivePaths) (empty : Bool) (seen : List (String × Nat))
    (entry : SegmentEntry) : Except String Unit := do
  validateComponent (if empty then "empty_segment.shard" else "segment.shard") entry.shard
  refuseIf (!empty && entry.sourcePath != segmentSourcePath entry.shard entry.segmentId)
    "raw archive segment source_path is inconsistent"
  validateKey entry.objectKey
  validateSha256 entry.sha256
  refuseIf (entry.objectKey != paths.objectKey entry.sha256)
    s!"raw archive object key is not content addressed: {entry.objectKey}"
  refuseIf (seen.contains (entry.shard, entry.segmentId))
    "raw archive manifest contains duplicate segment"
  refuseIf (!empty && (entry.bytes == 0 || entry.records == 0))
    "raw archive manifest contains an empty segment"
  refuseIf (empty && entry.records != 0) "raw archive empty segment has non-zero records"

/-- The object of an entry, looked at once for all entries that share it. -/
def findObject (verifyRecords : Bool) (walk : VerifyWalk) (entry : SegmentEntry) :
    ObjectProgram (VerifiedObject × List (String × VerifiedObject)) :=
  match walk.objects.lookup entry.objectKey with
  | some found => pure (found, walk.objects)
  | none => do
      let found ← verifyObject platform verifyRecords entry
      pure (found, (entry.objectKey, found) :: walk.objects)

/-- The records that an object must hold. -/
def expectedRecords (empty : Bool) (entry : SegmentEntry) : Nat :=
  if empty then 0 else entry.records

def verifyEntry (paths : ArchivePaths) (verifyRecords empty : Bool) (walk : VerifyWalk)
    (entry : SegmentEntry) : ObjectProgram VerifyWalk := do
  checked (checkDescriptor paths empty walk.seen entry)
  let (found, objects) ← findObject platform verifyRecords walk entry
  if found.bytes ≠ entry.bytes then
    refuse s!"raw archive object length mismatch: {entry.objectKey}"
  else if verifyRecords && found.records ≠ expectedRecords empty entry then
    refuse s!"raw archive record count mismatch: {entry.objectKey}"
  else pure {
    seen := (entry.shard, entry.segmentId) :: walk.seen
    objects
    records :=
      if verifyRecords && !empty then U64.saturatingAdd walk.records entry.records
      else walk.records
  }

/-- The entries one after the other. -/
def verifyEntries (paths : ArchivePaths) (verifyRecords : Bool) :
    VerifyWalk → List (SegmentEntry × Bool) → ObjectProgram VerifyWalk
  | walk, [] => pure walk
  | walk, (entry, empty) :: rest => do
      let walk ← verifyEntry platform paths verifyRecords empty walk entry
      verifyEntries paths verifyRecords walk rest

structure VerifiedArchive where
  manifest : RawArchiveManifest
  objects : Nat
  records : Nat

def verifyManifestObjects (checkpoint : RawArchiveCheckpoint) (paths : ArchivePaths)
    (verifyRecords : Bool) : ObjectProgram VerifiedArchive := do
  let manifestBytes ← readObject paths.manifest
  let manifest ← checked (validateManifestBytes platform checkpoint paths manifestBytes)
  let walk ← verifyEntries platform paths verifyRecords ⟨[], [], 0⟩
    (manifest.segments.map (·, false) ++ manifest.emptySegments.map (·, true))
  if verifyRecords && walk.records ≠ manifest.totalRecords then
    refuse "raw archive total record count mismatch"
  else pure ⟨manifest, walk.objects.length, walk.records⟩

/-! The archiver. -/

structure RawArchiveConfig where
  inputs : List FilePath
  archiveId : String
  keyPrefix : String
  fileConcurrency : Nat
  multipartConcurrency : Nat
  multipartChunkBytes : Nat
  retryMaxTimes : Nat
  allowSegmentGaps : Bool

/-- A text that the clock writes, which is never blank. -/
def ClockText : Type := { text : String // Text.isBlank text = false }

structure ArchiveRequest where
  config : RawArchiveConfig
  tree : FileTree
  now : ClockText

/-- What an archiver knows before it touches the store. -/
structure ArchivePlan where
  archiveId : String
  concurrency : ℕ+
  paths : ArchivePaths
  segments : List LocalSegment
  manifest : RawArchiveManifest
  checkpoint : RawArchiveCheckpoint

def ArchivePlan.manifestBytes (plan : ArchivePlan) : Bytes :=
  platform.manifest.write plan.manifest

def validateStoreConfig (config : RawArchiveConfig) : Except String ℕ+ :=
  if h : config.fileConcurrency = 0 then
    .error "object-store concurrency and retries must be positive"
  else if config.multipartConcurrency = 0 || config.multipartChunkBytes < 5 * 1024 * 1024 ||
      config.retryMaxTimes = 0 then
    .error "object-store concurrency and retries must be positive"
  else do
    let _ ← normalizePrefix config.keyPrefix
    pure ⟨config.fileConcurrency, Nat.pos_of_ne_zero h⟩

def checkpointFor (archiveId : String) (paths : ArchivePaths) (manifest : RawArchiveManifest)
    (manifestSha256 : String) (now : ClockText) : RawArchiveCheckpoint where
  schemaVersion := rawCheckpointSchemaVersion
  archiveId
  state := "committed"
  completeness := manifest.completeness
  committedAtUtc := now.val
  manifestKey := paths.manifest
  manifestSha256
  segmentCount := manifest.segmentCount
  totalRecords := manifest.totalRecords
  totalBytes := manifest.totalBytes

def prepareArchive (request : ArchiveRequest) : Except String ArchivePlan := do
  let config := request.config
  validateComponent "archive_id" config.archiveId
  let concurrency ← validateStoreConfig config
  let paths ← archivePaths config.keyPrefix config.archiveId
  let segments ← discoverSegments platform.sha256 platform.json request.tree config.inputs
    config.allowSegmentGaps
  refuseIf segments.isEmpty "no sealed WAL segments found in archive inputs"
  let manifest ← buildManifest config.archiveId paths segments (!config.allowSegmentGaps)
  pure {
    archiveId := config.archiveId
    concurrency
    paths
    segments
    manifest
    checkpoint := checkpointFor config.archiveId paths manifest
      (platform.sha256 (platform.manifest.write manifest)) request.now
  }

def LocalSegment.object (paths : ArchivePaths) (segment : LocalSegment) : LocalObject where
  key := paths.objectKey segment.sha256
  sha256 := segment.sha256
  bytes := segment.bytes
  content := segment.content

/-- The first segment stands for all that share its object. -/
def addObject (paths : ArchivePaths) (objects : Table String LocalObject)
    (segment : LocalSegment) : Table String LocalObject :=
  let object := segment.object paths
  match objects.get? object.key with
  | some _ => objects
  | none => objects.insert object.key object

/-- One object for each key, in the order of the keys. -/
def ArchivePlan.objects (plan : ArchivePlan) : List LocalObject :=
  (plan.segments.foldl (addObject plan.paths) Table.empty).entries.map Prod.snd

structure RawArchiveResult where
  idempotent : Bool
  archiveId : String
  completeness : String
  manifestKey : String
  checkpointKey : String
  segmentCount : Nat
  totalRecords : Nat
  totalBytes : Nat
  objects : Nat

def archiveResult (checkpoint : RawArchiveCheckpoint) (paths : ArchivePaths)
    (idempotent : Bool) (objects : Nat) : RawArchiveResult where
  idempotent
  archiveId := checkpoint.archiveId
  completeness := checkpoint.completeness
  manifestKey := paths.manifest
  checkpointKey := paths.checkpoint
  segmentCount := checkpoint.segmentCount
  totalRecords := checkpoint.totalRecords
  totalBytes := checkpoint.totalBytes
  objects := objects + 2

/-- The checkpoint is there already: the objects are repaired and verified again. -/
def confirmArchive (plan : ArchivePlan) (existing : RawArchiveCheckpoint) :
    ObjectProgram RawArchiveResult := do
  validateCheckpoint existing plan.checkpoint plan.archiveId plan.paths.manifest
  ensureLocalObjects plan.concurrency plan.objects
  if (← readOptional plan.paths.manifest).isNone then
    let _ ← writeImmutableBytes platform plan.paths.manifest (plan.manifestBytes platform)
  let _ ← verifyManifestObjects platform existing plan.paths true
  pure (archiveResult existing plan.paths true plan.objects.length)

def commitArchive (plan : ArchivePlan) : ObjectProgram RawArchiveResult := do
  ensureLocalObjects plan.concurrency plan.objects
  let _ ← writeImmutableBytes platform plan.paths.manifest (plan.manifestBytes platform)
  let _ ← verifyManifestObjects platform plan.checkpoint plan.paths true
  let created ← writeCheckpoint platform plan.paths.checkpoint
    (platform.checkpoint.write plan.checkpoint) plan.checkpoint
  match ← readCheckpoint platform plan.paths.checkpoint with
  | none => refuse "checkpoint disappeared after commit"
  | some committed => do
      validateCheckpoint committed plan.checkpoint plan.archiveId plan.paths.manifest
      pure (archiveResult committed plan.paths (!created) plan.objects.length)

def archivePlan (plan : ArchivePlan) : ObjectProgram RawArchiveResult := do
  match ← readCheckpoint platform plan.paths.checkpoint with
  | some existing => confirmArchive platform plan existing
  | none => commitArchive platform plan

def archiveRaw (request : ArchiveRequest) : ObjectProgram RawArchiveResult := do
  let plan ← checked (prepareArchive platform request)
  archivePlan platform plan

end Archive

end ChipTrace
