/-
Restore of a committed archive to a directory, and the check of a restored directory
that needs no store.
-/
import ChipTrace.RawArchive.Agreement

namespace ChipTrace

open Interleave

def segmentFileName (segmentId : Nat) : String :=
  "segment-" ++ String.ofList (Decimal.padded 20 segmentId) ++ ".sealed.ndjson"

/-- Where a segment lies below the restored directory. -/
def segmentFile (shard : String) (segmentId : Nat) : FilePath :=
  ["segments", shard, segmentFileName segmentId]

def rawSourceFile : FilePath := ["RAW_SOURCE.json"]

def rawManifestFile : FilePath := ["RAW_MANIFEST.json"]

def rawCheckpointFile : FilePath := ["RAW_CHECKPOINT.json"]

/-- The files of a restored directory by their path below it. -/
abbrev RestoredFiles := Table FilePath Bytes

structure RawArchiveRestoreConfig where
  archiveId : String
  keyPrefix : String
  verifyRecords : Bool
  allowPartial : Bool

structure RawArchiveRestoreResult where
  archiveId : String
  completeness : String
  segmentCount : Nat
  totalRecords : Nat
  totalBytes : Nat

def restoreResult (archiveId : String) (manifest : RawArchiveManifest) :
    RawArchiveRestoreResult where
  archiveId
  completeness := manifest.completeness
  segmentCount := manifest.segmentCount
  totalRecords := manifest.totalRecords
  totalBytes := manifest.totalBytes

section Restore

variable (platform : RawPlatform)

def downloadObject (key : String) (expectedBytes : Nat) (expectedSha256 : String) :
    ObjectProgram Bytes := do
  let content ← readObject key
  if expectedBytes < content.length then
    refuse s!"restored object exceeds its committed length: {key}"
  else if content.length ≠ expectedBytes || platform.sha256 content ≠ expectedSha256 then
    refuse s!"restored object length or SHA-256 mismatch: {key}"
  else pure content

/-- An object on disk, with the counts of the first entry that named it. -/
structure DownloadedObject where
  content : Bytes
  bytes : Nat
  records : Nat

structure RestoreWalk where
  files : RestoredFiles
  downloaded : List (String × DownloadedObject)

def checkRestoredRecords (verifyRecords : Bool) (content : Bytes) (records : Nat) (key : String) :
    Except String Unit :=
  if verifyRecords then do
    let count ← localSegmentRecords platform.json content
    refuseIf (count != records) s!"restored segment record count mismatch: {key}"
  else .ok ()

/-- One entry: the object is downloaded once, later entries that name it link the file. -/
def restoreEntry (verifyRecords : Bool) (walk : RestoreWalk) (item : SegmentEntry × Bool) :
    ObjectProgram RestoreWalk :=
  let entry := item.1
  let records := expectedRecords item.2 entry
  let path := segmentFile entry.shard entry.segmentId
  match walk.downloaded.lookup entry.objectKey with
  | some previous =>
      if entry.bytes ≠ previous.bytes || records ≠ previous.records then
        refuse s!"same Raw object has conflicting segment counts: {entry.objectKey}"
      else pure { walk with files := walk.files.insert path previous.content }
  | none => do
      let content ← downloadObject platform entry.objectKey entry.bytes entry.sha256
      checked (checkRestoredRecords platform verifyRecords content records entry.objectKey)
      pure {
        files := walk.files.insert path content
        downloaded := (entry.objectKey, ⟨content, entry.bytes, records⟩) :: walk.downloaded
      }

def restoreEntries (verifyRecords : Bool) :
    RestoreWalk → List (SegmentEntry × Bool) → ObjectProgram RestoreWalk
  | walk, [] => pure walk
  | walk, item :: rest => do
      let walk ← restoreEntry platform verifyRecords walk item
      restoreEntries verifyRecords walk rest

def lineageFor (checkpoint : RawArchiveCheckpoint) (paths : ArchivePaths)
    (checkpointBytes : Bytes) : RawSourceLineage where
  schemaVersion := rawLineageSchemaVersion
  archiveId := checkpoint.archiveId
  completeness := checkpoint.completeness
  checkpointKey := paths.checkpoint
  checkpointSha256 := platform.sha256 checkpointBytes
  manifestKey := checkpoint.manifestKey
  manifestSha256 := checkpoint.manifestSha256
  segmentCount := checkpoint.segmentCount
  totalRecords := checkpoint.totalRecords
  totalBytes := checkpoint.totalBytes

/-- The restore into a directory that does not exist yet. -/
def restoreRawArchive (config : RawArchiveRestoreConfig) :
    ObjectProgram (RawArchiveRestoreResult × RestoredFiles) := do
  checked (validateComponent "archive_id" config.archiveId)
  let paths ← checked (archivePaths config.keyPrefix config.archiveId)
  match ← readCheckpoint platform paths.checkpoint with
  | none => refuse s!"raw archive checkpoint does not exist: {paths.checkpoint}"
  | some checkpoint => do
      checked (refuseIf (checkpoint.archiveId != config.archiveId)
        "raw archive checkpoint ID does not match requested archive")
      let manifestBytes ← readObject paths.manifest
      let manifest ← checked (validateManifestBytes platform checkpoint paths manifestBytes)
      checked (refuseIf (manifest.completeness == "partial" && !config.allowPartial)
        s!"raw archive {config.archiveId} is partial")
      let walk ← restoreEntries platform config.verifyRecords ⟨Table.empty, []⟩
        manifest.described
      let checkpointBytes ← readObject paths.checkpoint
      checked (refuseIf (platform.checkpoint.read checkpointBytes != some checkpoint)
        "raw archive checkpoint changed during restore")
      let lineage := lineageFor platform checkpoint paths checkpointBytes
      pure (restoreResult config.archiveId manifest,
        ((walk.files.insert rawSourceFile (platform.lineage.write lineage)).insert
          rawManifestFile manifestBytes).insert rawCheckpointFile checkpointBytes)

/-! The check of a restored directory. -/

def stripSuffix? (text suffix : String) : Option String :=
  if Text.endsWith text suffix then
    some (String.ofList (text.toList.take (text.length - suffix.length)))
  else none

def orFail {A : Type} (value : Option A) (text : String) : Except String A :=
  match value with
  | some value => .ok value
  | none => .error text

/-- The prefix of the keys that the key of the manifest starts with. -/
def restoredPrefix (manifestKey archiveId : String) : Except String String := do
  let keyPrefix ← orFail (stripSuffix? manifestKey ("raw/" ++ archiveId ++ "/manifest.json"))
    "restored Raw manifest key does not match its archive ID"
  if keyPrefix = "" then .ok keyPrefix
  else orFail (stripSuffix? keyPrefix "/") "invalid restored Raw archive prefix"

def lineageMatches (lineage : RawSourceLineage) (checkpoint : RawArchiveCheckpoint)
    (paths : ArchivePaths) (checkpointBytes : Bytes) : Bool :=
  lineage.schemaVersion == rawLineageSchemaVersion &&
    lineage.archiveId == checkpoint.archiveId &&
    lineage.completeness == checkpoint.completeness &&
    lineage.manifestKey == checkpoint.manifestKey &&
    lineage.manifestSha256 == checkpoint.manifestSha256 &&
    lineage.checkpointKey == paths.checkpoint &&
    lineage.checkpointSha256 == platform.sha256 checkpointBytes &&
    lineage.segmentCount == checkpoint.segmentCount &&
    lineage.totalRecords == checkpoint.totalRecords &&
    lineage.totalBytes == checkpoint.totalBytes

def verifyRestoredSegment (files : RestoredFiles) (item : SegmentEntry × Bool) :
    Except String FilePath := do
  let entry := item.1
  let path := keyComponents entry.sourcePath
  ensureSafeRelativePath entry.sourcePath
  let content ← orFail (files.get? path) s!"restored Raw segment is missing: {entry.sourcePath}"
  let failure := s!"restored Raw segment verification failed: {entry.sourcePath}"
  refuseIf (content.length != entry.bytes || platform.sha256 content != entry.sha256) failure
  let count ← localSegmentRecords platform.json content
  refuseIf (count != expectedRecords item.2 entry) failure
  pure path

def sameFiles (actual expected : List FilePath) : Bool :=
  actual.all expected.contains && expected.all actual.contains

def verifyRestoredRaw (files : RestoredFiles) : Except String RawArchiveRestoreResult := do
  let lineageBytes ← orFail (files.get? rawSourceFile) "missing RAW_SOURCE.json"
  let lineage ← orFail (platform.lineage.read lineageBytes) "invalid RAW_SOURCE.json"
  validateComponent "archive_id" lineage.archiveId
  let checkpointBytes ← orFail (files.get? rawCheckpointFile) "missing RAW_CHECKPOINT.json"
  let checkpoint ← orFail (platform.checkpoint.read checkpointBytes)
    "invalid RAW_CHECKPOINT.json"
  let manifestBytes ← orFail (files.get? rawManifestFile) "missing RAW_MANIFEST.json"
  let keyPrefix ← restoredPrefix checkpoint.manifestKey lineage.archiveId
  let paths ← archivePaths keyPrefix lineage.archiveId
  let manifest ← validateManifestBytes platform checkpoint paths manifestBytes
  refuseIf (!lineageMatches platform lineage checkpoint paths checkpointBytes)
    "restored Raw lineage does not match its committed checkpoint"
  let segmentFiles ← manifest.described.mapM (verifyRestoredSegment platform files)
  refuseIf (!sameFiles files.keys
      (rawSourceFile :: rawManifestFile :: rawCheckpointFile :: segmentFiles))
    "restored Raw file set differs from its committed manifest"
  pure (restoreResult manifest.archiveId manifest)

end Restore

/-- A restored directory as a file tree, below a root. -/
def mountRestored (root : FilePath) (files : RestoredFiles) : FileTree where
  files := Table.empty.insertAll (files.entries.map fun entry => (root ++ entry.1, entry.2))
  dirs := [root]

end ChipTrace
