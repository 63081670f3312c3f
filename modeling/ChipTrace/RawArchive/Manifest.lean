/-
The manifest of an archive: how it is built from the discovered segments, and what a
reader requires of a manifest before it trusts a checkpoint.
-/
import ChipTrace.RawArchive.Segment

namespace ChipTrace

/-- Where a restored segment lies. -/
def segmentSourcePath (shard : String) (segmentId : Nat) : String :=
  "segments/" ++ shard ++ "/segment-" ++ String.ofList (Decimal.padded 20 segmentId) ++
    ".sealed.ndjson"

def LocalSegment.entry (paths : ArchivePaths) (segment : LocalSegment) : SegmentEntry where
  shard := segment.shard
  segmentId := segment.segmentId
  objectKey := paths.objectKey segment.sha256
  sourcePath := segmentSourcePath segment.shard segment.segmentId
  bytes := segment.bytes
  records := segment.records
  sha256 := segment.sha256
  createdAt := segment.createdAt
  sealedAt := segment.sealedAt

def completenessOf (completeSource : Bool) : String :=
  if completeSource then "complete" else "partial"

/-- The totals wrap around like the machine's sums. -/
def buildManifest (archiveId : String) (paths : ArchivePaths) (segments : List LocalSegment)
    (completeSource : Bool) : Except String RawArchiveManifest :=
  let entries := (segments.filter fun segment => 0 < segment.records).map (·.entry paths)
  let emptySegments := (segments.filter fun segment => segment.records == 0).map (·.entry paths)
  if entries.isEmpty then
    .error "raw archive cannot commit a snapshot without data segments"
  else .ok {
    schemaVersion := rawArchiveSchemaVersion
    archiveId
    createdAtUtc := ((segments.head?).map (·.createdAt)).getD ""
    format := rawArchiveFormat
    completeness := completenessOf completeSource
    segmentCount := entries.length
    emptySegments
    totalRecords := (entries.map (·.records)).sum % U64.limit
    totalBytes := (segments.map (·.bytes)).sum % U64.limit
    segments := entries
  }

def validateSha256 (value : String) : Except String Unit :=
  refuseIf (!isHexDigest value) "invalid SHA-256 digest in raw archive manifest"

def validCompleteness (completeness : String) : Bool :=
  completeness == "complete" || completeness == "partial"

/-- The entries are in order of shard and number. -/
def entryBefore (left right : String × Nat) : Bool :=
  left.1 < right.1 || (left.1 == right.1 && left.2 < right.2)

/-- What one walk over the entries remembers: the last entry and all seen ones. -/
structure SequenceWalk where
  previous : Option (String × Nat)
  seen : List (String × Nat)

def checkEmptyEntry (entry : SegmentEntry) : Except String Unit := do
  refuseIf (entry.sourcePath != segmentSourcePath entry.shard entry.segmentId)
    "raw archive empty segment source_path is inconsistent"
  refuseIf (entry.records != 0) "raw archive empty segment has non-zero records"
  validateSha256 entry.sha256
  refuseIf (Text.isBlank entry.createdAt) "raw archive empty segment created_at is empty"

/-- What the walks over the data entries and over the empty entries do differently. -/
structure SequenceRules where
  shardName : String
  check : SegmentEntry → Except String Unit
  zeroId : String
  unordered : String
  duplicate : String

def dataRules : SequenceRules where
  shardName := "segment.shard"
  check _ := .ok ()
  zeroId := "raw archive segment IDs must be positive"
  unordered := "raw archive manifest segments are not in deterministic order"
  duplicate := "raw archive manifest contains duplicate segment"

def emptyRules : SequenceRules where
  shardName := "empty_segment.shard"
  check := checkEmptyEntry
  zeroId := "raw archive empty segment IDs must be positive"
  unordered := "raw archive empty segments are not in deterministic order"
  duplicate := "raw archive manifest contains duplicate data/empty segment"

def sequenceStep (rules : SequenceRules) (walk : SequenceWalk) (entry : SegmentEntry) :
    Except String SequenceWalk := do
  validateComponent rules.shardName entry.shard
  refuseIf (entry.segmentId == 0) rules.zeroId
  rules.check entry
  let key := (entry.shard, entry.segmentId)
  refuseIf (walk.previous.any (entryBefore key)) rules.unordered
  refuseIf (walk.seen.contains key) rules.duplicate
  pure { previous := some key, seen := key :: walk.seen }

/-- The numbers of a shard in order. -/
def shardIds (seen : List (String × Nat)) (shard : String) : List Nat :=
  ((seen.filter fun key => key.1 == shard).map Prod.snd).mergeSort (· ≤ ·)

def startsAtOne (ids : List Nat) : Bool := ids.head? == some 1

def noGap (ids : List Nat) : Bool :=
  (ids.zip ids.tail).all fun pair => pair.2 == U64.saturatingAdd pair.1 1

def checkComplete (seen : List (String × Nat)) : Except String Unit :=
  seen.forM fun key => do
    refuseIf (!startsAtOne (shardIds seen key.1)) s!"complete raw archive for {key.1} starts later"
    refuseIf (!noGap (shardIds seen key.1)) s!"raw archive manifest sequence gap in {key.1}"

def validateManifestSequence (manifest : RawArchiveManifest) : Except String Unit := do
  refuseIf (!validCompleteness manifest.completeness)
    "raw archive manifest has an invalid completeness value"
  let data ← manifest.segments.foldlM (sequenceStep dataRules) ⟨none, []⟩
  let walk ← manifest.emptySegments.foldlM (sequenceStep emptyRules) ⟨none, data.seen⟩
  if manifest.completeness = "complete" then checkComplete walk.seen else .ok ()

def checkCheckpoint (checkpoint : RawArchiveCheckpoint) (paths : ArchivePaths) :
    Except String Unit := do
  refuseIf (checkpoint.schemaVersion != rawCheckpointSchemaVersion ||
      checkpoint.state != "committed" || Text.isBlank checkpoint.committedAtUtc ||
      !validCompleteness checkpoint.completeness || checkpoint.manifestKey != paths.manifest)
    s!"invalid raw archive checkpoint at {paths.checkpoint}"
  validateComponent "archive_id" checkpoint.archiveId
  validateKey checkpoint.manifestKey
  validateSha256 checkpoint.manifestSha256

def matchesCheckpoint (manifest : RawArchiveManifest) (checkpoint : RawArchiveCheckpoint) :
    Bool :=
  manifest.schemaVersion == rawArchiveSchemaVersion &&
    manifest.archiveId == checkpoint.archiveId &&
    manifest.format == rawArchiveFormat &&
    manifest.completeness == checkpoint.completeness &&
    manifest.segmentCount == checkpoint.segmentCount &&
    manifest.totalRecords == checkpoint.totalRecords &&
    manifest.totalBytes == checkpoint.totalBytes &&
    manifest.segments.length == checkpoint.segmentCount

structure Totals where
  seen : List (String × Nat)
  bytes : Nat
  records : Nat

def entryStep (paths : ArchivePaths) (totals : Totals) (described : SegmentEntry × Bool) :
    Except String Totals := do
  let entry := described.1
  let empty := described.2
  validateComponent "segment.shard" entry.shard
  validateKey entry.objectKey
  validateSha256 entry.sha256
  refuseIf (entry.sourcePath != segmentSourcePath entry.shard entry.segmentId ||
      entry.objectKey != paths.objectKey entry.sha256 ||
      totals.seen.contains (entry.shard, entry.segmentId) ||
      (!empty && (entry.bytes == 0 || entry.records == 0)) ||
      (empty && entry.records != 0))
    s!"raw archive segment descriptor is invalid: {entry.objectKey}"
  let bytes ← U64.checkedAdd "raw archive byte total overflow" totals.bytes entry.bytes
  let records ← U64.checkedAdd "raw archive record total overflow" totals.records entry.records
  pure { seen := (entry.shard, entry.segmentId) :: totals.seen, bytes, records }

def validateManifest (checkpoint : RawArchiveCheckpoint) (paths : ArchivePaths)
    (manifest : RawArchiveManifest) : Except String Unit := do
  refuseIf (!matchesCheckpoint manifest checkpoint)
    "raw archive manifest does not match checkpoint"
  validateManifestSequence manifest
  let totals ← (manifest.segments.map (·, false) ++ manifest.emptySegments.map (·, true)).foldlM
    (entryStep paths) ⟨[], 0, 0⟩
  refuseIf (totals.records != manifest.totalRecords || totals.bytes != manifest.totalBytes ||
      totals.records == 0 || totals.bytes == 0)
    "raw archive manifest aggregate totals are inconsistent or empty"

def validateManifestBytes (platform : RawPlatform) (checkpoint : RawArchiveCheckpoint)
    (paths : ArchivePaths) (manifestBytes : Bytes) : Except String RawArchiveManifest := do
  checkCheckpoint checkpoint paths
  refuseIf (platform.sha256 manifestBytes != checkpoint.manifestSha256)
    s!"raw archive manifest SHA-256 mismatch: {checkpoint.manifestKey}"
  match platform.manifest.read manifestBytes with
  | none => .error "invalid manifest"
  | some manifest => do
      validateManifest checkpoint paths manifest
      pure manifest

end ChipTrace
