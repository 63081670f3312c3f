/-
The objects of a raw archive and what the archive code takes from its libraries:
the digest, the reader of one JSON line and the texts of the three documents.
-/
import ChipTrace.Capture.Normalize
import ChipTrace.RawArchive.Keys

namespace ChipTrace

/-- `RawSegmentEntry` and `RawEmptySegmentEntry`, which have the same fields. -/
structure SegmentEntry where
  shard : String
  segmentId : Nat
  objectKey : String
  sourcePath : String
  bytes : Nat
  records : Nat
  sha256 : String
  createdAt : String
  sealedAt : Option String
  deriving DecidableEq

@[ext] structure RawArchiveManifest where
  schemaVersion : String
  archiveId : String
  createdAtUtc : String
  format : String
  completeness : String
  segmentCount : Nat
  emptySegments : List SegmentEntry
  totalRecords : Nat
  totalBytes : Nat
  segments : List SegmentEntry
  deriving DecidableEq

structure RawArchiveCheckpoint where
  schemaVersion : String
  archiveId : String
  state : String
  completeness : String
  committedAtUtc : String
  manifestKey : String
  manifestSha256 : String
  segmentCount : Nat
  totalRecords : Nat
  totalBytes : Nat
  deriving DecidableEq

structure RawSourceLineage where
  schemaVersion : String
  archiveId : String
  completeness : String
  checkpointKey : String
  checkpointSha256 : String
  manifestKey : String
  manifestSha256 : String
  segmentCount : Nat
  totalRecords : Nat
  totalBytes : Nat
  deriving DecidableEq

def rawArchiveSchemaVersion : String := "chiptrace.raw-archive.v1"

def rawCheckpointSchemaVersion : String := "chiptrace.raw-checkpoint.v1"

def rawLineageSchemaVersion : String := "chiptrace.raw-lineage.v1"

def rawArchiveFormat : String := "UTF-8 NDJSON sealed WAL"

/-- The text of a document and its reader, which reads back what was written. -/
structure DocumentCodec (A : Type) where
  write : A → Bytes
  read : Bytes → Option A
  read_write : ∀ document, read (write document) = some document

structure RawPlatform where
  sha256 : Bytes → String
  /-- One line as a JSON value. -/
  json : Bytes → Option Json
  manifest : DocumentCodec RawArchiveManifest
  checkpoint : DocumentCodec RawArchiveCheckpoint
  lineage : DocumentCodec RawSourceLineage

theorem DocumentCodec.write_injective {A : Type} (codec : DocumentCodec A) {left right : A}
    (h : codec.write left = codec.write right) : left = right := by
  have hread : codec.read (codec.write left) = codec.read (codec.write right) := by rw [h]
  rw [codec.read_write, codec.read_write, Option.some.injEq] at hread
  exact hread

/-- All entries of a manifest: the data segments, then the empty ones. -/
def RawArchiveManifest.entries (manifest : RawArchiveManifest) : List SegmentEntry :=
  manifest.segments ++ manifest.emptySegments

end ChipTrace
