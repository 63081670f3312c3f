/-
Artifacts that are published: a release or a buyer package, verified in the directory
that holds it, and the keys of its files and of its COMMIT.
-/
import ChipTrace.RawArchive.Archiver
import Mathlib.Data.List.Sort
import Mathlib.Data.Rat.Defs

namespace ChipTrace

namespace Publish

inductive ArtifactKind where
  | release
  | buyerPackage
  deriving DecidableEq

def ArtifactKind.asStr : ArtifactKind → String
  | .release => "release"
  | .buyerPackage => "buyer_package"

def ArtifactKind.objectNamespace : ArtifactKind → String
  | .release => "releases"
  | .buyerPackage => "deliveries"

structure FileManifest where
  file : String
  sha256 : String
  bytes : Nat
  deriving DecidableEq

/-- The numbers and tokens that only the audit of the contents reads are left to it. -/
structure ReleaseManifest where
  schemaVersion : String
  releaseId : String
  sessionAtomic : Bool
  sessionSplitCount : Nat
  buyerProfile : String
  minimumScore : ℚ
  parts : List FileManifest
  reports : List FileManifest
  validationStatus : String
  deriving DecidableEq

structure BuyerPackageManifest where
  schemaVersion : String
  releaseId : String
  buyerProfile : String
  minimumScore : ℚ
  sourceReleaseManifestSha256 : String
  lineageStatus : String
  packages : List FileManifest
  validationStatus : String
  deriving DecidableEq

structure ObjectEntry where
  key : String
  sha256 : String
  bytes : Nat
  deriving DecidableEq

@[ext] structure ObjectCommit where
  schemaVersion : String
  artifactKind : String
  artifactId : String
  committedAtUtc : String
  manifestSha256 : String
  manifestKey : String
  sourceReleaseManifestSha256 : Option String
  objects : List ObjectEntry
  deriving DecidableEq

def releaseSchemaVersion : String := "chiptrace.jsonl-release.v1"

def buyerPackageSchemaVersion : String := "chiptrace.buyer-package.v1"

def objectCommitSchemaVersion : String := "chiptrace.object-commit.v1"

def buyerV7 : String := "buyer-v7"

/-- What the publisher takes from its libraries and from the audits of the contents. -/
structure Platform where
  sha256 : Bytes → String
  releaseManifest : Bytes → Option ReleaseManifest
  buyerManifest : Bytes → Option BuyerPackageManifest
  commit : DocumentCodec ObjectCommit
  /-- Raw sources, Sessions, reports, totals and the checksum file of a release. -/
  auditRelease : ReleaseManifest → FileTree → Except String Unit
  /-- Encoding, raw sources, archives, totals and the checksum file of a package. -/
  auditBuyerPackage : BuyerPackageManifest → FileTree → Except String Unit

/-- 64 digits, the letters among them lower case. -/
def isSha256 (value : String) : Bool :=
  (textBytes value).length == 64 &&
    value.toList.all fun c => Decimal.isDigit c || ('a' ≤ c && c ≤ 'f')

/-! The files of an artifact. -/

/-- The path that a name has below the root of its artifact. -/
def pathOf (name : String) : FilePath :=
  (keyComponents name).filter fun component => component != "" && component != "."

def readFile (tree : FileTree) (name : String) : Option Bytes := tree.files.get? (pathOf name)

/-- The name of a file as the walk through the directory reports it. -/
def listedName (path : FilePath) : String :=
  ("/".intercalate path).map fun c => if c = '\\' then '/' else c

/-- The names of all files, where only the given directories may be. -/
def listFiles (directories : List String) (tree : FileTree) : Except String (List String) := do
  refuseIf (!tree.dirs.all fun path => directories.any fun name => path == [name])
    "artifact contains an unexpected entry"
  refuseIf (!tree.files.entries.all fun entry =>
      entry.1.length == 1 || directories.any fun name => entry.1.dropLast == [name])
    "artifact contains an unexpected entry"
  pure (tree.files.entries.map fun entry => listedName entry.1)

def sameFiles (left right : List String) : Bool :=
  left.all right.contains && right.all left.contains

def checkFile (sha256 : Bytes → String) (tree : FileTree) (expected : List String)
    (file : FileManifest) : Except String (List String) := do
  ensureSafeRelativePath file.file
  refuseIf (expected.contains file.file) s!"duplicate release file path: {file.file}"
  match readFile tree file.file with
  | none => .error s!"release entry is not a regular file: {file.file}"
  | some content => do
      refuseIf (content.length != file.bytes || sha256 content != file.sha256)
        s!"release checksum mismatch: {file.file}"
      pure (file.file :: expected)

/-- The two files that every artifact has. -/
def artifactDocuments : List String := ["manifest.json", "SHA256SUMS"]

section Verify

variable (platform : Platform)

def verifyRelease (tree : FileTree) : Except String ReleaseManifest := do
  match (readFile tree "manifest.json").bind platform.releaseManifest with
  | none => .error "release manifest cannot be read"
  | some manifest => do
      refuseIf (manifest.schemaVersion != releaseSchemaVersion)
        s!"unsupported release schema {manifest.schemaVersion}"
      refuseIf (!manifest.sessionAtomic || manifest.sessionSplitCount != 0)
        "release is not Session atomic"
      refuseIf (manifest.minimumScore < 0 || 100 < manifest.minimumScore)
        "release minimum_score must be between 0 and 100"
      refuseIf (manifest.buyerProfile != buyerV7)
        s!"unsupported release buyer profile {manifest.buyerProfile}"
      refuseIf (manifest.validationStatus != "pass")
        s!"release validation status is {manifest.validationStatus}, not pass"
      let expected ← (manifest.parts ++ manifest.reports).foldlM
        (checkFile platform.sha256 tree) artifactDocuments
      platform.auditRelease manifest tree
      let actual ← listFiles ["data", "reports"] tree
      refuseIf (!sameFiles actual expected) "release file set does not match manifest"
      pure manifest

/-- `packages/sessions-part-<number>.tar.gz`, the number padded to five digits. -/
def packageName (index : Nat) : String :=
  "packages/sessions-part-" ++
    String.ofList (if index < 10 ^ 5 then Decimal.padded 5 index else Decimal.digits index) ++
    ".tar.gz"

/-- The packages are numbered from one on; their digests are those of the archives. -/
def checkPackage (tree : FileTree) (expected : List String) (numbered : FileManifest × Nat) :
    Except String (List String) := do
  let package := numbered.1
  ensureSafeRelativePath package.file
  refuseIf (package.file != packageName (numbered.2 + 1) || package.bytes == 0 ||
      !isSha256 package.sha256 || expected.contains package.file)
    s!"invalid or duplicate buyer archive path: {package.file}"
  match readFile tree package.file with
  | none => .error s!"buyer archive is not a regular file: {package.file}"
  | some content => do
      refuseIf (content.length != package.bytes)
        s!"buyer archive byte count mismatch: {package.file}"
      pure (package.file :: expected)

def verifyBuyerPackage (tree : FileTree) : Except String BuyerPackageManifest := do
  match (readFile tree "manifest.json").bind platform.buyerManifest with
  | none => .error "buyer package manifest cannot be read"
  | some manifest => do
      refuseIf (manifest.schemaVersion != buyerPackageSchemaVersion)
        s!"unsupported buyer package schema {manifest.schemaVersion}"
      refuseIf (manifest.validationStatus != "pass" || manifest.buyerProfile != buyerV7 ||
          manifest.minimumScore < 90 || 100 < manifest.minimumScore ||
          Text.isBlank manifest.releaseId || manifest.packages.isEmpty ||
          !isSha256 manifest.sourceReleaseManifestSha256 ||
          manifest.lineageStatus != "complete")
        "buyer package manifest is not a passing buyer-v7 UTF-8 tar.gz delivery"
      let expected ← manifest.packages.zipIdx.foldlM (checkPackage tree) artifactDocuments
      platform.auditBuyerPackage manifest tree
      let actual ← listFiles ["packages"] tree
      refuseIf (!sameFiles actual expected) "buyer package file set does not match manifest"
      pure manifest

@[ext] structure VerifiedArtifact where
  kind : ArtifactKind
  id : String
  manifestSha256 : String
  sourceReleaseManifestSha256 : Option String
  files : List String

/-- Names in order, each once. -/
def sortedNames (names : List String) : List String := (names.insertionSort (· ≤ ·)).dedup

def releaseNames (manifest : ReleaseManifest) : List String :=
  (manifest.parts ++ manifest.reports).map (·.file) ++ artifactDocuments

def buyerNames (manifest : BuyerPackageManifest) : List String :=
  manifest.packages.map (·.file) ++ artifactDocuments

/-- The id, the lineage and the names of the files of a verified directory. -/
def verifySource (tree : FileTree) :
    ArtifactKind → Except String (String × Option String × List String)
  | .release => do
      let manifest ← verifyRelease platform tree
      pure (manifest.releaseId, none, releaseNames manifest)
  | .buyerPackage => do
      let manifest ← verifyBuyerPackage platform tree
      pure (manifest.releaseId, some manifest.sourceReleaseManifestSha256, buyerNames manifest)

def verifyLocalArtifact (kind : ArtifactKind) (tree : FileTree) :
    Except String VerifiedArtifact := do
  let (id, lineage, files) ← verifySource platform tree kind
  match readFile tree "manifest.json" with
  | none => .error "artifact manifest cannot be read"
  | some manifest =>
      pure {
        kind
        id
        manifestSha256 := platform.sha256 manifest
        sourceReleaseManifestSha256 := lineage
        files := sortedNames files
      }

end Verify

/-! Keys. -/

def stagingName (kind : ArtifactKind) (id manifestSha256 : String) : String :=
  ".staging/" ++ kind.objectNamespace ++ "/" ++ id ++ "/" ++ manifestSha256

def stagingBase (keyPrefix : String) (kind : ArtifactKind) (id manifestSha256 : String) :
    String := joinKey keyPrefix (stagingName kind id manifestSha256)

def commitKeyOf (keyPrefix : String) (kind : ArtifactKind) (id : String) : String :=
  joinKey keyPrefix (kind.objectNamespace ++ "/" ++ id ++ "/COMMIT.json")

def artifactFile (sha256 : Bytes → String) (tree : FileTree) (base name : String) :
    Except String LocalObject :=
  match readFile tree name with
  | none => .error s!"artifact file cannot be read: {name}"
  | some content => .ok {
      key := joinKey base name
      sha256 := sha256 content
      bytes := content.length
      content
    }

def artifactFiles (sha256 : Bytes → String) (tree : FileTree) (artifact : VerifiedArtifact)
    (base : String) : Except String (List LocalObject) :=
  artifact.files.mapM (artifactFile sha256 tree base)

def objectEntry (object : LocalObject) : ObjectEntry := ⟨object.key, object.sha256, object.bytes⟩

def objectEntries (files : List LocalObject) : List ObjectEntry :=
  (files.map objectEntry).insertionSort fun left right => left.key ≤ right.key

end Publish

end ChipTrace
