/-
The publisher as a program over the object store: the files go up first, and the COMMIT
that names them is written last.  The verifier reads a COMMIT and everything it names.
-/
import ChipTrace.Publish.Artifact
import ChipTrace.RawArchive.Restore

namespace ChipTrace

namespace Publish

open Interleave

structure PublishConfig where
  kind : ArtifactKind
  keyPrefix : String
  fileConcurrency : Nat
  multipartConcurrency : Nat
  multipartChunkBytes : Nat
  retryMaxTimes : Nat
  verifyRemoteSha256 : Bool

structure PublishRequest where
  config : PublishConfig
  tree : FileTree
  now : String

structure VerifyPublishedConfig where
  artifactKind : ArtifactKind
  artifactId : String
  keyPrefix : String
  fileConcurrency : Nat
  retryMaxTimes : Nat

structure PublishResult where
  idempotent : Bool
  artifactKind : String
  artifactId : String
  manifestSha256 : String
  commitKey : String
  objects : Nat
  bytes : Nat
  deriving DecidableEq

structure VerifyPublishedResult where
  artifactKind : String
  artifactId : String
  manifestSha256 : String
  commitKey : String
  objects : Nat
  bytes : Nat
  deriving DecidableEq

/-- The sum wraps around like the machine's. -/
def totalBytes (objects : List ObjectEntry) : Nat :=
  (objects.map (·.bytes)).sum % U64.limit

def PublishConfig.validate (config : PublishConfig) : Except String ℕ+ :=
  let text := "object-store concurrency and retries must be positive and multipart chunks must " ++
    "be >= 5 MiB"
  if h : config.fileConcurrency = 0 then .error text
  else if config.multipartConcurrency = 0 || config.multipartChunkBytes < 5 * 1024 * 1024 ||
      config.retryMaxTimes = 0 then .error text
  else do
    let _ ← normalizePrefix config.keyPrefix
    pure ⟨config.fileConcurrency, Nat.pos_of_ne_zero h⟩

/-- What a publisher knows before it touches the store. -/
structure PublishPlan where
  artifact : VerifiedArtifact
  concurrency : ℕ+
  commitKey : String
  manifestKey : String
  files : List LocalObject
  verifyRemoteSha256 : Bool

def PublishPlan.commit (plan : PublishPlan) (now : String) : ObjectCommit where
  schemaVersion := objectCommitSchemaVersion
  artifactKind := plan.artifact.kind.asStr
  artifactId := plan.artifact.id
  committedAtUtc := now
  manifestSha256 := plan.artifact.manifestSha256
  manifestKey := plan.manifestKey
  sourceReleaseManifestSha256 := plan.artifact.sourceReleaseManifestSha256
  objects := objectEntries plan.files

section Publisher

variable (platform : Platform)

def preparePublish (request : PublishRequest) : Except String PublishPlan := do
  let config := request.config
  let concurrency ← config.validate
  refuseIf (config.kind == .buyerPackage && !config.verifyRemoteSha256)
    "buyer package publication requires remote SHA-256 verification"
  let artifact ← verifyLocalArtifact platform config.kind request.tree
  validateComponent "artifact_id" artifact.id
  let keyPrefix ← normalizePrefix config.keyPrefix
  let base := stagingBase keyPrefix artifact.kind artifact.id artifact.manifestSha256
  let files ← artifactFiles platform.sha256 request.tree artifact base
  pure {
    artifact
    concurrency
    commitKey := commitKeyOf keyPrefix artifact.kind artifact.id
    manifestKey := joinKey base "manifest.json"
    files
    verifyRemoteSha256 := config.verifyRemoteSha256
  }

/-- The length of a stored object, then its digest if asked. -/
def verifyRemoteObject (verifySha256 : Bool) (object : LocalObject)
    (remoteBytes : Option Nat) : ObjectTask :=
  match remoteBytes with
  | none => .fail (.other s!"object not found: {object.key}")
  | some remoteBytes =>
      if remoteBytes ≠ object.bytes then
        .fail (.other s!"remote object size mismatch for {object.key}")
      else if verifySha256 then
        Task.call (S := ObjectStore) (ObjectOp.read object.key) fun
          | none => .fail (.other s!"object not found: {object.key}")
          | some content =>
              if platform.sha256 content ≠ object.sha256 then
                .fail (.other s!"remote object SHA-256 mismatch for {object.key}")
              else .done
      else .done

/-- A conditional write that is lost ends in the same check as one that is won. -/
def ensureObject (verifySha256 : Bool) (object : LocalObject) : ObjectTask :=
  Task.call (S := ObjectStore) (ObjectOp.stat object.key) fun
    | some remoteBytes => verifyRemoteObject platform verifySha256 object (some remoteBytes)
    | none =>
        Task.call (S := ObjectStore) (ObjectOp.create object.key object.content) fun _ =>
          Task.call (S := ObjectStore) (ObjectOp.stat object.key)
            (verifyRemoteObject platform verifySha256 object)

/-- The entries are sorted by their keys, so the order in which the pool ends is not
seen. -/
def ensureLocalObjects (plan : PublishPlan) : ObjectProgram (List ObjectEntry) :=
  .pool plan.concurrency (plan.files.map (ensureObject platform plan.verifyRemoteSha256))
    (.ret (objectEntries plan.files))

def parseCommit (content : Bytes) : ObjectProgram ObjectCommit :=
  match platform.commit.read content with
  | none => refuse "COMMIT cannot be parsed"
  | some commit => pure commit

def readExistingCommit (key : String) : ObjectProgram (Option ObjectCommit) := do
  match ← readOptional key with
  | none => pure none
  | some content => do
      let commit ← parseCommit platform content
      pure (some commit)

def readCommit (key : String) : ObjectProgram ObjectCommit := do
  let content ← readObject key
  parseCommit platform content

def validateCommit (commit : ObjectCommit) (artifact : VerifiedArtifact) (manifestKey : String)
    (objects : List ObjectEntry) : Except String Unit :=
  refuseIf (commit.schemaVersion != objectCommitSchemaVersion ||
      commit.artifactKind != artifact.kind.asStr || commit.artifactId != artifact.id ||
      commit.manifestSha256 != artifact.manifestSha256 || commit.manifestKey != manifestKey ||
      commit.sourceReleaseManifestSha256 != artifact.sourceReleaseManifestSha256 ||
      commit.objects != objects)
    s!"artifact ID {artifact.id} is already committed with conflicting metadata"

def sameCommit (existing expected : ObjectCommit) : Bool :=
  existing.schemaVersion == expected.schemaVersion &&
    existing.artifactKind == expected.artifactKind &&
    existing.artifactId == expected.artifactId &&
    existing.manifestSha256 == expected.manifestSha256 &&
    existing.manifestKey == expected.manifestKey &&
    existing.sourceReleaseManifestSha256 == expected.sourceReleaseManifestSha256 &&
    existing.objects == expected.objects

def writeCommit (key : String) (content : Bytes) (expected : ObjectCommit) :
    ObjectProgram Bool := do
  if ← createIfAbsent key content then pure true
  else do
    let existing ← readCommit platform key
    if sameCommit existing expected then pure false
    else refuse s!"immutable COMMIT conflict at {key}"

def publishResult (plan : PublishPlan) (idempotent : Bool) (objects : List ObjectEntry) :
    PublishResult where
  idempotent
  artifactKind := plan.artifact.kind.asStr
  artifactId := plan.artifact.id
  manifestSha256 := plan.artifact.manifestSha256
  commitKey := plan.commitKey
  objects := objects.length
  bytes := totalBytes objects

/-- The COMMIT is there already: it must be that of the artifact, whose files are
repaired. -/
def confirmCommit (plan : PublishPlan) (existing : ObjectCommit) :
    ObjectProgram PublishResult := do
  checked (validateCommit existing plan.artifact plan.manifestKey (objectEntries plan.files))
  let _ ← ensureLocalObjects platform plan
  pure (publishResult plan true existing.objects)

def commitArtifact (plan : PublishPlan) (now : String) : ObjectProgram PublishResult := do
  let objects ← ensureLocalObjects platform plan
  let commit := plan.commit now
  let created ← writeCommit platform plan.commitKey (platform.commit.write commit) commit
  let committed ← readCommit platform plan.commitKey
  checked (validateCommit committed plan.artifact plan.manifestKey objects)
  pure (publishResult plan (!created) objects)

def publishPlan (plan : PublishPlan) (now : String) : ObjectProgram PublishResult := do
  match ← readExistingCommit platform plan.commitKey with
  | some existing => confirmCommit platform plan existing
  | none => commitArtifact platform plan now

def publish (request : PublishRequest) : ObjectProgram PublishResult := do
  let plan ← checked (preparePublish platform request)
  publishPlan platform plan request.now

/-! The verifier. -/

/-- The objects of a COMMIT have safe keys in order, and digests. -/
def checkEntries : Option String → List ObjectEntry → Except String Unit
  | _, [] => .ok ()
  | previous, object :: rest => do
      validateKey object.key
      refuseIf (!isSha256 object.sha256 ||
          previous.any fun previous => decide (object.key ≤ previous))
        "published COMMIT contains invalid or unsorted objects"
      checkEntries (some object.key) rest

def checkCommit (commit : ObjectCommit) (kind : ArtifactKind) (artifactId keyPrefix : String) :
    Except String Unit := do
  validateKey commit.manifestKey
  let expected := joinKey keyPrefix (stagingName kind artifactId commit.manifestSha256 ++
    "/manifest.json")
  refuseIf (commit.schemaVersion != objectCommitSchemaVersion ||
      commit.artifactKind != kind.asStr || commit.artifactId != artifactId ||
      commit.manifestKey != expected || commit.objects.isEmpty ||
      !isSha256 commit.manifestSha256)
    "published COMMIT metadata is invalid"
  checkEntries none commit.objects

/-- What the manifest of an artifact says: its lineage and the names of its files. -/
def publishedNames (kind : ArtifactKind) (artifactId : String) (manifestBytes : Bytes) :
    Except String (Option String × List String) :=
  match kind with
  | .release =>
      match platform.releaseManifest manifestBytes with
      | none => .error "published Release manifest cannot be read"
      | some manifest => do
          refuseIf (manifest.schemaVersion != releaseSchemaVersion ||
              manifest.releaseId != artifactId || manifest.validationStatus != "pass")
            "published Release manifest is not passing or has the wrong ID"
          pure (none, releaseNames manifest)
  | .buyerPackage =>
      match platform.buyerManifest manifestBytes with
      | none => .error "published buyer package manifest cannot be read"
      | some manifest => do
          refuseIf (manifest.schemaVersion != buyerPackageSchemaVersion ||
              manifest.releaseId != artifactId || manifest.validationStatus != "pass" ||
              manifest.lineageStatus != "complete" || manifest.buyerProfile != buyerV7 ||
              manifest.minimumScore < 90)
            "published buyer package manifest is not an accepted delivery"
          pure (some manifest.sourceReleaseManifestSha256, buyerNames manifest)

/-- The objects of the COMMIT are those that the manifest names, each once. -/
def checkObjectSet (commit : ObjectCommit) (names : List String) : Except String Unit :=
  match stripSuffix? commit.manifestKey "/manifest.json" with
  | none => .error "published manifest key has an invalid suffix"
  | some base =>
      let expected := (sortedNames names).map (joinKey base)
      let actual := commit.objects.map (·.key)
      refuseIf (!sameFiles expected actual || actual.dedup.length != commit.objects.length)
        "published COMMIT object set does not match its manifest"

def validateCommittedArtifact (commit : ObjectCommit) (kind : ArtifactKind)
    (artifactId keyPrefix : String) : ObjectProgram Unit := do
  checked (checkCommit commit kind artifactId keyPrefix)
  let manifestBytes ← readObject commit.manifestKey
  if platform.sha256 manifestBytes ≠ commit.manifestSha256 then
    refuse "published manifest SHA-256 does not match COMMIT"
  else do
    let (lineage, names) ← checked (publishedNames platform kind artifactId manifestBytes)
    if commit.sourceReleaseManifestSha256 ≠ lineage then
      refuse "published COMMIT lineage does not match its manifest"
    else checked (checkObjectSet commit names)

def verifyPublishedObject (object : ObjectEntry) : ObjectTask :=
  match validateKey object.key with
  | .error text => .fail (.other text)
  | .ok _ =>
      Task.call (S := ObjectStore) (ObjectOp.stat object.key) fun
        | none => .fail (.other s!"object not found: {object.key}")
        | some bytes =>
            if bytes ≠ object.bytes then
              .fail (.other s!"published object verification failed: {object.key}")
            else
              Task.call (S := ObjectStore) (ObjectOp.read object.key) fun
                | none => .fail (.other s!"object not found: {object.key}")
                | some content =>
                    if platform.sha256 content ≠ object.sha256 then
                      .fail (.other s!"published object verification failed: {object.key}")
                    else .done

def verifyPublishedResult (commit : ObjectCommit) (commitKey : String) :
    VerifyPublishedResult where
  artifactKind := commit.artifactKind
  artifactId := commit.artifactId
  manifestSha256 := commit.manifestSha256
  commitKey
  objects := commit.objects.length
  bytes := totalBytes commit.objects

structure VerifyPlan where
  concurrency : ℕ+
  keyPrefix : String
  commitKey : String
  deriving DecidableEq

def prepareVerify (config : VerifyPublishedConfig) : Except String VerifyPlan := do
  validateComponent "artifact_id" config.artifactId
  if h : config.fileConcurrency = 0 then
    .error "object-store concurrency and retries must be positive"
  else do
    refuseIf (config.retryMaxTimes == 0)
      "object-store concurrency and retries must be positive"
    let keyPrefix ← normalizePrefix config.keyPrefix
    pure {
      concurrency := ⟨config.fileConcurrency, Nat.pos_of_ne_zero h⟩
      keyPrefix
      commitKey := commitKeyOf keyPrefix config.artifactKind config.artifactId
    }

def missingCommit (key : String) : ArchiveError :=
  .other s!"published COMMIT does not exist: {key}"

def verifyPublished (config : VerifyPublishedConfig) : ObjectProgram VerifyPublishedResult := do
  let plan ← checked (prepareVerify config)
  match ← readExistingCommit platform plan.commitKey with
  | none => Program.throw (missingCommit plan.commitKey)
  | some commit => do
      validateCommittedArtifact platform commit config.artifactKind config.artifactId
        plan.keyPrefix
      .pool plan.concurrency (commit.objects.map (verifyPublishedObject platform)) (.ret ())
      pure (verifyPublishedResult commit plan.commitKey)

end Publisher

end Publish

end ChipTrace
