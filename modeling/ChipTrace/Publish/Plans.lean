/-
What a plan of a publication knows before the store is touched: its manifest names its
files, and its keys are those of its artifact below the prefix.
-/
import ChipTrace.Publish.Keys

namespace ChipTrace

namespace Publish

/-! The verified directory. -/

theorem Relative.of_safe {name : String} {checked : Unit}
    (h : ensureSafeRelativePath name = .ok checked) : Relative name := by
  rw [ensureSafeRelativePath, refuseIf_eq_ok] at h
  simp only [Bool.or_eq_false_iff] at h
  obtain ⟨⟨⟨_, hstart⟩, _⟩, _⟩ := h
  intro hhead
  obtain ⟨rest, hrest⟩ := List.head?_eq_some_iff.mp hhead
  have hnormalized : Text.startsWith name "/" = true :=
    List.isPrefixOf_iff_prefix.mpr ⟨rest, hrest.symm⟩
  rw [hnormalized] at hstart
  cases hstart

theorem relative_of_checked {A : Type} {step : List String → A → Except String (List String)}
    (name : A → String) {items : List A} {start finish : List String}
    (hstep : ∀ state next item, step state item = .ok next → Relative (name item))
    (h : items.foldlM step start = .ok finish) : ∀ item ∈ items, Relative (name item) := by
  intro item hitem
  apply foldlM_ok_reaches (fun _ => Relative (name item)) hitem ?_ ?_ h
  · intro state next hnext
    exact hstep state next item hnext
  · intro _ _ _ _ hrelative _
    exact hrelative

theorem checkFile_relative {sha256 : Bytes → String} {tree : FileTree}
    {state next : List String} {file : FileManifest}
    (h : checkFile sha256 tree state file = .ok next) : Relative file.file := by
  obtain ⟨_, hsafe, _⟩ := Except.bind_eq_ok_iff.mp h
  exact Relative.of_safe hsafe

theorem checkPackage_relative {tree : FileTree} {state next : List String}
    {numbered : FileManifest × Nat} (h : checkPackage tree state numbered = .ok next) :
    Relative numbered.1.file := by
  obtain ⟨_, hsafe, _⟩ := Except.bind_eq_ok_iff.mp h
  exact Relative.of_safe hsafe

theorem documents_relative : ∀ name ∈ artifactDocuments, Relative name := by decide

section Artifact

variable (platform : Platform)

/-- The manifest of a verified directory names the lineage and the files. -/
structure Described (tree : FileTree) (kind : ArtifactKind) (id : String)
    (manifest : Bytes) (lineage : Option String) (names : List String) : Prop where
  read : readFile tree "manifest.json" = some manifest
  named : publishedNames platform kind id manifest = .ok (lineage, names)
  relative : ∀ name ∈ names, Relative name
  documents : ∀ name ∈ artifactDocuments, name ∈ names

variable {platform} {tree : FileTree}

theorem verifyRelease_ok {manifest : ReleaseManifest}
    (h : verifyRelease platform tree = .ok manifest) :
    ∃ bytes, Described platform tree .release manifest.releaseId bytes none
      (releaseNames manifest) := by
  rw [verifyRelease] at h
  cases hread : readFile tree "manifest.json" with
  | none =>
      rw [hread] at h
      cases h
  | some bytes =>
      rw [hread, Option.bind_some] at h
      cases hparse : platform.releaseManifest bytes with
      | none =>
          rw [hparse] at h
          cases h
      | some parsed =>
          simp only [hparse] at h
          obtain ⟨_, hschema, h⟩ := Except.bind_eq_ok_iff.mp h
          obtain ⟨_, _, h⟩ := Except.bind_eq_ok_iff.mp h
          obtain ⟨_, _, h⟩ := Except.bind_eq_ok_iff.mp h
          obtain ⟨_, _, h⟩ := Except.bind_eq_ok_iff.mp h
          obtain ⟨_, hstatus, h⟩ := Except.bind_eq_ok_iff.mp h
          obtain ⟨expected, hfiles, h⟩ := Except.bind_eq_ok_iff.mp h
          obtain ⟨_, _, h⟩ := Except.bind_eq_ok_iff.mp h
          obtain ⟨_, _, h⟩ := Except.bind_eq_ok_iff.mp h
          obtain ⟨_, _, h⟩ := Except.bind_eq_ok_iff.mp h
          cases h
          rw [refuseIf_eq_ok, bne_eq_false_iff_eq] at hschema hstatus
          have hrelative := relative_of_checked FileManifest.file
            (fun _ _ _ hstep => checkFile_relative hstep) hfiles
          refine ⟨bytes, hread, ?_, ?_, ?_⟩
          · simp [publishedNames, hparse, hschema, hstatus, refuseIf, bind, Except.bind, pure,
              Except.pure]
          · intro name hname
            rcases List.mem_append.mp hname with hnamed | hdocument
            · obtain ⟨file, hfile, rfl⟩ := List.mem_map.mp hnamed
              exact hrelative file hfile
            · exact documents_relative name hdocument
          · intro name hname
            exact List.mem_append_right _ hname

theorem verifyBuyerPackage_ok {manifest : BuyerPackageManifest}
    (h : verifyBuyerPackage platform tree = .ok manifest) :
    ∃ bytes, Described platform tree .buyerPackage manifest.releaseId bytes
      (some manifest.sourceReleaseManifestSha256) (buyerNames manifest) := by
  rw [verifyBuyerPackage] at h
  cases hread : readFile tree "manifest.json" with
  | none =>
      rw [hread] at h
      cases h
  | some bytes =>
      rw [hread, Option.bind_some] at h
      cases hparse : platform.buyerManifest bytes with
      | none =>
          rw [hparse] at h
          cases h
      | some parsed =>
          simp only [hparse] at h
          obtain ⟨_, hschema, h⟩ := Except.bind_eq_ok_iff.mp h
          obtain ⟨_, haccepted, h⟩ := Except.bind_eq_ok_iff.mp h
          obtain ⟨expected, hpackages, h⟩ := Except.bind_eq_ok_iff.mp h
          obtain ⟨_, _, h⟩ := Except.bind_eq_ok_iff.mp h
          obtain ⟨_, _, h⟩ := Except.bind_eq_ok_iff.mp h
          obtain ⟨_, _, h⟩ := Except.bind_eq_ok_iff.mp h
          cases h
          rw [refuseIf_eq_ok, bne_eq_false_iff_eq] at hschema
          rw [refuseIf_eq_ok] at haccepted
          simp only [Bool.or_eq_false_iff, bne_eq_false_iff_eq, decide_eq_false_iff_not]
            at haccepted
          obtain ⟨⟨⟨⟨⟨⟨⟨hstatus, hprofile⟩, hscore⟩, _⟩, _⟩, _⟩, _⟩, hlineage⟩ := haccepted
          have hrelative := relative_of_checked
            (fun numbered : FileManifest × Nat => numbered.1.file)
            (fun _ _ _ hstep => checkPackage_relative hstep) hpackages
          refine ⟨bytes, hread, ?_, ?_, ?_⟩
          · simp [publishedNames, hparse, hschema, hstatus, hprofile, hscore, hlineage,
              refuseIf, bind, Except.bind, pure, Except.pure]
          · intro name hname
            rcases List.mem_append.mp hname with hnamed | hdocument
            · obtain ⟨file, hfile, rfl⟩ := List.mem_map.mp hnamed
              obtain ⟨index, hindex, hget⟩ := List.mem_iff_getElem.mp hfile
              have hnumbered : (file, index) ∈ manifest.packages.zipIdx := by
                rw [List.mem_zipIdx_iff_getElem?, List.getElem?_eq_getElem hindex, hget]
              exact hrelative _ hnumbered
            · exact documents_relative name hdocument
          · intro name hname
            exact List.mem_append_right _ hname

theorem verifyLocalArtifact_ok {kind : ArtifactKind} {artifact : VerifiedArtifact}
    (h : verifyLocalArtifact platform kind tree = .ok artifact) :
    ∃ manifest names, Described platform tree artifact.kind artifact.id manifest
        artifact.sourceReleaseManifestSha256 names ∧
      artifact.manifestSha256 = platform.sha256 manifest ∧
      artifact.files = sortedNames names := by
  rw [verifyLocalArtifact] at h
  obtain ⟨⟨id, lineage, names⟩, hverified, h⟩ := Except.bind_eq_ok_iff.mp h
  have hdescribed : ∃ manifest, Described platform tree kind id manifest lineage names := by
    cases kind with
    | release =>
        obtain ⟨manifest, hmanifest, hsame⟩ := Except.bind_eq_ok_iff.mp hverified
        cases hsame
        exact verifyRelease_ok hmanifest
    | buyerPackage =>
        obtain ⟨manifest, hmanifest, hsame⟩ := Except.bind_eq_ok_iff.mp hverified
        cases hsame
        exact verifyBuyerPackage_ok hmanifest
  obtain ⟨manifest, hdescribed⟩ := hdescribed
  simp only [hdescribed.read] at h
  cases h
  exact ⟨manifest, names, hdescribed, rfl, rfl⟩

end Artifact

/-! The plan. -/

section Plan

variable (platform : Platform)

/-- The object under which a file of an artifact is published. -/
structure ObjectOf (keyPrefix : String) (tree : FileTree) (artifact : VerifiedArtifact)
    (name : String) (object : LocalObject) : Prop where
  key : object.key =
    below keyPrefix (fileName artifact.kind artifact.id artifact.manifestSha256 name)
  content : readFile tree name = some object.content
  sha256 : object.sha256 = platform.sha256 object.content
  bytes : object.bytes = object.content.length

structure Planned (keyPrefix : String) (tree : FileTree) (plan : PublishPlan)
    (manifest : Bytes) (names : List String) : Prop where
  trimmed : Trimmed keyPrefix
  safeId : SafeComponent plan.artifact.id
  described : Described platform tree plan.artifact.kind plan.artifact.id manifest
    plan.artifact.sourceReleaseManifestSha256 names
  digest : plan.artifact.manifestSha256 = platform.sha256 manifest
  names : plan.artifact.files = sortedNames names
  commitKey : plan.commitKey = below keyPrefix
    (plan.artifact.kind.objectNamespace ++ "/" ++ plan.artifact.id ++ "/COMMIT.json")
  manifestKey : plan.manifestKey = below keyPrefix
    (fileName plan.artifact.kind plan.artifact.id plan.artifact.manifestSha256 "manifest.json")
  objects : List.Forall₂ (ObjectOf platform keyPrefix tree plan.artifact)
    plan.artifact.files plan.files

theorem mem_sortedNames {name : String} {names : List String} :
    name ∈ sortedNames names ↔ name ∈ names := by
  rw [sortedNames, List.mem_dedup, List.mem_insertionSort]

theorem sortedNames_nodup (names : List String) : (sortedNames names).Nodup :=
  List.nodup_dedup _

theorem commitKeyOf_below {keyPrefix : String} (htrimmed : Trimmed keyPrefix)
    (kind : ArtifactKind) (id : String) :
    commitKeyOf keyPrefix kind id =
      below keyPrefix (kind.objectNamespace ++ "/" ++ id ++ "/COMMIT.json") :=
  joinKey_below htrimmed (commitName_relative kind id)

theorem stagingBase_below {keyPrefix : String} (htrimmed : Trimmed keyPrefix)
    (kind : ArtifactKind) (id digest : String) :
    stagingBase keyPrefix kind id digest = below keyPrefix (stagingName kind id digest) :=
  joinKey_below htrimmed (stagingName_relative kind id digest)

theorem joinKey_stagingBase {keyPrefix digest name : String} (htrimmed : Trimmed keyPrefix)
    (kind : ArtifactKind) (id : String) (hdigest : SafeComponent digest)
    (hname : Relative name) :
    joinKey (stagingBase keyPrefix kind id digest) name =
      below keyPrefix (fileName kind id digest name) := by
  have hne := stagingName_ne kind id digest
  have hbase := trimmed_below htrimmed (trimmed_stagingName kind id hdigest) hne
  rw [stagingBase_below htrimmed, joinKey_below hbase hname, below_below hne]
  rfl

variable {platform} (hdigest : ∀ bytes, isSha256 (platform.sha256 bytes) = true)

include hdigest in
theorem artifactFiles_ok {keyPrefix : String} {tree : FileTree} {artifact : VerifiedArtifact}
    {manifest : Bytes} {files : List LocalObject} (htrimmed : Trimmed keyPrefix)
    (hmanifest : artifact.manifestSha256 = platform.sha256 manifest)
    (hrelative : ∀ name ∈ artifact.files, Relative name)
    (h : artifactFiles platform.sha256 tree artifact
      (stagingBase keyPrefix artifact.kind artifact.id artifact.manifestSha256) = .ok files) :
    List.Forall₂ (ObjectOf platform keyPrefix tree artifact) artifact.files files := by
  have hsafe : SafeComponent artifact.manifestSha256 :=
    hmanifest ▸ digest_component (hdigest manifest)
  have hfiles := List.mapM_eq_ok_iff.mp h
  apply ((List.forall₂_and_left artifact.files files).mpr ⟨hrelative, hfiles⟩).imp
  rintro name object ⟨hname, hok⟩
  rw [artifactFile] at hok
  cases hread : readFile tree name with
  | none =>
      rw [hread] at hok
      cases hok
  | some content =>
      rw [hread] at hok
      cases hok
      exact ⟨joinKey_stagingBase htrimmed artifact.kind artifact.id hsafe hname, hread, rfl, rfl⟩

include hdigest in
theorem preparePublish_ok {request : PublishRequest} {plan : PublishPlan}
    (h : preparePublish platform request = .ok plan) :
    ∃ keyPrefix manifest names,
      normalizePrefix request.config.keyPrefix = .ok keyPrefix ∧
      Planned platform keyPrefix request.tree plan manifest names ∧
      plan.verifyRemoteSha256 = request.config.verifyRemoteSha256 := by
  obtain ⟨concurrency, _, h⟩ := Except.bind_eq_ok_iff.mp h
  obtain ⟨_, _, h⟩ := Except.bind_eq_ok_iff.mp h
  obtain ⟨artifact, hartifact, h⟩ := Except.bind_eq_ok_iff.mp h
  obtain ⟨_, hid, h⟩ := Except.bind_eq_ok_iff.mp h
  obtain ⟨keyPrefix, hnormalized, h⟩ := Except.bind_eq_ok_iff.mp h
  obtain ⟨files, hfiles, h⟩ := Except.bind_eq_ok_iff.mp h
  cases h
  obtain ⟨manifest, names, hdescribed, hmanifest, hnames⟩ := verifyLocalArtifact_ok hartifact
  have htrimmed := (normalizePrefix_ok hnormalized).1
  have hsafe : SafeComponent artifact.manifestSha256 :=
    hmanifest ▸ digest_component (hdigest manifest)
  refine ⟨keyPrefix, manifest, names, hnormalized, ?_, rfl⟩
  refine ⟨htrimmed, validateComponent_iff.mp hid, hdescribed, hmanifest, hnames,
    commitKeyOf_below htrimmed _ _, ?_, ?_⟩
  · exact joinKey_stagingBase htrimmed artifact.kind artifact.id hsafe (by decide)
  · apply artifactFiles_ok hdigest htrimmed hmanifest _ hfiles
    intro name hname
    rw [hnames, mem_sortedNames] at hname
    exact hdescribed.relative name hname

end Plan

end Publish

end ChipTrace
