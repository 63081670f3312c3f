/-
What stands in a store that only publishers write to: the files of their artifacts, and
COMMITs whose files stand.  A key tells whose file it is, so two artifacts of one kind
and id meet only in their own directory and in their COMMIT.
-/
import ChipTrace.Publish.Plans
import ChipTrace.RawArchive.Commit

namespace ChipTrace

namespace Publish

section Publications

variable (platform : Platform) (keyPrefix : String) (allowed : PublishRequest → Prop)

/-- The plan of an allowed request under the prefix. -/
def Publication (plan : PublishPlan) : Prop :=
  ∃ request, allowed request ∧ normalizePrefix request.config.keyPrefix = .ok keyPrefix ∧
    preparePublish platform request = .ok plan

/-- A file of the plan, or a COMMIT of it. -/
def Written (plan : PublishPlan) (key : String) (content : Bytes) : Prop :=
  (∃ object ∈ plan.files, object.key = key ∧ object.content = content) ∨
    (key = plan.commitKey ∧ ∃ now, content = platform.commit.write (plan.commit now))

/-- An object is stored with its length, and with its digest where that is verified. -/
def StandsAt (verifySha256 : Bool) (object : LocalObject) (store : ObjectMap) : Prop :=
  ∃ content, store object.key = some content ∧ content.length = object.bytes ∧
    (verifySha256 = true → platform.sha256 content = object.sha256)

def ObjectsStand (plan : PublishPlan) (store : ObjectMap) : Prop :=
  ∀ object ∈ plan.files, StandsAt platform plan.verifyRemoteSha256 object store

/-- All that is stored was published, a COMMIT after its files. -/
def PublishedFrom (store : ObjectMap) : Prop :=
  ∀ key content, store key = some content →
    ∃ plan, Publication platform keyPrefix allowed plan ∧
      ((∃ object ∈ plan.files, object.key = key ∧ object.content = content) ∨
        (key = plan.commitKey ∧ (∃ now, content = platform.commit.write (plan.commit now)) ∧
          ObjectsStand platform plan store))

/-- Something of another artifact with the same kind and id stands in the store. -/
def Conflict (plan : PublishPlan) (store : ObjectMap) : Prop :=
  ∃ other, Publication platform keyPrefix allowed other ∧ other.commitKey = plan.commitKey ∧
    other.files ≠ plan.files ∧
    ∃ key content, store key = some content ∧ Written platform other key content

variable {platform} {keyPrefix} {allowed}

theorem StandsAt.mono {verifySha256 : Bool} {object : LocalObject} {store later : ObjectMap}
    (hgrown : Extends store later) (h : StandsAt platform verifySha256 object store) :
    StandsAt platform verifySha256 object later := by
  obtain ⟨content, hstored, hrest⟩ := h
  exact ⟨content, hgrown _ _ hstored, hrest⟩

theorem ObjectsStand.mono {plan : PublishPlan} {store later : ObjectMap}
    (hgrown : Extends store later) (h : ObjectsStand platform plan store) :
    ObjectsStand platform plan later := fun object hobject => (h object hobject).mono hgrown

theorem publishedFrom_empty : PublishedFrom platform keyPrefix allowed fun _ => none := by
  intro key content hstored
  cases hstored

theorem PublishedFrom.create {key : String} {content : Bytes} {store : ObjectMap}
    {plan : PublishPlan} (h : PublishedFrom platform keyPrefix allowed store)
    (hplan : Publication platform keyPrefix allowed plan)
    (hnew : (∃ object ∈ plan.files, object.key = key ∧ object.content = content) ∨
      (key = plan.commitKey ∧ (∃ now, content = platform.commit.write (plan.commit now)) ∧
        ObjectsStand platform plan store)) :
    PublishedFrom platform keyPrefix allowed (createObject key content store).2 := by
  have hgrown := createObject_extends key content store
  intro other found hfound
  rcases createObject_inv hfound with hold | ⟨rfl, rfl⟩
  · obtain ⟨earlier, hearlier, hfile | ⟨hkey, hcommit, hstand⟩⟩ := h other found hold
    · exact ⟨earlier, hearlier, Or.inl hfile⟩
    · exact ⟨earlier, hearlier, Or.inr ⟨hkey, hcommit, hstand.mono hgrown⟩⟩
  · refine ⟨plan, hplan, hnew.imp_right ?_⟩
    rintro ⟨hkey, hcommit, hstand⟩
    exact ⟨hkey, hcommit, hstand.mono hgrown⟩

end Publications

/-! One plan beside another. -/

section Plans

variable {platform : Platform} {keyPrefix : String}
variable (hdigest : ∀ bytes, isSha256 (platform.sha256 bytes) = true)
variable {tree otherTree : FileTree} {plan other : PublishPlan} {manifest otherManifest : Bytes}
variable {names otherNames : List String}

theorem Planned.name_of_object (h : Planned platform keyPrefix tree plan manifest names)
    {object : LocalObject} (hobject : object ∈ plan.files) :
    ∃ name ∈ names, ObjectOf platform keyPrefix tree plan.artifact name object := by
  obtain ⟨name, hname, hof⟩ := forall₂_mem_right h.objects object hobject
  rw [h.names, mem_sortedNames] at hname
  exact ⟨name, hname, hof⟩

theorem Planned.object_of_name (h : Planned platform keyPrefix tree plan manifest names)
    {name : String} (hname : name ∈ names) :
    ∃ object ∈ plan.files, ObjectOf platform keyPrefix tree plan.artifact name object := by
  have hsorted : name ∈ plan.artifact.files := by rwa [h.names, mem_sortedNames]
  obtain ⟨index, hindex, rfl⟩ := List.mem_iff_getElem.mp hsorted
  obtain ⟨object, hget, hof⟩ :=
    Interleave.forall₂_getElem? h.objects (List.getElem?_eq_getElem hindex)
  exact ⟨object, List.mem_of_getElem? hget, hof⟩

include hdigest in
theorem Planned.digest_safe (h : Planned platform keyPrefix tree plan manifest names) :
    SafeComponent plan.artifact.manifestSha256 := by
  rw [h.digest]
  exact digest_component (hdigest manifest)

theorem ObjectOf.eq_of_name {artifact : VerifiedArtifact} {name : String}
    {left right : LocalObject} (hleft : ObjectOf platform keyPrefix tree artifact name left)
    (hright : ObjectOf platform keyPrefix tree artifact name right) : left = right := by
  have hcontent := hleft.content
  rw [hright.content, Option.some.injEq] at hcontent
  have hkey : left.key = right.key := hleft.key.trans hright.key.symm
  have hsha : left.sha256 = right.sha256 := by rw [hleft.sha256, hright.sha256, hcontent]
  have hbytes : left.bytes = right.bytes := by rw [hleft.bytes, hright.bytes, hcontent]
  cases left
  cases right
  exact LocalObject.mk.injEq .. ▸ ⟨hkey, hsha, hbytes, hcontent.symm⟩

include hdigest in
/-- Two files under one key are those of one directory, and have one name. -/
theorem key_eq (h : Planned platform keyPrefix tree plan manifest names)
    (hother : Planned platform keyPrefix otherTree other otherManifest otherNames)
    {name otherName : String} {left right : LocalObject}
    (hleft : ObjectOf platform keyPrefix tree plan.artifact name left)
    (hright : ObjectOf platform keyPrefix otherTree other.artifact otherName right)
    (hkey : left.key = right.key) :
    (plan.artifact.kind = other.artifact.kind ∧ plan.artifact.id = other.artifact.id ∧
      plan.artifact.manifestSha256 = other.artifact.manifestSha256) ∧ name = otherName := by
  rw [hleft.key, hright.key] at hkey
  exact fileName_injective h.safeId hother.safeId (h.digest_safe hdigest)
    (hother.digest_safe hdigest) (below_injective hkey)

include hdigest in
/-- A plan has one file under a key. -/
theorem Planned.object_unique (h : Planned platform keyPrefix tree plan manifest names)
    {left right : LocalObject} (hleft : left ∈ plan.files) (hright : right ∈ plan.files)
    (hkey : left.key = right.key) : left = right := by
  obtain ⟨name, _, hof⟩ := h.name_of_object hleft
  obtain ⟨otherName, _, hotherOf⟩ := h.name_of_object hright
  obtain ⟨_, hname⟩ := key_eq hdigest h h hof hotherOf hkey
  subst hname
  exact hof.eq_of_name hotherOf

include hdigest in
theorem Planned.object_ne_commit (h : Planned platform keyPrefix tree plan manifest names)
    (hother : Planned platform keyPrefix otherTree other otherManifest otherNames)
    {object : LocalObject} (hobject : object ∈ plan.files) : object.key ≠ other.commitKey := by
  obtain ⟨name, _, hof⟩ := h.name_of_object hobject
  rw [hof.key, hother.commitKey]
  intro hkey
  exact commitName_ne_fileName other.artifact.kind plan.artifact.kind name hother.safeId h.safeId
    (h.digest_safe hdigest) (below_injective hkey).symm

theorem Planned.same_of_commitKey (h : Planned platform keyPrefix tree plan manifest names)
    (hother : Planned platform keyPrefix otherTree other otherManifest otherNames) :
    plan.commitKey = other.commitKey ↔
      plan.artifact.kind = other.artifact.kind ∧ plan.artifact.id = other.artifact.id := by
  constructor
  · intro hkey
    rw [h.commitKey, hother.commitKey] at hkey
    exact commitName_injective h.safeId hother.safeId (below_injective hkey)
  · rintro ⟨hkind, hid⟩
    rw [h.commitKey, hother.commitKey, hkind, hid]

/-- The object of the manifest holds the manifest. -/
theorem Planned.manifest_object (h : Planned platform keyPrefix tree plan manifest names) :
    ∃ object ∈ plan.files, ObjectOf platform keyPrefix tree plan.artifact "manifest.json" object ∧
      object.content = manifest := by
  have hname : "manifest.json" ∈ names := h.described.documents _ (by decide)
  obtain ⟨object, hobject, hof⟩ := h.object_of_name hname
  have hread := hof.content
  rw [h.described.read, Option.some.injEq] at hread
  exact ⟨object, hobject, hof, hread.symm⟩

/-- Manifests with one text describe one artifact. -/
theorem described_unique {kind : ArtifactKind} {id : String}
    {lineage otherLineage : Option String}
    (h : Described platform tree kind id manifest lineage names)
    (hother : Described platform otherTree kind id manifest otherLineage otherNames) :
    lineage = otherLineage ∧ names = otherNames := by
  have hnamed := h.named
  rw [hother.named, Except.ok.injEq, Prod.mk.injEq] at hnamed
  exact ⟨hnamed.1.symm, hnamed.2.symm⟩

theorem artifact_eq_of_manifest (h : Planned platform keyPrefix tree plan manifest names)
    (hother : Planned platform keyPrefix otherTree other otherManifest otherNames)
    (hkind : plan.artifact.kind = other.artifact.kind)
    (hid : plan.artifact.id = other.artifact.id) (hmanifest : manifest = otherManifest) :
    plan.artifact = other.artifact ∧ plan.manifestKey = other.manifestKey := by
  have hdescribed := h.described
  subst hmanifest
  rw [hkind, hid] at hdescribed
  obtain ⟨hlineage, hnames⟩ := described_unique hdescribed hother.described
  have hsha : plan.artifact.manifestSha256 = other.artifact.manifestSha256 := by
    rw [h.digest, hother.digest]
  have hfiles : plan.artifact.files = other.artifact.files := by
    rw [h.names, hother.names, hnames]
  refine ⟨VerifiedArtifact.ext hkind hid hsha hlineage hfiles, ?_⟩
  rw [h.manifestKey, hother.manifestKey, hkind, hid, hsha]

include hdigest in
/-- Two plans with the same files are for one artifact. -/
theorem artifact_eq_of_files (h : Planned platform keyPrefix tree plan manifest names)
    (hother : Planned platform keyPrefix otherTree other otherManifest otherNames)
    (hfiles : plan.files = other.files) :
    plan.artifact = other.artifact ∧ plan.manifestKey = other.manifestKey := by
  obtain ⟨object, hobject, hof, hcontent⟩ := h.manifest_object
  obtain ⟨otherName, _, hotherOf⟩ := hother.name_of_object (hfiles ▸ hobject)
  obtain ⟨⟨hkind, hid, _⟩, hname⟩ := key_eq hdigest h hother hof hotherOf rfl
  subst hname
  have hread := hotherOf.content
  rw [hother.described.read, Option.some.injEq] at hread
  exact artifact_eq_of_manifest h hother hkind hid (hcontent.symm.trans hread.symm)

include hdigest in
theorem commit_eq_of_files (h : Planned platform keyPrefix tree plan manifest names)
    (hother : Planned platform keyPrefix otherTree other otherManifest otherNames)
    (hfiles : plan.files = other.files) (now : String) : plan.commit now = other.commit now := by
  obtain ⟨hartifact, hkey⟩ := artifact_eq_of_files hdigest h hother hfiles
  simp only [PublishPlan.commit, hartifact, hkey, hfiles]

/-- The fields of a COMMIT that a publisher compares. -/
theorem validateCommit_iff {commit : ObjectCommit} {accepted : Unit} :
    validateCommit commit plan.artifact plan.manifestKey (objectEntries plan.files) =
        .ok accepted ↔
      commit = plan.commit commit.committedAtUtc := by
  rw [validateCommit, refuseIf_eq_ok]
  simp only [Bool.or_eq_false_iff, bne_eq_false_iff_eq, and_assoc, ObjectCommit.ext_iff,
    PublishPlan.commit, true_and]

theorem sameCommit_iff {existing : ObjectCommit} {now : String} :
    sameCommit existing (plan.commit now) = true ↔
      existing = plan.commit existing.committedAtUtc := by
  rw [sameCommit]
  simp only [Bool.and_eq_true, beq_iff_eq, and_assoc, ObjectCommit.ext_iff,
    PublishPlan.commit, true_and]

end Plans

end Publish

end ChipTrace
