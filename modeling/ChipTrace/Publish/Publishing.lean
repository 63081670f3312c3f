/-
The promise of one publisher, whoever else is at work: what it writes was published, its
COMMIT comes after its files, and it fails only where another artifact with its kind and
id stands in the store.
-/
import ChipTrace.Publish.Commit

namespace ChipTrace

namespace Publish

open Interleave

section Stored

variable {platform : Platform} {keyPrefix : String} {allowed : PublishRequest → Prop}
variable (hdigest : ∀ bytes, isSha256 (platform.sha256 bytes) = true)
variable {plan : PublishPlan} {store : ObjectMap}

include hdigest in
theorem Publication.planned (h : Publication platform keyPrefix allowed plan) :
    ∃ tree manifest names, Planned platform keyPrefix tree plan manifest names := by
  obtain ⟨request, _, hnormalized, hprepared⟩ := h
  obtain ⟨found, manifest, names, hfound, hplanned, _⟩ := preparePublish_ok hdigest hprepared
  rw [hnormalized, Except.ok.injEq] at hfound
  subst hfound
  exact ⟨request.tree, manifest, names, hplanned⟩

include hdigest in
/-- What stands under the key of a file was published as that file. -/
theorem PublishedFrom.object (hinv : PublishedFrom platform keyPrefix allowed store)
    (hplan : Publication platform keyPrefix allowed plan) {object : LocalObject}
    (hobject : object ∈ plan.files) {content : Bytes}
    (hstored : store object.key = some content) :
    ∃ other, Publication platform keyPrefix allowed other ∧
      other.commitKey = plan.commitKey ∧
      other.artifact.manifestSha256 = plan.artifact.manifestSha256 ∧
      ∃ otherObject ∈ other.files, otherObject.key = object.key ∧
        otherObject.content = content := by
  obtain ⟨tree, manifest, names, hplanned⟩ := hplan.planned hdigest
  obtain ⟨other, hother, hwritten⟩ := hinv _ _ hstored
  obtain ⟨otherTree, otherManifest, otherNames, hotherPlanned⟩ := hother.planned hdigest
  rcases hwritten with ⟨otherObject, hmem, hkey, hcontent⟩ | ⟨hkey, _⟩
  · obtain ⟨name, _, hof⟩ := hplanned.name_of_object hobject
    obtain ⟨otherName, _, hotherOf⟩ := hotherPlanned.name_of_object hmem
    obtain ⟨⟨hkind, hid, hsha⟩, _⟩ := key_eq hdigest hotherPlanned hplanned hotherOf hof hkey
    have hcommitKey := (hotherPlanned.same_of_commitKey hplanned).mpr ⟨hkind, hid⟩
    exact ⟨other, hother, hcommitKey, hsha, otherObject, hmem, hkey, hcontent⟩
  · exact absurd hkey (hplanned.object_ne_commit hdigest hotherPlanned hobject)

include hdigest in
/-- What stands under the key of a COMMIT is one, and its files stand. -/
theorem PublishedFrom.commit (hinv : PublishedFrom platform keyPrefix allowed store)
    (hplan : Publication platform keyPrefix allowed plan) {content : Bytes}
    (hstored : store plan.commitKey = some content) :
    ∃ other now, Publication platform keyPrefix allowed other ∧
      other.commitKey = plan.commitKey ∧
      content = platform.commit.write (other.commit now) ∧ ObjectsStand platform other store := by
  obtain ⟨tree, manifest, names, hplanned⟩ := hplan.planned hdigest
  obtain ⟨other, hother, hwritten⟩ := hinv _ _ hstored
  obtain ⟨otherTree, otherManifest, otherNames, hotherPlanned⟩ := hother.planned hdigest
  rcases hwritten with ⟨object, hmem, hkey, _⟩ | ⟨hkey, ⟨now, hcontent⟩, hstand⟩
  · exact absurd hkey (hotherPlanned.object_ne_commit hdigest hplanned hmem)
  · exact ⟨other, now, hother, hkey.symm, hcontent, hstand⟩

include hdigest in
/-- An object that is not what the plan has there is another artifact's. -/
theorem conflict_of_object (hinv : PublishedFrom platform keyPrefix allowed store)
    (hplan : Publication platform keyPrefix allowed plan) {object : LocalObject}
    (hobject : object ∈ plan.files) {content : Bytes}
    (hstored : store object.key = some content)
    (hdiffers : ¬ (content.length = object.bytes ∧ platform.sha256 content = object.sha256)) :
    Conflict platform keyPrefix allowed plan store := by
  obtain ⟨tree, manifest, names, hplanned⟩ := hplan.planned hdigest
  obtain ⟨other, hother, hcommitKey, _, otherObject, hmem, hkey, hcontent⟩ :=
    hinv.object hdigest hplan hobject hstored
  refine ⟨other, hother, hcommitKey, ?_, object.key, content, hstored,
    Or.inl ⟨otherObject, hmem, hkey, hcontent⟩⟩
  intro hfiles
  rw [hfiles] at hmem
  have hsame := hplanned.object_unique hdigest hmem hobject hkey
  subst hsame
  obtain ⟨name, _, hof⟩ := hplanned.name_of_object hobject
  apply hdiffers
  rw [← hcontent]
  exact ⟨hof.bytes.symm, hof.sha256.symm⟩

include hdigest in
/-- A COMMIT that the plan does not agree with is another artifact's. -/
theorem conflict_of_commit (hplan : Publication platform keyPrefix allowed plan)
    {other : PublishPlan} {now : String}
    (hother : Publication platform keyPrefix allowed other)
    (hkey : other.commitKey = plan.commitKey)
    (hstored : store plan.commitKey = some (platform.commit.write (other.commit now)))
    (hdiffers : other.commit now ≠ plan.commit now) :
    Conflict platform keyPrefix allowed plan store := by
  obtain ⟨tree, manifest, names, hplanned⟩ := hplan.planned hdigest
  obtain ⟨otherTree, otherManifest, otherNames, hotherPlanned⟩ := hother.planned hdigest
  refine ⟨other, hother, hkey, ?_, plan.commitKey, _, hstored, Or.inr ⟨hkey.symm, now, rfl⟩⟩
  intro hfiles
  exact hdiffers (commit_eq_of_files hdigest hotherPlanned hplanned hfiles now)

theorem Conflict.mono {later : ObjectMap} (hgrown : Extends store later)
    (h : Conflict platform keyPrefix allowed plan store) :
    Conflict platform keyPrefix allowed plan later := by
  obtain ⟨other, hother, hkey, hfiles, key, content, hstored, hwritten⟩ := h
  exact ⟨other, hother, hkey, hfiles, key, content, hgrown _ _ hstored, hwritten⟩

end Stored

theorem keeps_taskRead {I : ObjectMap → Prop} {bad : ArchiveError → ObjectMap → Prop}
    {key : String} {next : Option Bytes → ObjectTask} {goal : ObjectMap → Prop}
    {store : ObjectMap}
    (h : ∀ later, Extends store later → I later →
      TaskKeepsIn I bad goal (next (later key)) later) :
    TaskKeepsIn I bad goal (Task.call (S := ObjectStore) (ObjectOp.read key) next) store :=
  fun later hlater hinv => ⟨hinv, h later hlater hinv⟩

section Publishing

variable {platform : Platform} {keyPrefix : String} {allowed : PublishRequest → Prop}

/-- A conflict excuses every failure. -/
abbrev Excuses (platform : Platform) (keyPrefix : String) (allowed : PublishRequest → Prop)
    (plan : PublishPlan) (bad : ArchiveError → ObjectMap → Prop) : Prop :=
  ∀ error store, Conflict platform keyPrefix allowed plan store → bad error store

variable (hdigest : ∀ bytes, isSha256 (platform.sha256 bytes) = true)
variable {plan : PublishPlan} (hplan : Publication platform keyPrefix allowed plan)
variable {bad : ArchiveError → ObjectMap → Prop}
variable (hbad : Excuses platform keyPrefix allowed plan bad) {store : ObjectMap}

include hdigest hplan hbad

/-! The files. -/

theorem keeps_verifyRemoteObject {object : LocalObject} (hobject : object ∈ plan.files)
    (verifySha256 : Bool) {content : Bytes}
    (hinv : PublishedFrom platform keyPrefix allowed store)
    (hstored : store object.key = some content) :
    TaskKeepsIn (PublishedFrom platform keyPrefix allowed) bad
      (StandsAt platform verifySha256 object)
      (verifyRemoteObject platform verifySha256 object ((store object.key).map List.length))
      store := by
  have hexcused : ¬ (content.length = object.bytes ∧ platform.sha256 content = object.sha256) →
      ∀ error later, Extends store later → bad error later := by
    intro hdiffers error later hlater
    have hconflict := conflict_of_object hdigest hinv hplan hobject hstored hdiffers
    exact hbad error later (hconflict.mono hlater)
  rw [hstored]
  simp only [Option.map_some, verifyRemoteObject]
  split
  · rename_i hlength
    intro later hlater _
    exact hexcused (fun hsame => hlength hsame.1) _ later hlater
  rename_i hlength
  split
  · apply keeps_taskRead
    intro first hfirst _
    rw [hfirst _ _ hstored]
    simp only
    split
    · rename_i hsha
      intro later hlater _
      exact hexcused (fun hsame => hsha hsame.2) _ later (extends_growth.trans hfirst hlater)
    · rename_i hsha
      intro later hlater _
      exact ⟨content, hlater _ _ (hfirst _ _ hstored), not_not.mp hlength,
        fun _ => not_not.mp hsha⟩
  · rename_i hplain
    intro later hlater _
    exact ⟨content, hlater _ _ hstored, not_not.mp hlength, fun hverify => absurd hverify hplain⟩

theorem keeps_ensureObject {object : LocalObject} (hobject : object ∈ plan.files)
    (verifySha256 : Bool) :
    TaskKeepsIn (PublishedFrom platform keyPrefix allowed) bad
      (StandsAt platform verifySha256 object) (ensureObject platform verifySha256 object)
      store := by
  apply keeps_taskStat
  intro first _ hfirstInv
  cases hstat : first object.key with
  | some content =>
      have hverify := keeps_verifyRemoteObject hdigest hplan hbad hobject verifySha256
        hfirstInv hstat
      rw [hstat] at hverify
      exact hverify
  | none =>
      apply keeps_taskCreate
      · intro later hlaterInv
        exact hlaterInv.create hplan (Or.inl ⟨object, hobject, rfl, rfl⟩)
      intro second _
      apply keeps_taskStat
      intro third hthird hthirdInv
      obtain ⟨present, hpresent, _⟩ := createObject_present object.key object.content second
      exact keeps_verifyRemoteObject hdigest hplan hbad hobject verifySha256 hthirdInv
        (hthird _ _ hpresent)

theorem keeps_ensureLocalObjects :
    KeepsIn (PublishedFrom platform keyPrefix allowed) bad
      (fun objects later => objects = objectEntries plan.files ∧
        ObjectsStand platform plan later)
      (ensureLocalObjects platform plan) store := by
  apply Program.Keeps.ofPool (StandsAt platform plan.verifyRemoteSha256)
  · intro object hobject
    exact keeps_ensureObject hdigest hplan hbad hobject plan.verifyRemoteSha256
  · intro first hfirst _ hall
    apply keeps_pure
    intro later hlater _
    exact ⟨rfl, ObjectsStand.mono hlater hall⟩

/-! The COMMIT. -/

/-- The COMMIT under the key of the plan, and whose it is. -/
def CommitRead (platform : Platform) (keyPrefix : String) (allowed : PublishRequest → Prop)
    (plan : PublishPlan) (commit : ObjectCommit) (store : ObjectMap) : Prop :=
  store plan.commitKey = some (platform.commit.write commit) ∧
    ∃ other now, Publication platform keyPrefix allowed other ∧
      other.commitKey = plan.commitKey ∧ commit = other.commit now

omit hdigest hplan hbad in
theorem CommitRead.mono {commit : ObjectCommit} {later : ObjectMap}
    (hgrown : Extends store later)
    (h : CommitRead platform keyPrefix allowed plan commit store) :
    CommitRead platform keyPrefix allowed plan commit later := ⟨hgrown _ _ h.1, h.2⟩

omit hbad in
theorem commitRead_of_stored (hinv : PublishedFrom platform keyPrefix allowed store)
    {content : Bytes} (hstored : store plan.commitKey = some content) :
    ∃ commit, content = platform.commit.write commit ∧
      CommitRead platform keyPrefix allowed plan commit store := by
  obtain ⟨other, now, hother, hkey, hcontent, _⟩ := hinv.commit hdigest hplan hstored
  subst hcontent
  exact ⟨other.commit now, rfl, hstored, other, now, hother, hkey, rfl⟩

omit hbad in
theorem keeps_parseCommit {content : Bytes}
    (hinv : PublishedFrom platform keyPrefix allowed store)
    (hstored : store plan.commitKey = some content) :
    KeepsIn (PublishedFrom platform keyPrefix allowed) bad
      (CommitRead platform keyPrefix allowed plan) (parseCommit platform content) store := by
  obtain ⟨commit, rfl, hread⟩ := commitRead_of_stored hdigest hplan hinv hstored
  rw [parseCommit, platform.commit.read_write]
  apply keeps_pure
  intro later hlater _
  exact hread.mono hlater

omit hbad in
theorem keeps_readExistingCommit :
    KeepsIn (PublishedFrom platform keyPrefix allowed) bad
      (fun found later => ∀ commit ∈ found,
        CommitRead platform keyPrefix allowed plan commit later)
      (readExistingCommit platform plan.commitKey) store := by
  apply keeps_readOptional
  intro first _ hfirstInv
  cases hread : first plan.commitKey with
  | none =>
      apply keeps_pure
      intro later _ _ commit hcommit
      cases hcommit
  | some content =>
      refine Program.Keeps.bind extends_growth hfirstInv
        (keeps_parseCommit hdigest hplan hfirstInv hread) ?_
      intro commit second _ _ hfound
      apply keeps_pure
      intro later hlater _ other hother
      cases hother
      exact hfound.mono hlater

omit hbad in
theorem keeps_readCommit {content : Bytes}
    (hinv : PublishedFrom platform keyPrefix allowed store)
    (hstored : store plan.commitKey = some content) :
    KeepsIn (PublishedFrom platform keyPrefix allowed) bad
      (CommitRead platform keyPrefix allowed plan) (readCommit platform plan.commitKey)
      store := by
  have hread : KeepsIn (PublishedFrom platform keyPrefix allowed) bad
      (fun content later => later plan.commitKey = some content)
      (readObject plan.commitKey) store := keeps_readObject (Or.inr ⟨content, hstored⟩)
  refine Program.Keeps.bind extends_growth hinv hread ?_
  intro found first _ hfirstInv hfound
  exact keeps_parseCommit hdigest hplan hfirstInv hfound

theorem keeps_validateCommit {commit : ObjectCommit}
    (hread : CommitRead platform keyPrefix allowed plan commit store) :
    KeepsIn (PublishedFrom platform keyPrefix allowed) bad
      (fun _ _ => commit = plan.commit commit.committedAtUtc)
      (checked (validateCommit commit plan.artifact plan.manifestKey
        (objectEntries plan.files))) store := by
  apply keeps_checked
  · intro _ hok later _ _
    exact validateCommit_iff.mp hok
  · intro text herror later hlater _
    obtain ⟨hstored, other, now, hother, hkey, rfl⟩ := hread
    apply hbad
    apply conflict_of_commit hdigest hplan hother hkey (hlater _ _ hstored)
    intro hsame
    have hok : validateCommit (other.commit now) plan.artifact plan.manifestKey
        (objectEntries plan.files) = .ok () := validateCommit_iff.mpr hsame
    rw [hok] at herror
    cases herror

theorem keeps_writeCommit (now : String)
    (hinv : PublishedFrom platform keyPrefix allowed store)
    (hstand : ObjectsStand platform plan store) :
    KeepsIn (PublishedFrom platform keyPrefix allowed) bad
      (fun created later => (∃ content, later plan.commitKey = some content) ∧
        (created = true →
          later plan.commitKey = some (platform.commit.write (plan.commit now))))
      (writeCommit platform plan.commitKey (platform.commit.write (plan.commit now))
        (plan.commit now)) store := by
  have hafter : ∀ later, Extends store later → PublishedFrom platform keyPrefix allowed later →
      PublishedFrom platform keyPrefix allowed (createObject plan.commitKey
        (platform.commit.write (plan.commit now)) later).2 := by
    intro later hlater hlaterInv
    exact hlaterInv.create hplan (Or.inr ⟨rfl, ⟨now, rfl⟩, hstand.mono hlater⟩)
  apply keeps_createIfAbsent hafter
  intro first hfirst hfirstInv
  obtain ⟨present, hpresent, _⟩ := createObject_present plan.commitKey
    (platform.commit.write (plan.commit now)) first
  split
  · rename_i hcreated
    apply keeps_pure
    intro later hlater _
    have hstored := hlater _ _ (createObject_created hcreated)
    exact ⟨⟨_, hstored⟩, fun _ => hstored⟩
  · have hsecondInv := hafter first hfirst hfirstInv
    refine Program.Keeps.bind extends_growth hsecondInv
      (keeps_readCommit hdigest hplan hsecondInv hpresent) ?_
    intro existing second _ _ hexisting
    split
    · apply keeps_pure
      intro later hlater _
      exact ⟨⟨_, hlater _ _ hexisting.1⟩, fun hcreated => by cases hcreated⟩
    · rename_i hdiffers
      apply keeps_throw
      intro later hlater _
      obtain ⟨hstored, other, otherNow, hother, hkey, rfl⟩ := hexisting
      apply hbad
      apply conflict_of_commit hdigest hplan hother hkey (hlater _ _ hstored)
      intro hsame
      exact hdiffers (sameCommit_iff.mpr hsame)

/-! The two ways through the publisher. -/

/-- The artifact of a plan is published, and the result describes it. -/
structure Published (platform : Platform) (plan : PublishPlan) (now : String)
    (result : PublishResult) (store : ObjectMap) : Prop where
  commit : ∃ committedAt,
    store plan.commitKey = some (platform.commit.write (plan.commit committedAt))
  own : result.idempotent = false →
    store plan.commitKey = some (platform.commit.write (plan.commit now))
  objects : ObjectsStand platform plan store
  result : ∃ idempotent, result = publishResult plan idempotent (objectEntries plan.files)

theorem keeps_confirmCommit {existing : ObjectCommit} {now : String}
    (hinv : PublishedFrom platform keyPrefix allowed store)
    (hread : CommitRead platform keyPrefix allowed plan existing store) :
    KeepsIn (PublishedFrom platform keyPrefix allowed) bad (Published platform plan now)
      (confirmCommit platform plan existing) store := by
  have hvalidate := keeps_validateCommit hdigest hplan hbad hread
  refine Program.Keeps.bind extends_growth hinv hvalidate ?_
  intro _ first hfirst hfirstInv hsame
  refine Program.Keeps.bind extends_growth hfirstInv
    (keeps_ensureLocalObjects hdigest hplan hbad) ?_
  rintro _ second hsecond _ ⟨_, hstand⟩
  apply keeps_pure
  intro later hlater _
  have hstored := hlater _ _ (hsecond _ _ (hfirst _ _ hread.1))
  rw [hsame] at hstored
  have hobjects : existing.objects = objectEntries plan.files := congrArg ObjectCommit.objects hsame
  refine ⟨⟨_, hstored⟩, ?_, hstand.mono hlater, true, ?_⟩
  · intro hown
    cases hown
  · rw [hobjects]

theorem keeps_commitArtifact {now : String}
    (hinv : PublishedFrom platform keyPrefix allowed store) :
    KeepsIn (PublishedFrom platform keyPrefix allowed) bad (Published platform plan now)
      (commitArtifact platform plan now) store := by
  refine Program.Keeps.bind extends_growth hinv (keeps_ensureLocalObjects hdigest hplan hbad) ?_
  rintro objects first _ hfirstInv ⟨rfl, hstand⟩
  have hwrite := keeps_writeCommit hdigest hplan hbad now hfirstInv hstand
  refine Program.Keeps.bind extends_growth hfirstInv hwrite ?_
  rintro created second hsecond hsecondInv ⟨⟨present, hpresent⟩, hcreated⟩
  refine Program.Keeps.bind extends_growth hsecondInv
    (keeps_readCommit hdigest hplan hsecondInv hpresent) ?_
  intro committed third hthird hthirdInv hcommitted
  have hvalidate := keeps_validateCommit hdigest hplan hbad hcommitted
  refine Program.Keeps.bind extends_growth hthirdInv hvalidate ?_
  intro _ fourth hfourth _ hsame
  apply keeps_pure
  intro later hlater _
  have hgrown : Extends second later := extends_growth.trans hthird
    (extends_growth.trans hfourth hlater)
  have hstored := hlater _ _ (hfourth _ _ hcommitted.1)
  rw [hsame] at hstored
  refine ⟨⟨_, hstored⟩, ?_, hstand.mono (extends_growth.trans hsecond hgrown), !created, rfl⟩
  intro hown
  have hnew : created = true := by simpa [publishResult] using hown
  exact hgrown _ _ (hcreated hnew)

theorem keeps_publishPlan {now : String}
    (hinv : PublishedFrom platform keyPrefix allowed store) :
    KeepsIn (PublishedFrom platform keyPrefix allowed) bad (Published platform plan now)
      (publishPlan platform plan now) store := by
  refine Program.Keeps.bind extends_growth hinv (keeps_readExistingCommit hdigest hplan) ?_
  intro found first _ hfirstInv hread
  cases found with
  | some existing => exact keeps_confirmCommit hdigest hplan hbad hfirstInv (hread existing rfl)
  | none => exact keeps_commitArtifact hdigest hplan hbad hfirstInv

end Publishing

end Publish

end ChipTrace
