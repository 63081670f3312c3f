/-
The promise of one archiver, whoever else is at work: its writes keep the invariant of
the store, the checkpoint is written over a verified archive, and it fails only where
its rules say so.
-/
import ChipTrace.RawArchive.Commit

namespace ChipTrace

open Interleave

section Archiving

variable (platform : RawPlatform)

def agreesWithPlan (plan : ArchivePlan) (checkpoint : RawArchiveCheckpoint) : Prop :=
  agreesWith checkpoint plan.checkpoint plan.archiveId plan.paths.manifest = true

/-- The writes of a plan keep the invariant of the store. -/
structure WritesKeep (I : ObjectMap → Prop) (plan : ArchivePlan) : Prop where
  object : ∀ object ∈ plan.objects, ∀ store, I store →
    I (createObject object.key object.content store).2
  manifest : ∀ store, I store →
    I (createObject plan.paths.manifest (plan.manifestBytes platform) store).2
  checkpoint : ∀ store, I store → Complete platform store plan.checkpoint →
    (∃ existing, store plan.paths.manifest = some existing ∧
      platform.sha256 existing = platform.sha256 (plan.manifestBytes platform)) →
    I (createObject plan.paths.checkpoint (platform.checkpoint.write plan.checkpoint) store).2

/-- The checkpoint of a plan names the plan's own archive and manifest. -/
structure NamesPlan (plan : ArchivePlan) : Prop where
  archiveId : plan.checkpoint.archiveId = plan.archiveId
  manifestKey : plan.checkpoint.manifestKey = plan.paths.manifest

/-- Why the archiver of a plan fails in conflicts only. -/
structure OnlyConflicts (I : ObjectMap → Prop) (bad : ArchiveError → ObjectMap → Prop)
    (plan : ArchivePlan) : Prop where
  safeKey : SafeKey plan.paths.manifest
  length : ∀ object ∈ plan.objects, object.bytes = object.content.length
  object : ∀ object ∈ plan.objects, ∀ store content, I store →
    store object.key = some content → content = object.content
  manifest : ∀ store existing, I store → store plan.paths.manifest = some existing →
    platform.sha256 existing = platform.sha256 (plan.manifestBytes platform) →
    existing = plan.manifestBytes platform
  manifestConflict : ∀ store existing, I store → store plan.paths.manifest = some existing →
    platform.sha256 existing ≠ platform.sha256 (plan.manifestBytes platform) →
    bad (.immutableConflict plan.paths.manifest) store
  verifiable : ∀ store checkpoint, I store → agreesWithPlan plan checkpoint →
    (∀ object ∈ plan.objects, store object.key = some object.content) →
    store plan.paths.manifest = some (plan.manifestBytes platform) →
    ManifestVerifiable platform checkpoint plan.paths (plan.manifestBytes platform)
      plan.manifest store
  checkpointReads : ∀ store content, I store → store plan.paths.checkpoint = some content →
    ∃ checkpoint, platform.checkpoint.read content = some checkpoint
  checkpointAgrees : ∀ store content checkpoint, I store →
    store plan.paths.checkpoint = some content →
    platform.checkpoint.read content = some checkpoint →
    store plan.paths.manifest = some (plan.manifestBytes platform) →
    agreesWithPlan plan checkpoint
  checkpointConflict : ∀ store content checkpoint, I store →
    store plan.paths.checkpoint = some content →
    platform.checkpoint.read content = some checkpoint → ¬ agreesWithPlan plan checkpoint →
    bad (.checkpointConflict plan.archiveId) store
  confirmed : ∀ store content checkpoint, I store →
    store plan.paths.checkpoint = some content →
    platform.checkpoint.read content = some checkpoint → agreesWithPlan plan checkpoint →
    store plan.paths.manifest = some (plan.manifestBytes platform)

/-- The archive of a plan stands, and the result describes it. -/
structure Finished (plan : ArchivePlan) (result : RawArchiveResult) (store : ObjectMap) :
    Prop where
  manifest : store plan.paths.manifest = some (plan.manifestBytes platform)
  checkpoint : ∃ content checkpoint, store plan.paths.checkpoint = some content ∧
    platform.checkpoint.read content = some checkpoint ∧ agreesWithPlan plan checkpoint
  result : ∃ checkpoint idempotent, agreesWithPlan plan checkpoint ∧
    result = archiveResult checkpoint plan.paths idempotent plan.objects.length

variable {platform} {I : ObjectMap → Prop} {bad : ArchiveError → ObjectMap → Prop}
variable {plan : ArchivePlan}

/-! Objects. -/

theorem keeps_verifyRemoteLength {object : LocalObject} {store : ObjectMap} {content : Bytes}
    (hstored : store object.key = some content)
    (h : Tolerant bad ∨ content.length = object.bytes) :
    TaskKeepsIn I bad (fun later => ∃ content, later object.key = some content)
      (verifyRemoteLength object ((store object.key).map List.length)) store := by
  rw [hstored]
  simp only [Option.map_some, verifyRemoteLength]
  split
  · rename_i hlength
    intro later _ _
    rcases h with htolerant | hsame
    · exact htolerant _ _
    · exact absurd hsame hlength
  · intro later hlater _
    exact ⟨content, hlater _ _ hstored⟩

theorem keeps_ensureObject {object : LocalObject} {store : ObjectMap}
    (hcreate : ∀ store, I store → I (createObject object.key object.content store).2)
    (h : Tolerant bad ∨ ∀ store content, I store → store object.key = some content →
      content.length = object.bytes) :
    TaskKeepsIn I bad (fun later => ∃ content, later object.key = some content)
      (ensureObject object) store := by
  apply keeps_taskStat
  intro first hfirst hfirstInv
  cases hstat : first object.key with
  | some content =>
      have hverify := keeps_verifyRemoteLength (I := I) hstat
        (h.imp_right fun hsame => hsame first content hfirstInv hstat)
      rw [hstat] at hverify
      exact hverify
  | none =>
      apply keeps_taskCreate hcreate
      intro second _
      apply keeps_taskStat
      intro third hthird hthirdInv
      obtain ⟨present, hpresent, _⟩ := createObject_present object.key object.content second
      have hstored : third object.key = some present := hthird _ _ hpresent
      exact keeps_verifyRemoteLength hstored
        (h.imp_right fun hsame => hsame third present hthirdInv hstored)

theorem keeps_ensureLocalObjects {concurrency : ℕ+} {store : ObjectMap}
    (hwrites : WritesKeep platform I plan)
    (h : Tolerant bad ∨ OnlyConflicts platform I bad plan) :
    KeepsIn I bad (fun _ later => ∀ object ∈ plan.objects, ∃ content,
        later object.key = some content)
      (ensureLocalObjects concurrency plan.objects) store := by
  apply Program.Keeps.ofPool
    (fun object (later : ObjectMap) => ∃ content, later object.key = some content)
  · intro object hobject
    apply keeps_ensureObject (hwrites.object object hobject)
    refine h.imp_right fun hrules first content hinv hstored => ?_
    rw [hrules.object object hobject first content hinv hstored, hrules.length object hobject]
  · intro first hfirst _ hall
    apply keeps_pure
    intro later hlater _ object hobject
    obtain ⟨content, hstored⟩ := hall object hobject
    exact ⟨content, hlater _ _ hstored⟩

/-! The manifest. -/

/-- The manifest under the key of a plan has the digest of the plan's own. -/
def ManifestStands (platform : RawPlatform) (plan : ArchivePlan) (store : ObjectMap) : Prop :=
  ∃ existing, store plan.paths.manifest = some existing ∧
    platform.sha256 existing = platform.sha256 (plan.manifestBytes platform)

theorem ManifestStands.mono {store later : ObjectMap} (hgrown : Extends store later)
    (h : ManifestStands platform plan store) : ManifestStands platform plan later := by
  obtain ⟨existing, hstored, hsha⟩ := h
  exact ⟨existing, hgrown _ _ hstored, hsha⟩

theorem keeps_writeManifest {store : ObjectMap} (hinv : I store)
    (hwrites : WritesKeep platform I plan)
    (h : Tolerant bad ∨ OnlyConflicts platform I bad plan) :
    KeepsIn I bad (fun _ later => ManifestStands platform plan later)
      (writeImmutableBytes platform plan.paths.manifest (plan.manifestBytes platform)) store := by
  have hkey : KeepsIn I bad (fun _ _ => True) (checked (validateKey plan.paths.manifest))
      store := by
    apply keeps_checked
    · intro _ _ later _ _
      trivial
    · intro text herror later _ _
      rcases h with htolerant | hrules
      · exact htolerant _ _
      · have hok : validateKey plan.paths.manifest = .ok () :=
          validateKey_iff.mpr hrules.safeKey
        rw [hok] at herror
        cases herror
  refine Program.Keeps.bind extends_growth hinv hkey ?_
  intro _ first _ _ _
  apply keeps_createIfAbsent
  · intro later _ hlaterInv
    exact hwrites.manifest later hlaterInv
  intro second _ hsecondInv
  split
  · rename_i hcreated
    apply keeps_pure
    intro later hlater _
    exact ⟨_, hlater _ _ (createObject_created hcreated), rfl⟩
  · obtain ⟨present, hpresent, _⟩ := createObject_present plan.paths.manifest
      (plan.manifestBytes platform) second
    have hread : KeepsIn I bad (fun content later => later plan.paths.manifest = some content)
        (readObject plan.paths.manifest)
        (createObject plan.paths.manifest (plan.manifestBytes platform) second).2 :=
      keeps_readObject (Or.inr ⟨present, hpresent⟩)
    refine Program.Keeps.bind extends_growth (hwrites.manifest second hsecondInv) hread ?_
    intro existing third hthird hthirdInv hexisting
    split
    · rename_i hsha
      apply keeps_throw
      intro later hlater hlaterInv
      rcases h with htolerant | hrules
      · exact htolerant _ _
      · exact hrules.manifestConflict later existing hlaterInv (hlater _ _ hexisting) hsha
    · rename_i hsha
      apply keeps_pure
      intro later hlater _
      exact ⟨existing, hlater _ _ hexisting, not_not.mp hsha⟩

/-! The checkpoint. -/

/-- A checkpoint was read under the key of a plan. -/
def CheckpointRead (platform : RawPlatform) (plan : ArchivePlan)
    (checkpoint : RawArchiveCheckpoint) (store : ObjectMap) : Prop :=
  ∃ content, store plan.paths.checkpoint = some content ∧
    platform.checkpoint.read content = some checkpoint

theorem CheckpointRead.mono {checkpoint : RawArchiveCheckpoint} {store later : ObjectMap}
    (hgrown : Extends store later) (h : CheckpointRead platform plan checkpoint store) :
    CheckpointRead platform plan checkpoint later := by
  obtain ⟨content, hstored, hread⟩ := h
  exact ⟨content, hgrown _ _ hstored, hread⟩

theorem keeps_readCheckpoint {store : ObjectMap}
    (h : Tolerant bad ∨ OnlyConflicts platform I bad plan) :
    KeepsIn I bad (fun found later =>
        (∀ checkpoint ∈ found, CheckpointRead platform plan checkpoint later) ∧
          (found = none → store plan.paths.checkpoint = none))
      (readCheckpoint platform plan.paths.checkpoint) store := by
  apply keeps_readOptional
  intro first hfirst hfirstInv
  cases hread : first plan.paths.checkpoint with
  | none =>
      apply keeps_pure
      intro later _ _
      refine ⟨by simp, fun _ => ?_⟩
      cases hstore : store plan.paths.checkpoint with
      | none => rfl
      | some content =>
          rw [hfirst _ _ hstore] at hread
          cases hread
  | some content =>
      simp only
      cases hparsed : platform.checkpoint.read content with
      | none =>
          apply keeps_throw
          intro later _ _
          rcases h with htolerant | hrules
          · exact htolerant _ _
          · obtain ⟨checkpoint, hok⟩ :=
              hrules.checkpointReads first content hfirstInv hread
            rw [hparsed] at hok
            cases hok
      | some checkpoint =>
          apply keeps_pure
          intro later hlater _
          refine ⟨?_, by simp⟩
          intro other hother
          cases hother
          exact ⟨content, hlater _ _ hread, hparsed⟩

theorem keeps_validateCheckpoint {checkpoint : RawArchiveCheckpoint} {store : ObjectMap}
    (hread : CheckpointRead platform plan checkpoint store)
    (h : Tolerant bad ∨ OnlyConflicts platform I bad plan) :
    KeepsIn I bad (fun _ _ => agreesWithPlan plan checkpoint)
      (validateCheckpoint checkpoint plan.checkpoint plan.archiveId plan.paths.manifest)
      store := by
  unfold validateCheckpoint
  split
  · rename_i hagrees
    apply keeps_pure
    intro later _ _
    exact hagrees
  · rename_i hdisagrees
    apply keeps_throw
    intro later hlater hlaterInv
    rcases h with htolerant | hrules
    · exact htolerant _ _
    · obtain ⟨content, hstored, hparsed⟩ := hread.mono hlater
      exact hrules.checkpointConflict later content checkpoint hlaterInv hstored hparsed
        hdisagrees

theorem keeps_writeCheckpoint {store : ObjectMap} (hinv : I store) (hnames : NamesPlan plan)
    (hwrites : WritesKeep platform I plan)
    (h : Tolerant bad ∨ OnlyConflicts platform I bad plan)
    (hcomplete : Complete platform store plan.checkpoint)
    (hmanifest : ManifestStands platform plan store) :
    KeepsIn I bad (fun _ later => ∃ content, later plan.paths.checkpoint = some content)
      (writeCheckpoint platform plan.paths.checkpoint
        (platform.checkpoint.write plan.checkpoint) plan.checkpoint) store := by
  have hafter : ∀ later, Extends store later → I later →
      I (createObject plan.paths.checkpoint (platform.checkpoint.write plan.checkpoint)
        later).2 := by
    intro later hlater hlaterInv
    exact hwrites.checkpoint later hlaterInv (hcomplete.mono hlater) (hmanifest.mono hlater)
  apply keeps_createIfAbsent hafter
  intro first hfirst hfirstInv
  obtain ⟨present, hpresent, _⟩ := createObject_present plan.paths.checkpoint
    (platform.checkpoint.write plan.checkpoint) first
  split
  · apply keeps_pure
    intro later hlater _
    exact ⟨present, hlater _ _ hpresent⟩
  · have hinv := hafter first hfirst hfirstInv
    refine Program.Keeps.bind extends_growth hinv (keeps_readCheckpoint h) ?_
    rintro found second hsecond hsecondInv ⟨hread, habsent⟩
    cases found with
    | none =>
        rw [habsent rfl] at hpresent
        cases hpresent
    | some existing =>
        have hvalidate := keeps_validateCheckpoint (I := I) (hread existing rfl) h
        rw [← hnames.archiveId, ← hnames.manifestKey] at hvalidate
        refine Program.Keeps.bind extends_growth hsecondInv hvalidate ?_
        intro _ third hthird _ _
        apply keeps_pure
        intro later hlater _
        exact ⟨present, hlater _ _ (hthird _ _ (hsecond _ _ hpresent))⟩

/-! The two ways through the archiver. -/

theorem keeps_verifyPlan {checkpoint : RawArchiveCheckpoint} {store : ObjectMap}
    (hinv : I store) (h : Tolerant bad ∨ OnlyConflicts platform I bad plan)
    (hagrees : agreesWithPlan plan checkpoint)
    (hobjects : ∀ object ∈ plan.objects, ∃ content, store object.key = some content)
    (hmanifest : OnlyConflicts platform I bad plan →
      store plan.paths.manifest = some (plan.manifestBytes platform)) :
    KeepsIn I bad (fun _ later => Complete platform later checkpoint)
      (verifyManifestObjects platform checkpoint plan.paths true) store := by
  apply keeps_verifyManifestObjects hinv
  refine h.imp_right fun hrules => ?_
  refine ⟨_, _, hrules.verifiable store checkpoint hinv hagrees ?_ (hmanifest hrules)⟩
  intro object hobject
  obtain ⟨content, hstored⟩ := hobjects object hobject
  rw [hstored, hrules.object object hobject store content hinv hstored]

theorem ManifestStands.own {store : ObjectMap} (hinv : I store)
    (h : ManifestStands platform plan store) (hrules : OnlyConflicts platform I bad plan) :
    store plan.paths.manifest = some (plan.manifestBytes platform) := by
  obtain ⟨existing, hstored, hsha⟩ := h
  rw [hstored, hrules.manifest store existing hinv hstored hsha]

theorem keeps_commitArchive {store : ObjectMap} (hinv : I store) (hnames : NamesPlan plan)
    (hself : agreesWithPlan plan plan.checkpoint)
    (hwrites : WritesKeep platform I plan)
    (h : Tolerant bad ∨ OnlyConflicts platform I bad plan) :
    KeepsIn I bad (fun result later => OnlyConflicts platform I bad plan →
        Finished platform plan result later)
      (commitArchive platform plan) store := by
  refine Program.Keeps.bind extends_growth hinv (keeps_ensureLocalObjects hwrites h) ?_
  intro _ first _ hfirstInv hobjects
  refine Program.Keeps.bind extends_growth hfirstInv (keeps_writeManifest hfirstInv hwrites h) ?_
  intro _ second hsecond hsecondInv hmanifest
  have hobjectsSecond : ∀ object ∈ plan.objects, ∃ content,
      second object.key = some content := by
    intro object hobject
    obtain ⟨content, hstored⟩ := hobjects object hobject
    exact ⟨content, hsecond _ _ hstored⟩
  have hverify := keeps_verifyPlan hsecondInv h hself hobjectsSecond
    (hmanifest.own hsecondInv)
  refine Program.Keeps.bind extends_growth hsecondInv hverify ?_
  intro _ third hthird hthirdInv hcomplete
  have hmanifestThird := hmanifest.mono hthird
  have hwrite := keeps_writeCheckpoint hthirdInv hnames hwrites h hcomplete hmanifestThird
  refine Program.Keeps.bind extends_growth hthirdInv hwrite ?_
  rintro created fourth hfourth hfourthInv ⟨present, hpresent⟩
  refine Program.Keeps.bind extends_growth hfourthInv (keeps_readCheckpoint h) ?_
  rintro found fifth hfifth hfifthInv ⟨hread, habsent⟩
  cases found with
  | none =>
      rw [habsent rfl] at hpresent
      cases hpresent
  | some committed =>
      have hvalidate := keeps_validateCheckpoint (I := I) (hread committed rfl) h
      refine Program.Keeps.bind extends_growth hfifthInv hvalidate ?_
      intro _ sixth hsixth _ hagrees
      apply keeps_pure
      intro later hlater hlaterInv hrules
      have hgrown : Extends third later := extends_growth.trans hfourth
        (extends_growth.trans hfifth (extends_growth.trans hsixth hlater))
      obtain ⟨content, hstored, hparsed⟩ :=
        (hread committed rfl).mono (extends_growth.trans hsixth hlater)
      exact ⟨(hmanifestThird.mono hgrown).own hlaterInv hrules,
        ⟨content, committed, hstored, hparsed, hagrees⟩, ⟨committed, !created, hagrees, rfl⟩⟩

theorem keeps_confirmArchive {existing : RawArchiveCheckpoint} {store : ObjectMap}
    (hinv : I store) (hread : CheckpointRead platform plan existing store)
    (hwrites : WritesKeep platform I plan)
    (h : Tolerant bad ∨ OnlyConflicts platform I bad plan) :
    KeepsIn I bad (fun result later => OnlyConflicts platform I bad plan →
        Finished platform plan result later)
      (confirmArchive platform plan existing) store := by
  refine Program.Keeps.bind extends_growth hinv (keeps_validateCheckpoint hread h) ?_
  intro _ first hfirst hfirstInv hagrees
  have hown : ∀ later, Extends first later → I later → OnlyConflicts platform I bad plan →
      later plan.paths.manifest = some (plan.manifestBytes platform) := by
    intro later hlater hlaterInv hrules
    obtain ⟨content, hstored, hparsed⟩ := hread.mono (extends_growth.trans hfirst hlater)
    exact hrules.confirmed later content existing hlaterInv hstored hparsed hagrees
  refine Program.Keeps.bind extends_growth hfirstInv (keeps_ensureLocalObjects hwrites h) ?_
  intro _ second hsecond hsecondInv hobjects
  -- what follows once the manifest is there, in any store from here on
  have hrest : ∀ later, Extends second later → I later →
      KeepsIn I bad (fun result later => OnlyConflicts platform I bad plan →
          Finished platform plan result later)
        (verifyManifestObjects platform existing plan.paths true >>= fun _ =>
          pure (archiveResult existing plan.paths true plan.objects.length)) later := by
    intro later hlater hlaterInv
    have hgrown := extends_growth.trans hsecond hlater
    have hverify := keeps_verifyPlan hlaterInv h hagrees
      (by
        intro object hobject
        obtain ⟨content, hstored⟩ := hobjects object hobject
        exact ⟨content, hlater _ _ hstored⟩)
      (hown later hgrown hlaterInv)
    refine Program.Keeps.bind extends_growth hlaterInv hverify ?_
    intro _ third hthird _ _
    apply keeps_pure
    intro final hfinal hfinalInv hrules
    have hgrownFinal := extends_growth.trans hgrown (extends_growth.trans hthird hfinal)
    obtain ⟨content, hstored, hparsed⟩ := hread.mono (extends_growth.trans hfirst hgrownFinal)
    exact ⟨hown final hgrownFinal hfinalInv hrules,
      ⟨content, existing, hstored, hparsed, hagrees⟩, ⟨existing, true, hagrees, rfl⟩⟩
  apply keeps_readOptional
  intro third hthird hthirdInv
  split
  · refine Program.Keeps.bind extends_growth hthirdInv
      (keeps_writeManifest hthirdInv hwrites h) ?_
    intro _ fourth hfourth hfourthInv _
    exact hrest fourth (extends_growth.trans hthird hfourth) hfourthInv
  · exact hrest third hthird hthirdInv

theorem keeps_archivePlan {store : ObjectMap} (hinv : I store) (hnames : NamesPlan plan)
    (hself : agreesWithPlan plan plan.checkpoint)
    (hwrites : WritesKeep platform I plan)
    (h : Tolerant bad ∨ OnlyConflicts platform I bad plan) :
    KeepsIn I bad (fun result later => OnlyConflicts platform I bad plan →
        Finished platform plan result later)
      (archivePlan platform plan) store := by
  refine Program.Keeps.bind extends_growth hinv (keeps_readCheckpoint h) ?_
  rintro found first _ hfirstInv ⟨hread, _⟩
  cases found with
  | some existing => exact keeps_confirmArchive hfirstInv (hread existing rfl) hwrites h
  | none => exact keeps_commitArchive hfirstInv hnames hself hwrites h

end Archiving

end ChipTrace
