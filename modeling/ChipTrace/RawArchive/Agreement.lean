/-
What stands in the store came from the archivers that were started.  With digests that
tell their contents apart, an archiver fails in conflicts only, and a conflict means
that the archive of another content stands.
-/
import ChipTrace.RawArchive.Concurrent
import Mathlib.Logic.Equiv.List
import Mathlib.Tactic.DeriveEncodable

namespace ChipTrace

open Interleave

section Agreement

variable (platform : RawPlatform)

/-- A request that the archiver accepts, with a key that the store takes and sizes that a
machine can count. -/
structure Archivable (request : ArchiveRequest) (plan : ArchivePlan) : Prop where
  prepared : prepareArchive platform request = .ok plan
  safeKey : SafeKey plan.paths.manifest
  fits : (plan.segments.map (·.bytes)).sum < U64.limit

/-- A byte string that an allowed archiver writes as an object or as its manifest. -/
def Payload (allowed : ArchiveRequest → Prop) (bytes : Bytes) : Prop :=
  ∃ request plan, allowed request ∧ prepareArchive platform request = .ok plan ∧
    ((∃ segment ∈ plan.segments, bytes = segment.content) ∨
      bytes = plan.manifestBytes platform)

/-- The digest tells what the archivers write apart. -/
def CollisionFree (allowed : ArchiveRequest → Prop) : Prop :=
  ∀ left right, Payload platform allowed left → Payload platform allowed right →
    platform.sha256 left = platform.sha256 right → left = right

/-- Every document and object in the store is one that an allowed archiver wrote, and a
checkpoint stands next to its manifest. -/
structure StoredFrom (allowed : ArchiveRequest → Prop) (store : ObjectMap) : Prop where
  object : ∀ {key content digest}, store key = some content →
    keyName key = digest ++ ".ndjson" →
    platform.sha256 content = digest ∧ Payload platform allowed content
  manifest : ∀ {key content}, store key = some content → keyName key = "manifest.json" →
    ∃ request plan, allowed request ∧ prepareArchive platform request = .ok plan ∧
      key = plan.paths.manifest ∧ content = plan.manifestBytes platform
  checkpoint : ∀ {key content}, store key = some content → keyName key = "CHECKPOINT.json" →
    ∃ request plan, allowed request ∧ prepareArchive platform request = .ok plan ∧
      key = plan.paths.checkpoint ∧
      content = platform.checkpoint.write plan.checkpoint ∧
      store plan.paths.manifest = some (plan.manifestBytes platform)

variable {platform} {allowed : ArchiveRequest → Prop}

theorem StoredFrom.empty : StoredFrom platform allowed fun _ => none := by
  constructor
  · intro key content digest hstored
    cases hstored
  · intro key content hstored
    cases hstored
  · intro key content hstored
    cases hstored

/-- A write under a new key keeps the invariant when the write itself meets it. -/
theorem StoredFrom.create {key : String} {content : Bytes} {store : ObjectMap}
    (h : StoredFrom platform allowed store)
    (hobject : ∀ digest, keyName key = digest ++ ".ndjson" →
      platform.sha256 content = digest ∧ Payload platform allowed content)
    (hmanifest : keyName key = "manifest.json" → ∃ request plan, allowed request ∧
      prepareArchive platform request = .ok plan ∧ key = plan.paths.manifest ∧
      content = plan.manifestBytes platform)
    (hcheckpoint : keyName key = "CHECKPOINT.json" → ∃ request plan, allowed request ∧
      prepareArchive platform request = .ok plan ∧ key = plan.paths.checkpoint ∧
      content = platform.checkpoint.write plan.checkpoint ∧
      store plan.paths.manifest = some (plan.manifestBytes platform)) :
    StoredFrom platform allowed (createObject key content store).2 := by
  have hgrown := createObject_extends key content store
  refine ⟨?_, ?_, ?_⟩
  · intro other found digest hfound hname
    rcases createObject_inv hfound with hold | ⟨rfl, rfl⟩
    · exact h.object hold hname
    · exact hobject digest hname
  · intro other found hfound hname
    rcases createObject_inv hfound with hold | ⟨rfl, rfl⟩
    · exact h.manifest hold hname
    · exact hmanifest hname
  · intro other found hfound hname
    rcases createObject_inv hfound with hold | ⟨rfl, rfl⟩
    · obtain ⟨request, plan, hallowed, hplan, hkey, hcontent, hstands⟩ :=
        h.checkpoint hold hname
      exact ⟨request, plan, hallowed, hplan, hkey, hcontent, hgrown _ _ hstands⟩
    · obtain ⟨request, plan, hallowed, hplan, hkey, hcontent, hstands⟩ := hcheckpoint hname
      exact ⟨request, plan, hallowed, hplan, hkey, hcontent, hgrown _ _ hstands⟩

variable (hdigest : ∀ bytes, isHexDigest (platform.sha256 bytes) = true)
variable (hfree : CollisionFree platform allowed)
variable {request : ArchiveRequest} {plan : ArchivePlan}

include hdigest hfree in
/-- The manifest under a plan's key with the digest of the plan's own is the plan's own. -/
theorem StoredFrom.manifest_own {store : ObjectMap} (h : StoredFrom platform allowed store)
    (hallowed : allowed request) (hok : prepareArchive platform request = .ok plan)
    {existing : Bytes} (hstored : store plan.paths.manifest = some existing)
    (hsha : platform.sha256 existing = platform.sha256 (plan.manifestBytes platform)) :
    existing = plan.manifestBytes platform := by
  have hplan := prepareArchive_ok hok
  obtain ⟨other, otherPlan, hotherAllowed, hotherOk, _, hcontent⟩ :=
    h.manifest hstored hplan.manifest_name
  apply hfree
  · exact ⟨other, otherPlan, hotherAllowed, hotherOk, Or.inr hcontent⟩
  · exact ⟨request, plan, hallowed, hok, Or.inr rfl⟩
  · exact hsha

include hdigest hfree in
theorem writesKeep_storedFrom (hallowed : allowed request)
    (hok : prepareArchive platform request = .ok plan) :
    WritesKeep platform (StoredFrom platform allowed) plan where
  object object hobject store hinv := by
    have hplan := prepareArchive_ok hok
    obtain ⟨segment, hsegment, rfl, _, hname⟩ := hplan.object_name hdigest hobject
    apply hinv.create
    · intro digest hdigestName
      rw [hname] at hdigestName
      have htexts := congrArg String.toList hdigestName
      rw [String.toList_append, String.toList_append] at htexts
      refine ⟨String.toList_inj.mp (List.append_cancel_right htexts), ?_⟩
      exact ⟨request, plan, hallowed, hok, Or.inl ⟨segment, hsegment, rfl⟩⟩
    · intro hdocument
      exact absurd (hname.symm.trans hdocument) (document_name_ne _).2
    · intro hdocument
      exact absurd (hname.symm.trans hdocument) (document_name_ne _).1
  manifest store hinv := by
    have hname := (prepareArchive_ok hok).manifest_name
    apply hinv.create
    · intro digest hdigestName
      exact absurd (hdigestName.symm.trans hname) (document_name_ne digest).2
    · intro _
      exact ⟨request, plan, hallowed, hok, rfl, rfl⟩
    · intro hdocument
      exact absurd (hname.symm.trans hdocument) (by decide)
  checkpoint store hinv _ hmanifest := by
    have hname := (prepareArchive_ok hok).checkpoint_name
    obtain ⟨existing, hstored, hsha⟩ := hmanifest
    have hown := hinv.manifest_own hdigest hfree hallowed hok hstored hsha
    apply hinv.create
    · intro digest hdigestName
      exact absurd (hdigestName.symm.trans hname) (document_name_ne digest).1
    · intro hdocument
      exact absurd (hname.symm.trans hdocument) (by decide)
    · intro _
      exact ⟨request, plan, hallowed, hok, rfl, rfl, hown ▸ hstored⟩

/-! Two plans whose manifests are the same bytes. -/

/-- What a checkpoint says that agrees with a plan. -/
structure Agrees (platform : RawPlatform) (plan : ArchivePlan)
    (checkpoint : RawArchiveCheckpoint) : Prop where
  schemaVersion : checkpoint.schemaVersion = rawCheckpointSchemaVersion
  state : checkpoint.state = "committed"
  committedAtUtc : Text.isBlank checkpoint.committedAtUtc = false
  completeness : checkpoint.completeness = plan.manifest.completeness
  archiveId : checkpoint.archiveId = plan.archiveId
  manifestKey : checkpoint.manifestKey = plan.paths.manifest
  manifestSha256 : checkpoint.manifestSha256 = platform.sha256 (plan.manifestBytes platform)
  segmentCount : checkpoint.segmentCount = plan.manifest.segmentCount
  totalRecords : checkpoint.totalRecords = plan.manifest.totalRecords
  totalBytes : checkpoint.totalBytes = plan.manifest.totalBytes

theorem agreesWithPlan_iff (hplan : PlanOf platform request plan)
    {checkpoint : RawArchiveCheckpoint} :
    agreesWithPlan plan checkpoint ↔ Agrees platform plan checkpoint := by
  rw [agreesWithPlan, hplan.checkpoint]
  simp only [agreesWith, checkpointFor, Bool.and_eq_true, beq_iff_eq, Bool.not_eq_true']
  constructor
  · rintro ⟨⟨⟨⟨⟨⟨⟨⟨⟨h1, h2⟩, h3⟩, h4⟩, h5⟩, h6⟩, h7⟩, h8⟩, h9⟩, h10⟩
    exact ⟨h1, h2, h3, h4, h5, h6, h7, h8, h9, h10⟩
  · rintro ⟨h1, h2, h3, h4, h5, h6, h7, h8, h9, h10⟩
    exact ⟨⟨⟨⟨⟨⟨⟨⟨⟨h1, h2⟩, h3⟩, h4⟩, h5⟩, h6⟩, h7⟩, h8⟩, h9⟩, h10⟩

/-- The checkpoint of a plan with the same manifest at the same place agrees. -/
theorem agrees_of_manifest {other : ArchiveRequest} {otherPlan : ArchivePlan}
    (hplan : PlanOf platform request plan) (hother : PlanOf platform other otherPlan)
    (hcheckpoint : plan.paths.checkpoint = otherPlan.paths.checkpoint)
    (hbytes : otherPlan.manifestBytes platform = plan.manifestBytes platform) :
    agreesWithPlan plan otherPlan.checkpoint := by
  obtain ⟨normalized, hpaths⟩ := hplan.pathsOf
  obtain ⟨otherNormalized, hotherPaths⟩ := hother.pathsOf
  obtain ⟨hid, hkey⟩ := hpaths.eq_of_checkpoint hotherPaths hplan.safeId hother.safeId hcheckpoint
  have hmanifest : otherPlan.manifest = plan.manifest :=
    platform.manifest.write_injective hbytes
  have hself := (agreesWithPlan_iff hother).mp hother.self
  rw [agreesWithPlan_iff hplan]
  exact ⟨hself.schemaVersion, hself.state, hself.committedAtUtc,
    hmanifest ▸ hself.completeness, hid ▸ hself.archiveId, hkey ▸ hself.manifestKey,
    hbytes ▸ hself.manifestSha256, hmanifest ▸ hself.segmentCount,
    hmanifest ▸ hself.totalRecords, hmanifest ▸ hself.totalBytes⟩

/-! The objects of a plan pass the verification. -/

theorem remoteReader_read {json : Bytes → Option Json} {content : Bytes} {records : List Json}
    (h : segmentReader.read json content = .ok records) :
    remoteReader.read json content = .ok records := by
  rw [RecordReader.read, List.mapM_eq_ok_iff] at h ⊢
  refine h.imp ?_
  intro line record hline
  unfold RecordReader.readLine at hline ⊢
  cases hjson : json line with
  | none =>
      rw [hjson] at hline
      cases hline
  | some value =>
      rw [hjson] at hline
      simp only at hline ⊢
      split at hline
      · rename_i haccepts
        have hremote : remoteReader.accepts value = true := haccepts
        rw [if_pos hremote]
        exact hline
      · cases hline

/-- What stands under the key of a segment's object is the segment. -/
theorem StoredFrom.object_own {store : ObjectMap} (h : StoredFrom platform allowed store)
    (hdigest : ∀ bytes, isHexDigest (platform.sha256 bytes) = true)
    (hfree : CollisionFree platform allowed) (hallowed : allowed request)
    (hok : prepareArchive platform request = .ok plan) {segment : LocalSegment}
    (hsegment : segment ∈ plan.segments) {content : Bytes}
    (hstored : store (plan.paths.objectKey segment.sha256) = some content) :
    content = segment.content := by
  have hsha := ((prepareArchive_ok hok).segments.facts hsegment).sha256
  have hname : keyName (plan.paths.objectKey segment.sha256) =
      platform.sha256 segment.content ++ ".ndjson" := by
    rw [hsha]
    exact objectKey_name _ (hdigest _)
  obtain ⟨hcontentSha, hpayload⟩ := h.object hstored hname
  exact hfree content segment.content hpayload
    ⟨request, plan, hallowed, hok, Or.inl ⟨segment, hsegment, rfl⟩⟩ hcontentSha

/-- A segment whose object is stored passes the verification. -/
theorem entryStored_of_content {segment : LocalSegment} {paths : ArchivePaths}
    (hfacts : SegmentFacts platform.sha256 platform.json segment) {store : ObjectMap}
    (hstored : store (paths.objectKey segment.sha256) = some segment.content) :
    EntryStored platform store (segment.entry paths) := by
  obtain ⟨records, hread, hcount, _⟩ := hfacts.records
  exact ⟨segment.content, records, hstored, hfacts.bytes.symm, hfacts.sha256.symm,
    remoteReader_read hread, hcount.symm⟩

theorem countRecords_fold (items : List (SegmentEntry × Bool)) (start : Nat) :
    items.foldl (countRecords true) start =
      ((items.filter fun item => !item.2).map (·.1.records)).foldl U64.saturatingAdd start := by
  induction items generalizing start with
  | nil => rfl
  | cons item rest ih =>
      rw [List.foldl_cons, ih]
      cases hempty : item.2 <;> simp [countRecords, hempty]

/-- The records of the built manifest, counted by the walk over its entries. -/
theorem Built.countRecords {archiveId : String} {paths : ArchivePaths}
    {segments : List LocalSegment} {completeSource : Bool} {manifest : RawArchiveManifest}
    (h : Built archiveId paths segments completeSource manifest)
    (hfits : (manifest.segments.map (·.records)).sum < U64.limit) :
    manifest.described.foldl (ChipTrace.countRecords true) 0 = manifest.totalRecords := by
  have hdata : (manifest.described.filter fun item => !item.2).map (·.1.records) =
      manifest.segments.map (·.records) := by
    simp [RawArchiveManifest.described, List.filter_map, Function.comp_def]
  rw [countRecords_fold, hdata, U64.foldl_saturatingAdd _ (by decide),
    U64.saturatingAdd_eq (by omega), h.totalRecords, Nat.mod_eq_of_lt hfits, Nat.zero_add]

theorem PlanOf.records_le (hplan : PlanOf platform request plan) :
    (plan.manifest.segments.map (·.records)).sum ≤ (plan.segments.map (·.bytes)).sum := by
  have hentries : plan.manifest.segments.map (·.records) =
      (plan.segments.filter fun segment => 0 < segment.records).map (·.records) := by
    rw [hplan.manifest.dataEntries, List.map_map]
    rfl
  rw [hentries]
  calc ((plan.segments.filter fun segment => 0 < segment.records).map (·.records)).sum
      ≤ (plan.segments.map (·.records)).sum :=
        (List.filter_sublist.map _).sum_le_sum fun _ _ => Nat.zero_le _
    _ ≤ (plan.segments.map (·.bytes)).sum :=
        List.sum_le_sum fun segment hsegment => (hplan.segments.facts hsegment).records_le

theorem PlanOf.entries_valid (hplan : PlanOf platform request plan)
    (hdigest : ∀ bytes, isHexDigest (platform.sha256 bytes) = true)
    (hsafe : SafeKey plan.paths.manifest) :
    ∀ segment ∈ plan.segments,
      EntryValid plan.paths (segment.records == 0) (segment.entry plan.paths) := by
  obtain ⟨normalized, hpaths⟩ := hplan.pathsOf
  intro segment hsegment
  exact LocalSegment.entry_valid (hplan.segments.facts hsegment) hdigest hpaths hsafe

/-- A reader that trusts a checkpoint accepts the manifest of its plan. -/
theorem PlanOf.validate (hplan : PlanOf platform request plan)
    (hdigest : ∀ bytes, isHexDigest (platform.sha256 bytes) = true)
    (hsafe : SafeKey plan.paths.manifest)
    (hfits : (plan.segments.map (·.bytes)).sum < U64.limit)
    {checkpoint : RawArchiveCheckpoint} (hagrees : Agrees platform plan checkpoint) :
    validateManifestBytes platform checkpoint plan.paths (plan.manifestBytes platform) =
      .ok plan.manifest := by
  have hbuilt := hplan.manifest
  have hmatches : matchesCheckpoint plan.manifest checkpoint = true := by
    simp [matchesCheckpoint, hbuilt.schemaVersion, hbuilt.format, hbuilt.archiveId,
      hagrees.archiveId, hagrees.completeness, hagrees.segmentCount, hagrees.totalRecords,
      hagrees.totalBytes, hbuilt.segmentCount]
  have hcompleteness : validCompleteness checkpoint.completeness = true := by
    rw [hagrees.completeness, hbuilt.completeness]
    cases request.config.allowSegmentGaps <;> decide
  have hcheckpoint : checkCheckpoint checkpoint plan.paths = .ok () := by
    refine Except.bind_eq_ok_iff.mpr ⟨(), refuseIf_eq_ok.mpr ?_, ?_⟩
    · simp [hagrees.schemaVersion, hagrees.state, hagrees.committedAtUtc, hcompleteness,
        hagrees.manifestKey]
    refine Except.bind_eq_ok_iff.mpr ⟨(), validateComponent_iff.mpr ?_, ?_⟩
    · exact hagrees.archiveId ▸ hplan.safeId
    refine Except.bind_eq_ok_iff.mpr ⟨(), validateKey_iff.mpr ?_, refuseIf_eq_ok.mpr ?_⟩
    · exact hagrees.manifestKey ▸ hsafe
    · rw [hagrees.manifestSha256, hdigest]
      rfl
  have hsha : (platform.sha256 (plan.manifestBytes platform) != checkpoint.manifestSha256) =
      false := bne_eq_false_iff_eq.mpr hagrees.manifestSha256.symm
  refine Except.bind_eq_ok_iff.mpr ⟨(), hcheckpoint, ?_⟩
  refine Except.bind_eq_ok_iff.mpr ⟨(), refuseIf_eq_ok.mpr hsha, ?_⟩
  rw [ArchivePlan.manifestBytes, platform.manifest.read_write]
  refine Except.bind_eq_ok_iff.mpr ⟨(), ?_, rfl⟩
  exact hbuilt.validate rfl hplan.segments (hplan.entries_valid hdigest hsafe) hfits hmatches

/-- The archive of another plan stands under the key of this one. -/
def AnotherStands (platform : RawPlatform) (allowed : ArchiveRequest → Prop)
    (plan : ArchivePlan) (store : ObjectMap) : Prop :=
  ∃ request other, allowed request ∧ prepareArchive platform request = .ok other ∧
    other.paths.manifest = plan.paths.manifest ∧ other.manifest ≠ plan.manifest ∧
    store plan.paths.manifest = some (other.manifestBytes platform)

/-- The errors that report a conflict. -/
def ArchiveError.IsConflict : ArchiveError → Prop
  | .immutableConflict _ | .checkpointConflict _ => True
  | .other _ => False

def FailsInConflict (platform : RawPlatform) (allowed : ArchiveRequest → Prop)
    (plan : ArchivePlan) (error : ArchiveError) (store : ObjectMap) : Prop :=
  error.IsConflict ∧ AnotherStands platform allowed plan store

include hdigest hfree in
theorem onlyConflicts (hallowed : allowed request)
    (harchivable : Archivable platform request plan)
    {bad : ArchiveError → ObjectMap → Prop}
    (hbad : ∀ error store, FailsInConflict platform allowed plan error store →
      bad error store) :
    OnlyConflicts platform (StoredFrom platform allowed) bad plan := by
  have hok := harchivable.prepared
  have hplan := prepareArchive_ok hok
  -- the checkpoint in the store is that of a plan whose manifest stands next to it
  have hcheckpoint : ∀ store content, StoredFrom platform allowed store →
      store plan.paths.checkpoint = some content → ∃ other otherPlan, allowed other ∧
        prepareArchive platform other = .ok otherPlan ∧
        plan.paths.checkpoint = otherPlan.paths.checkpoint ∧
        otherPlan.paths.manifest = plan.paths.manifest ∧
        content = platform.checkpoint.write otherPlan.checkpoint ∧
        store plan.paths.manifest = some (otherPlan.manifestBytes platform) := by
    intro store content hinv hstored
    obtain ⟨other, otherPlan, hotherAllowed, hotherOk, hkey, hcontent, hstands⟩ :=
      hinv.checkpoint hstored hplan.checkpoint_name
    obtain ⟨normalized, hpaths⟩ := hplan.pathsOf
    obtain ⟨otherNormalized, hotherPaths⟩ := (prepareArchive_ok hotherOk).pathsOf
    obtain ⟨_, hmanifestKey⟩ := hpaths.eq_of_checkpoint hotherPaths hplan.safeId
      (prepareArchive_ok hotherOk).safeId hkey
    exact ⟨other, otherPlan, hotherAllowed, hotherOk, hkey, hmanifestKey.symm, hcontent,
      hmanifestKey ▸ hstands⟩
  refine ⟨harchivable.safeKey, ?_, ?_, ?_, ?_, ?_, ?_, ?_, ?_, ?_⟩
  · intro object hobject
    obtain ⟨segment, hsegment, rfl⟩ := segment_of_object hobject
    exact (hplan.segments.facts hsegment).bytes
  · intro object hobject store content hinv hstored
    obtain ⟨segment, hsegment, rfl⟩ := segment_of_object hobject
    exact hinv.object_own hdigest hfree hallowed hok hsegment hstored
  · intro store existing hinv hstored hsha
    exact hinv.manifest_own hdigest hfree hallowed hok hstored hsha
  · intro store existing hinv hstored hsha
    obtain ⟨other, otherPlan, hotherAllowed, hotherOk, hkey, rfl⟩ :=
      hinv.manifest hstored hplan.manifest_name
    refine hbad _ _ ⟨trivial, other, otherPlan, hotherAllowed, hotherOk, hkey.symm, ?_, hstored⟩
    intro heq
    exact hsha (by rw [ArchivePlan.manifestBytes, heq, ArchivePlan.manifestBytes])
  · intro store checkpoint hinv hagrees hobjects hmanifest
    have hfields := (agreesWithPlan_iff hplan).mp hagrees
    refine ⟨hmanifest, hplan.validate hdigest harchivable.safeKey harchivable.fits hfields,
      ⟨?_, ?_, by simp, ?_⟩, ?_⟩
    · exact hplan.manifest.described_valid (hplan.entries_valid hdigest harchivable.safeKey)
    · exact hplan.manifest.keys_perm.nodup_iff.mpr (hplan.segments.keys_ordered.imp KeyBefore.ne)
    · intro item hitem
      obtain ⟨segment, hsegment, rfl⟩ :=
        List.mem_map.mp (hplan.manifest.described_perm.subset hitem)
      obtain ⟨object, hobject, hkey⟩ := object_of_segment hsegment
      have hstored := hobjects object hobject
      rw [hkey] at hstored
      have hown := hinv.object_own hdigest hfree hallowed hok hsegment hstored
      rw [hown] at hstored
      exact entryStored_of_content (hplan.segments.facts hsegment) hstored
    · exact hplan.manifest.countRecords (lt_of_le_of_lt hplan.records_le harchivable.fits)
  · intro store content hinv hstored
    obtain ⟨_, otherPlan, _, _, _, _, rfl, _⟩ := hcheckpoint store content hinv hstored
    exact ⟨_, platform.checkpoint.read_write _⟩
  · intro store content checkpoint hinv hstored hread hmanifest
    obtain ⟨other, otherPlan, _, hotherOk, hkey, _, rfl, hstands⟩ :=
      hcheckpoint store content hinv hstored
    rw [platform.checkpoint.read_write, Option.some.injEq] at hread
    rw [hmanifest, Option.some.injEq] at hstands
    exact hread ▸ agrees_of_manifest hplan (prepareArchive_ok hotherOk) hkey hstands.symm
  · intro store content checkpoint hinv hstored hread hdisagrees
    obtain ⟨other, otherPlan, hotherAllowed, hotherOk, hkey, hmanifestKey, rfl, hstands⟩ :=
      hcheckpoint store content hinv hstored
    rw [platform.checkpoint.read_write, Option.some.injEq] at hread
    refine hbad _ _ ⟨trivial, other, otherPlan, hotherAllowed, hotherOk, hmanifestKey, ?_,
      hstands⟩
    intro heq
    apply hdisagrees
    rw [← hread]
    apply agrees_of_manifest hplan (prepareArchive_ok hotherOk) hkey
    rw [ArchivePlan.manifestBytes, heq, ArchivePlan.manifestBytes]
  · intro store content checkpoint hinv hstored hread hagrees
    obtain ⟨other, otherPlan, hotherAllowed, hotherOk, _, _, rfl, hstands⟩ :=
      hcheckpoint store content hinv hstored
    rw [platform.checkpoint.read_write, Option.some.injEq] at hread
    subst hread
    have hself := (agreesWithPlan_iff (prepareArchive_ok hotherOk)).mp
      (prepareArchive_ok hotherOk).self
    have hsha := ((agreesWithPlan_iff hplan).mp hagrees).manifestSha256
    have hsame : otherPlan.manifestBytes platform = plan.manifestBytes platform := by
      apply hfree
      · exact ⟨other, otherPlan, hotherAllowed, hotherOk, Or.inr rfl⟩
      · exact ⟨request, plan, hallowed, hok, Or.inr rfl⟩
      · exact hself.manifestSha256.symm.trans hsha
    rw [hstands, hsame]

/-! The contents of a plan and its manifest. -/

/-- What a plan archives: each segment with its place and its bytes. -/
def ArchivePlan.content (plan : ArchivePlan) : List (String × Nat × Bytes) :=
  plan.segments.map fun segment => (segment.shard, segment.segmentId, segment.content)

/-- Two plans archive the same segments, both as complete sources or both as partial ones. -/
def SameContent (left right : ArchivePlan) : Prop :=
  left.content = right.content ∧ left.manifest.completeness = right.manifest.completeness

theorem map_eq_map_of_imp {A B C D : Type} {left : List A} {right : List B}
    {f : A → C} {f' : B → C} {g : A → D} {g' : B → D} (h : left.map f = right.map f')
    (himp : ∀ a ∈ left, ∀ b ∈ right, f a = f' b → g a = g' b) : left.map g = right.map g' := by
  induction left generalizing right with
  | nil =>
      cases right with
      | nil => rfl
      | cons b right => cases h
  | cons a left ih =>
      cases right with
      | nil => cases h
      | cons b right =>
          rw [List.map_cons, List.map_cons, List.cons.injEq] at h ⊢
          refine ⟨himp a List.mem_cons_self b List.mem_cons_self h.1, ih h.2 ?_⟩
          intro a' ha' b' hb'
          exact himp a' (List.mem_cons_of_mem _ ha') b' (List.mem_cons_of_mem _ hb')

theorem entry_eq_of_content {left right : LocalSegment} {leftPaths rightPaths : ArchivePaths}
    (hleft : SegmentFacts platform.sha256 platform.json left)
    (hright : SegmentFacts platform.sha256 platform.json right)
    (hkeys : leftPaths.objectKey left.sha256 = rightPaths.objectKey left.sha256)
    (h : (left.shard, left.segmentId, left.content) =
      (right.shard, right.segmentId, right.content)) :
    left.entry leftPaths = right.entry rightPaths := by
  obtain ⟨hshard, hrest⟩ := Prod.mk.inj h
  obtain ⟨hid, hcontent⟩ := Prod.mk.inj hrest
  obtain ⟨records, hread, hcount, hcreated, hsealed⟩ := hleft.records
  obtain ⟨others, hreadOther, hcountOther, hcreatedOther, hsealedOther⟩ := hright.records
  rw [hcontent, hreadOther, Except.ok.injEq] at hread
  subst hread
  have hsha : left.sha256 = right.sha256 := by rw [hleft.sha256, hright.sha256, hcontent]
  have hbytes : left.bytes = right.bytes := by rw [hleft.bytes, hright.bytes, hcontent]
  rw [LocalSegment.entry, LocalSegment.entry, hkeys, hshard, hid, hsha, hbytes, hcount,
    hcountOther, hcreated, hcreatedOther, hsealed, hsealedOther]

theorem Built.segments_eq_filter {archiveId : String} {paths : ArchivePaths}
    {segments : List LocalSegment} {completeSource : Bool} {manifest : RawArchiveManifest}
    (h : Built archiveId paths segments completeSource manifest) :
    manifest.segments = (segments.map (·.entry paths)).filter (fun entry => 0 < entry.records) ∧
      manifest.emptySegments =
        (segments.map (·.entry paths)).filter (fun entry => entry.records == 0) := by
  rw [h.dataEntries, h.emptyEntries, List.filter_map, List.filter_map]
  exact ⟨rfl, rfl⟩

variable {other : ArchiveRequest} {otherPlan : ArchivePlan}

/-- The same content under the same archive gives the same manifest. -/
theorem manifest_eq_of_content (hdigest : ∀ bytes, isHexDigest (platform.sha256 bytes) = true)
    (hplan : PlanOf platform request plan) (hother : PlanOf platform other otherPlan)
    (hkey : plan.paths.manifest = otherPlan.paths.manifest)
    (h : SameContent plan otherPlan) : plan.manifest = otherPlan.manifest := by
  obtain ⟨normalized, hpaths⟩ := hplan.pathsOf
  obtain ⟨otherNormalized, hotherPaths⟩ := hother.pathsOf
  obtain ⟨hid, hobjects⟩ := hpaths.eq_of_manifest hotherPaths hplan.safeId hother.safeId hkey
  have hentries : plan.segments.map (·.entry plan.paths) =
      otherPlan.segments.map (·.entry otherPlan.paths) := by
    apply map_eq_map_of_imp h.1
    intro left hleft right hright hsame
    have hfacts := hplan.segments.facts hleft
    refine entry_eq_of_content hfacts (hother.segments.facts hright) ?_ hsame
    rw [hfacts.sha256]
    exact hobjects _ (digest_safe (hdigest _)).slash
  have hbytes : plan.segments.map (·.bytes) = otherPlan.segments.map (·.bytes) := by
    have hmap := congrArg (List.map SegmentEntry.bytes) hentries
    rw [List.map_map, List.map_map] at hmap
    exact hmap
  have hcreated : (plan.segments.head?).map (·.createdAt) =
      (otherPlan.segments.head?).map (·.createdAt) := by
    have hhead := congrArg (fun entries => entries.head?.map SegmentEntry.createdAt) hentries
    simp only [List.head?_map, Option.map_map] at hhead
    exact hhead
  have hbuilt := hplan.manifest
  have hotherBuilt := hother.manifest
  have hsegments : plan.manifest.segments = otherPlan.manifest.segments := by
    rw [hbuilt.segments_eq_filter.1, hotherBuilt.segments_eq_filter.1, hentries]
  have hempty : plan.manifest.emptySegments = otherPlan.manifest.emptySegments := by
    rw [hbuilt.segments_eq_filter.2, hotherBuilt.segments_eq_filter.2, hentries]
  apply RawArchiveManifest.ext
  · rw [hbuilt.schemaVersion, hotherBuilt.schemaVersion]
  · rw [hbuilt.archiveId, hotherBuilt.archiveId, hid]
  · rw [hbuilt.createdAtUtc, hotherBuilt.createdAtUtc, hcreated]
  · rw [hbuilt.format, hotherBuilt.format]
  · exact h.2
  · rw [hbuilt.segmentCount, hotherBuilt.segmentCount, hsegments]
  · exact hempty
  · rw [hbuilt.totalRecords, hotherBuilt.totalRecords, hsegments]
  · rw [hbuilt.totalBytes, hotherBuilt.totalBytes, hbytes]
  · exact hsegments

theorem described_ordered (hplan : PlanOf platform request plan) :
    (plan.segments.map (LocalSegment.described plan.paths)).Pairwise
      fun left right => KeyBefore left.1.key right.1.key :=
  List.pairwise_map.mpr hplan.segments.ordered

/-- Plans with the same manifest archive the same content. -/
theorem content_eq_of_manifest (hfree : CollisionFree platform allowed)
    (hallowed : allowed request) (hok : prepareArchive platform request = .ok plan)
    (hotherAllowed : allowed other) (hotherOk : prepareArchive platform other = .ok otherPlan)
    (h : plan.manifest = otherPlan.manifest) : SameContent plan otherPlan := by
  have hplan := prepareArchive_ok hok
  have hother := prepareArchive_ok hotherOk
  have hperm : (plan.segments.map (LocalSegment.described plan.paths)).Perm
      (otherPlan.segments.map (LocalSegment.described otherPlan.paths)) :=
    hplan.manifest.described_perm.symm.trans (h ▸ hother.manifest.described_perm)
  -- both lists are in strict order of their keys, so they are one list
  have hdescribed := hperm.eq_of_pairwise
    (fun left right _ _ hbefore hafter => absurd hafter hbefore.asymm)
    (described_ordered hplan) (described_ordered hother)
  refine ⟨map_eq_map_of_imp hdescribed ?_, by rw [h]⟩
  intro left hleft right hright hsame
  have hentry : left.entry plan.paths = right.entry otherPlan.paths := (Prod.mk.inj hsame).1
  have hshard : left.shard = right.shard := congrArg SegmentEntry.shard hentry
  have hid : left.segmentId = right.segmentId := congrArg SegmentEntry.segmentId hentry
  have hsha : left.sha256 = right.sha256 := congrArg SegmentEntry.sha256 hentry
  rw [(hplan.segments.facts hleft).sha256, (hother.segments.facts hright).sha256] at hsha
  have hcontent : left.content = right.content := by
    apply hfree
    · exact ⟨request, plan, hallowed, hok, Or.inl ⟨left, hleft, rfl⟩⟩
    · exact ⟨other, otherPlan, hotherAllowed, hotherOk, Or.inl ⟨right, hright, rfl⟩⟩
    · exact hsha
  rw [hshard, hid, hcontent]

/-! The runs of the archivers. -/

include hdigest hfree in
theorem keeps_archiveRaw_agreement (hallowed : allowed request) {store : ObjectMap}
    (hinv : StoredFrom platform allowed store) :
    KeepsIn (StoredFrom platform allowed)
      (fun error later => ∀ plan, Archivable platform request plan →
        FailsInConflict platform allowed plan error later)
      (fun result later => ∀ plan, Archivable platform request plan →
        Finished platform plan result later)
      (archiveRaw platform request) store := by
  have hprepare : KeepsIn (StoredFrom platform allowed)
      (fun error later => ∀ plan, Archivable platform request plan →
        FailsInConflict platform allowed plan error later)
      (fun plan _ => prepareArchive platform request = .ok plan)
      (checked (prepareArchive platform request)) store := by
    apply keeps_checked
    · intro plan hok later _ _
      exact hok
    · intro text herror later _ _ plan harchivable
      rw [harchivable.prepared] at herror
      cases herror
  refine Program.Keeps.bind extends_growth hinv hprepare ?_
  intro plan first _ hfirstInv hok
  have hplan := prepareArchive_ok hok
  have hsame : ∀ other, Archivable platform request other → other = plan := by
    intro other hother
    have hprepared := hother.prepared
    rw [hok, Except.ok.injEq] at hprepared
    exact hprepared.symm
  by_cases harchivable : Archivable platform request plan
  · have hfails : ∀ error later, FailsInConflict platform allowed plan error later →
        ∀ other, Archivable platform request other →
          FailsInConflict platform allowed other error later := by
      intro error later hfails other hother
      rw [hsame other hother]
      exact hfails
    have hrules := onlyConflicts hdigest hfree hallowed harchivable hfails
    have hkeeps := keeps_archivePlan hfirstInv hplan.names hplan.self
      (writesKeep_storedFrom hdigest hfree hallowed hok) (Or.inr hrules)
    refine hkeeps.imp ?_
    intro result later hfinished other hother
    rw [hsame other hother]
    exact hfinished hrules
  · have htolerant : Tolerant (fun (error : ArchiveError) (later : ObjectMap) =>
        ∀ other, Archivable platform request other →
          FailsInConflict platform allowed other error later) := by
      intro error later other hother
      exact absurd (hsame other hother ▸ hother) harchivable
    have hkeeps := keeps_archivePlan hfirstInv hplan.names hplan.self
      (writesKeep_storedFrom hdigest hfree hallowed hok) (Or.inl htolerant)
    refine hkeeps.imp ?_
    intro result later _ other hother
    exact absurd (hsame other hother ▸ hother) harchivable

/-- The requests that a trace starts. -/
def Started (trace : List (Action ArchiveRequest)) (request : ArchiveRequest) : Prop :=
  ∃ run, Action.start run request ∈ trace

include hdigest in
theorem sound_after (trace : List (Action ArchiveRequest))
    (hfree : CollisionFree platform (Started trace)) :
    System.Sound (StoredFrom platform (Started trace)) Extends
      (fun request error store => ∀ plan, Archivable platform request plan →
        FailsInConflict platform (Started trace) plan error store)
      (fun request result store => ∀ plan, Archivable platform request plan →
        Finished platform plan result store)
      (Started trace) (ArchiveSystem.after platform trace) := by
  apply System.sound_run extends_growth
  · intro request hallowed store hinv
    exact keeps_archiveRaw_agreement hdigest hfree hallowed hinv
  · exact StoredFrom.empty
  · apply Machine.along_of_forall
    intro system action haction
    cases action with
    | start run request => exact ⟨run, haction⟩
    | step | land | lose => trivial

/-- What the archivers of a trace come to. -/
structure ArchiveOutcome (platform : RawPlatform) (started : ArchiveRequest → Prop)
    (system : ArchiveSystem) : Prop where
  /-- An archiver succeeds unless the manifest of another content stands in its place. -/
  succeeds : ∀ {n run plan}, system.runs n = some run →
    Archivable platform run.request plan → run.program.Stopped →
    (∀ request other, started request → prepareArchive platform request = .ok other →
      other.paths.manifest = plan.paths.manifest →
      system.store plan.paths.manifest = some (other.manifestBytes platform) →
      SameContent plan other) →
    ∃ result, run.program = .ret result ∧ Finished platform plan result system.store
  /-- Archivers that succeed with one archive have the same content and manifest. -/
  agree : ∀ {n m run other plan otherPlan result otherResult}, system.runs n = some run →
    system.runs m = some other → Archivable platform run.request plan →
    Archivable platform other.request otherPlan → run.program = .ret result →
    other.program = .ret otherResult → plan.paths.manifest = otherPlan.paths.manifest →
    SameContent plan otherPlan ∧ plan.manifest = otherPlan.manifest
  /-- An archiver of another content than the one that stands ends with a conflict. -/
  conflicts : ∀ {n run plan request other}, system.runs n = some run →
    Archivable platform run.request plan → run.program.Stopped → started request →
    prepareArchive platform request = .ok other →
    other.paths.manifest = plan.paths.manifest → ¬ SameContent plan other →
    system.store plan.paths.manifest = some (other.manifestBytes platform) →
    ∃ error dropped, run.program = .fail error dropped ∧ error.IsConflict

theorem stopped_cases {program : ObjectProgram RawArchiveResult}
    (h : program.Stopped) :
    (∃ result, program = .ret result) ∨ ∃ error dropped, program = .fail error dropped := by
  cases program with
  | ret result => exact Or.inl ⟨result, rfl⟩
  | fail error dropped => exact Or.inr ⟨error, dropped, rfl⟩
  | call | pool => cases h

include hdigest in
theorem archiveOutcome_after (trace : List (Action ArchiveRequest))
    (hfree : CollisionFree platform (Started trace)) :
    ArchiveOutcome platform (Started trace) (ArchiveSystem.after platform trace) := by
  have hsound := sound_after hdigest trace hfree
  have hfinished : ∀ {n run plan result},
      (ArchiveSystem.after platform trace).runs n = some run →
      Archivable platform run.request plan → run.program = .ret result →
      Finished platform plan result (ArchiveSystem.after platform trace).store := by
    intro n run plan result hrun harchivable hret
    have hkeeps := hsound.keeps hrun
    rw [hret] at hkeeps
    exact hkeeps _ (extends_growth.refl _) hsound.store plan harchivable
  have hfailed : ∀ {n run plan error dropped},
      (ArchiveSystem.after platform trace).runs n = some run →
      Archivable platform run.request plan → run.program = .fail error dropped →
      FailsInConflict platform (Started trace) plan error
        (ArchiveSystem.after platform trace).store := by
    intro n run plan error dropped hrun harchivable hfail
    have hkeeps := hsound.keeps hrun
    rw [hfail] at hkeeps
    exact hkeeps.1 _ (extends_growth.refl _) hsound.store plan harchivable
  refine ⟨?_, ?_, ?_⟩
  · intro n run plan hrun harchivable hstopped hsame
    rcases stopped_cases hstopped with ⟨result, hret⟩ | ⟨error, dropped, hfail⟩
    · exact ⟨result, hret, hfinished hrun harchivable hret⟩
    · obtain ⟨_, request, other, hstarted, hok, hkey, hne, hstands⟩ :=
        hfailed hrun harchivable hfail
      have hcontent := hsame request other hstarted hok hkey hstands
      have hmanifest := manifest_eq_of_content hdigest (prepareArchive_ok harchivable.prepared)
        (prepareArchive_ok hok) hkey.symm hcontent
      exact absurd hmanifest.symm hne
  · intro n m run other plan otherPlan result otherResult hrun hother harchivable
      hotherArchivable hret hotherRet hkey
    have hown := (hfinished hrun harchivable hret).manifest
    have hotherOwn := (hfinished hother hotherArchivable hotherRet).manifest
    rw [hkey, hotherOwn, Option.some.injEq] at hown
    have hmanifest := platform.manifest.write_injective hown.symm
    exact ⟨content_eq_of_manifest hfree (hsound.allowed hrun) harchivable.prepared
      (hsound.allowed hother) hotherArchivable.prepared hmanifest, hmanifest⟩
  · intro n run plan request other hrun harchivable hstopped hstarted hok hkey hdiffers hstands
    rcases stopped_cases hstopped with ⟨result, hret⟩ | ⟨error, dropped, hfail⟩
    · have hown := (hfinished hrun harchivable hret).manifest
      rw [hstands, Option.some.injEq] at hown
      have hmanifest := platform.manifest.write_injective hown
      exact absurd (content_eq_of_manifest hfree (hsound.allowed hrun) harchivable.prepared
        hstarted hok hmanifest.symm) hdiffers
    · exact ⟨error, dropped, hfail, (hfailed hrun harchivable hfail).1⟩

theorem after_append (trace more : List (Action ArchiveRequest)) :
    ArchiveSystem.after platform (trace ++ more) =
      Machine.run (System.apply (archiveRaw platform)) (ArchiveSystem.after platform trace)
        more := Machine.run_append _ _ _

/-- Whatever archivers run over the store: a visible checkpoint stands for a complete
archive, no action changes what is stored, an archiver that is left alone ends, and it
ends as its content and what stands in the store decide. -/
theorem archivers_commit (platform : RawPlatform)
    (hdigest : ∀ bytes, isHexDigest (platform.sha256 bytes) = true)
    (trace : List (Action ArchiveRequest))
    (hfree : CollisionFree platform (Started trace)) :
    CheckpointsComplete platform (ArchiveSystem.after platform trace).store ∧
      (∀ action, Extends (ArchiveSystem.after platform trace).store
        (ArchiveSystem.after platform (trace ++ [action])).store) ∧
      (∀ n request program,
        (ArchiveSystem.after platform trace).runs n = some ⟨request, program, false⟩ →
        ∃ choices : List Nat, ∃ final : ObjectProgram RawArchiveResult, final.Stopped ∧
          (ArchiveSystem.after platform (trace ++ choices.map (Action.step n))).runs n =
            some ⟨request, final, false⟩) ∧
      ArchiveOutcome platform (Started trace) (ArchiveSystem.after platform trace) := by
  refine ⟨checkpointsComplete_after hdigest trace, ?_, ?_, archiveOutcome_after hdigest trace hfree⟩
  · intro action
    rw [after_append]
    exact System.apply_grows extends_growth _ action
  · intro n request program hrun
    obtain ⟨choices, final, hstopped, hfinal⟩ :=
      @System.run_stops _ _ _ _ (archiveRaw platform) _ _ _ _ hrun
    refine ⟨choices, final, hstopped, ?_⟩
    rw [after_append]
    exact hfinal

end Agreement

/-! One day of captures. -/

instance encodableChar : Encodable Char :=
  Encodable.ofLeftInverse Char.toNat Char.ofNat fun c => by simp

instance encodableString : Encodable String :=
  Encodable.ofLeftInverse String.toList String.ofList fun text => by simp

deriving instance Encodable for SegmentEntry
deriving instance Encodable for RawArchiveManifest
deriving instance Encodable for RawArchiveCheckpoint
deriving instance Encodable for RawSourceLineage

/-- A codec that writes one document as a given text, and numbers all others. -/
def DocumentCodec.writing {A : Type} [DecidableEq A] [Encodable A] (document : A) (text : Bytes)
    (htext : ∃ byte ∈ text, byte ≠ 0) : DocumentCodec A where
  write other := if other = document then text else List.replicate (Encodable.encode other) 0
  read bytes := if bytes = text then some document else Encodable.decode bytes.length
  read_write other := by
    obtain ⟨byte, hbyte, hne⟩ := htext
    by_cases heq : other = document
    · simp [heq]
    · have hzeros : List.replicate (Encodable.encode other) 0 ≠ text := by
        rintro rfl
        exact hne (List.eq_of_mem_replicate hbyte)
      simp [heq, hzeros, Encodable.encodek]

theorem DocumentCodec.writing_write {A : Type} [DecidableEq A] [Encodable A] {document : A}
    {text : Bytes} (htext : ∃ byte ∈ text, byte ≠ 0) :
    (DocumentCodec.writing document text htext).write document = text := if_pos rfl

def dayDigest : String := "93267a7b9c96cb7337383c87aec1d43a9ddddc45afe8e5354ae1f829af13140b"

def dayContent : Bytes := textBytes "\x7b\"captureId\":\"a\"\x7d\n"

def dayManifest : RawArchiveManifest where
  schemaVersion := rawArchiveSchemaVersion
  archiveId := "day"
  createdAtUtc := "unknown"
  format := rawArchiveFormat
  completeness := "complete"
  segmentCount := 1
  emptySegments := []
  totalRecords := 1
  totalBytes := 18
  segments := [{
    shard := "shard-00000"
    segmentId := 1
    objectKey := "raw/objects/" ++ dayDigest ++ ".ndjson"
    sourcePath := "segments/shard-00000/segment-00000000000000000001.sealed.ndjson"
    bytes := 18
    records := 1
    sha256 := dayDigest
    createdAt := "unknown"
    sealedAt := none
  }]

/-- How a written document starts. -/
def openBrace : Bytes := textBytes "\x7b\n"

theorem openBrace_eq : openBrace = [123, 10] :=
  (congrArg Bytes.encode String.toList_ofList).trans (by decide)

theorem openBrace_nonzero (rest : Bytes) : ∃ byte ∈ openBrace ++ rest, byte ≠ 0 := by
  rw [openBrace_eq]
  exact ⟨123, by simp, by decide⟩

def dayManifestText : Bytes := openBrace ++ textBytes
  ("  \"schema_version\": \"chiptrace.raw-archive.v1\",\n  \"archive_id\": \"day\",\n" ++
  "  \"created_at_utc\": \"unknown\",\n  \"format\": \"UTF-8 NDJSON sealed WAL\",\n" ++
  "  \"completeness\": \"complete\",\n  \"segment_count\": 1,\n  \"total_records\": 1,\n" ++
  "  \"total_bytes\": 18,\n  \"segments\": [\n    \x7b\n      \"shard\": \"shard-00000\",\n" ++
  "      \"segment_id\": 1,\n      \"object_key\": \"raw/objects/" ++ dayDigest ++
  ".ndjson\",\n      \"source_path\": " ++
  "\"segments/shard-00000/segment-00000000000000000001.sealed.ndjson\",\n" ++
  "      \"bytes\": 18,\n      \"records\": 1,\n      \"sha256\": \"" ++ dayDigest ++
  "\",\n      \"created_at\": \"unknown\"\n    \x7d\n  ]\n\x7d")

def dayCheckpoint : RawArchiveCheckpoint where
  schemaVersion := rawCheckpointSchemaVersion
  archiveId := "day"
  state := "committed"
  completeness := "complete"
  committedAtUtc := "2026-01-01T00:00:00Z"
  manifestKey := "raw/day/manifest.json"
  manifestSha256 := "e0d713f5f8a67d7ee1db6aa15685e615f5a734ba68f550bd4d84acc609d56526"
  segmentCount := 1
  totalRecords := 1
  totalBytes := 18

def dayCheckpointText : Bytes := openBrace ++ textBytes
  ("  \"schema_version\": \"chiptrace.raw-checkpoint.v1\",\n" ++
  "  \"archive_id\": \"day\",\n  \"state\": \"committed\",\n" ++
  "  \"completeness\": \"complete\",\n" ++
  "  \"committed_at_utc\": \"2026-01-01T00:00:00Z\",\n" ++
  "  \"manifest_key\": \"raw/day/manifest.json\",\n" ++
  "  \"manifest_sha256\": \"e0d713f5f8a67d7ee1db6aa15685e615f5a734ba68f550bd4d84acc609d56526\",\n" ++
  "  \"segment_count\": 1,\n  \"total_records\": 1,\n  \"total_bytes\": 18\n\x7d")

def daySha256 (bytes : Bytes) : String :=
  if bytes = dayContent then dayDigest
  else if bytes = dayManifestText then
    "e0d713f5f8a67d7ee1db6aa15685e615f5a734ba68f550bd4d84acc609d56526"
  else if bytes = dayCheckpointText then
    "87fc44f16e15d94c0a51b5dbef69ccee3b39e8092298b26d336ac209a554ec10"
  else "e3b0c44298fc1c149afbf4c8996fb92427ae41e4649b934ca495991b7852b855"

def dayLineage : RawSourceLineage where
  schemaVersion := rawLineageSchemaVersion
  archiveId := "day"
  completeness := "complete"
  checkpointKey := "raw/day/CHECKPOINT.json"
  checkpointSha256 := "87fc44f16e15d94c0a51b5dbef69ccee3b39e8092298b26d336ac209a554ec10"
  manifestKey := "raw/day/manifest.json"
  manifestSha256 := "e0d713f5f8a67d7ee1db6aa15685e615f5a734ba68f550bd4d84acc609d56526"
  segmentCount := 1
  totalRecords := 1
  totalBytes := 18

def dayLineageText : Bytes := openBrace ++ textBytes
  ("  \"schema_version\": \"chiptrace.raw-lineage.v1\",\n" ++
  "  \"archive_id\": \"day\",\n  \"completeness\": \"complete\",\n" ++
  "  \"checkpoint_key\": \"raw/day/CHECKPOINT.json\",\n" ++
  "  \"checkpoint_sha256\": \"87fc44f16e15d94c0a51b5dbef69ccee3b39e8092298b26d336ac209a554ec10\",\n" ++
  "  \"manifest_key\": \"raw/day/manifest.json\",\n" ++
  "  \"manifest_sha256\": \"e0d713f5f8a67d7ee1db6aa15685e615f5a734ba68f550bd4d84acc609d56526\",\n" ++
  "  \"segment_count\": 1,\n  \"total_records\": 1,\n  \"total_bytes\": 18\n\x7d")

def dayPlatform : RawPlatform where
  sha256 := daySha256
  json := parseBytes
  manifest := .writing dayManifest dayManifestText (openBrace_nonzero _)
  checkpoint := .writing dayCheckpoint dayCheckpointText (openBrace_nonzero _)
  lineage := .writing dayLineage dayLineageText (openBrace_nonzero _)

def dayRequest : ArchiveRequest where
  config := {
    inputs := [["wal"]]
    archiveId := "day"
    keyPrefix := ""
    fileConcurrency := 4
    multipartConcurrency := 4
    multipartChunkBytes := 8 * 1024 * 1024
    retryMaxTimes := 25
    allowSegmentGaps := false
  }
  tree := {
    files := Table.empty.insert ["wal", "segment-00000000000000000001.sealed.ndjson"] dayContent
    dirs := [["wal"]]
  }
  now := ⟨"2026-01-01T00:00:00Z", by decide +kernel⟩

theorem dayDigest_hex (bytes : Bytes) : isHexDigest (dayPlatform.sha256 bytes) = true := by
  change isHexDigest (daySha256 bytes) = true
  unfold daySha256
  split_ifs <;> exact (isHexDigest_ofList _).trans (by decide)

theorem dayPlan_prepared : (prepareArchive dayPlatform dayRequest).map (fun plan =>
    (plan.segments.map (·.content), plan.manifest)) = .ok ([dayContent], dayManifest) := by
  decide +kernel

theorem dayManifest_written : dayPlatform.manifest.write dayManifest = dayManifestText :=
  DocumentCodec.writing_write (openBrace_nonzero _)

/-- The text of a document is no capture line. -/
theorem dayContent_ne (rest : Bytes) : dayContent ≠ openBrace ++ rest := by
  have hhead : dayContent.take 2 = [123, 34] :=
    (congrArg (fun text => (Bytes.encode text).take 2) String.toList_ofList).trans (by decide)
  intro heq
  rw [heq, openBrace_eq] at hhead
  exact absurd hhead (by simp)

/-- Two archivers of the day, the first of which is lost. -/
def dayTrace : List (Action ArchiveRequest) :=
  [.start 0 dayRequest, .step 0 0, .step 0 0, .step 0 0, .start 1 dayRequest, .lose 0,
    .step 1 0, .land 0 0]

theorem dayTrace_started {request : ArchiveRequest} (h : Started dayTrace request) :
    request = dayRequest := by
  obtain ⟨run, hmem⟩ := h
  simp only [dayTrace, List.mem_cons, Action.start.injEq, List.not_mem_nil, reduceCtorEq,
    or_false, false_or] at hmem
  rcases hmem with ⟨_, heq⟩ | ⟨_, heq⟩
  · exact heq
  · exact heq

theorem dayPayload {bytes : Bytes} (h : Payload dayPlatform (Started dayTrace) bytes) :
    bytes = dayContent ∨ bytes = dayManifestText := by
  obtain ⟨request, plan, hstarted, hok, hbytes⟩ := h
  have hprepared := dayPlan_prepared
  rw [dayTrace_started hstarted] at hok
  rw [hok] at hprepared
  obtain ⟨hcontents, hmanifest⟩ := Prod.mk.inj (Except.ok.inj hprepared)
  rcases hbytes with ⟨segment, hsegment, rfl⟩ | rfl
  · have hmem : segment.content ∈ plan.segments.map (·.content) := List.mem_map_of_mem hsegment
    rw [hcontents, List.mem_singleton] at hmem
    exact Or.inl hmem
  · right
    rw [ArchivePlan.manifestBytes, hmanifest]
    exact dayManifest_written

/-- Two texts with different digests are told apart by them. -/
theorem distinguishes {sha256 : Bytes → String} {first second left right : Bytes}
    (hne : sha256 first ≠ sha256 second) (hleft : left = first ∨ left = second)
    (hright : right = first ∨ right = second) (h : sha256 left = sha256 right) :
    left = right := by
  rcases hleft with rfl | rfl <;> rcases hright with rfl | rfl
  · rfl
  · exact absurd h hne
  · exact absurd h.symm hne
  · rfl

theorem dayCollisionFree : CollisionFree dayPlatform (Started dayTrace) := by
  have hcontent : daySha256 dayContent = dayDigest := if_pos rfl
  have hmanifest : daySha256 dayManifestText =
      "e0d713f5f8a67d7ee1db6aa15685e615f5a734ba68f550bd4d84acc609d56526" := by
    have hother : dayManifestText ≠ dayContent := fun heq => dayContent_ne _ heq.symm
    rw [daySha256, if_neg hother, if_pos rfl]
  have hne : daySha256 dayContent ≠ daySha256 dayManifestText := by
    rw [hcontent, hmanifest]
    decide
  intro left right hleft hright hsha
  exact distinguishes hne (dayPayload hleft) (dayPayload hright) hsha

/-- Two archivers of one day, one of them lost on the way. -/
theorem dayArchivers_commit :
    CheckpointsComplete dayPlatform (ArchiveSystem.after dayPlatform dayTrace).store ∧
      ArchiveOutcome dayPlatform (Started dayTrace)
        (ArchiveSystem.after dayPlatform dayTrace) := by
  have h := archivers_commit dayPlatform dayDigest_hex dayTrace dayCollisionFree
  exact ⟨h.1, h.2.2.2⟩

end ChipTrace
