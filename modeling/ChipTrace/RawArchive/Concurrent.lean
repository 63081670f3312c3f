/-
Any number of archivers over one object store.  A visible checkpoint stands for a
complete archive; archivers of one content all end with the same manifest, and an
archiver of another content ends with a conflict.
-/
import ChipTrace.RawArchive.Archiving

namespace ChipTrace

open Interleave

section Plans

variable (platform : RawPlatform)

/-- What an accepted request and its plan have to do with each other. -/
structure PlanOf (request : ArchiveRequest) (plan : ArchivePlan) : Prop where
  archiveId : plan.archiveId = request.config.archiveId
  safeId : SafeComponent plan.archiveId
  paths : archivePaths request.config.keyPrefix plan.archiveId = .ok plan.paths
  discovered : discoverSegments platform.sha256 platform.json request.tree
    request.config.inputs request.config.allowSegmentGaps = .ok plan.segments
  built : buildManifest plan.archiveId plan.paths plan.segments
    (!request.config.allowSegmentGaps) = .ok plan.manifest
  checkpoint : plan.checkpoint = checkpointFor plan.archiveId plan.paths plan.manifest
    (platform.sha256 (plan.manifestBytes platform)) request.now

variable {platform} {request : ArchiveRequest} {plan : ArchivePlan}

theorem prepareArchive_ok (h : prepareArchive platform request = .ok plan) :
    PlanOf platform request plan := by
  obtain ⟨_, hid, h⟩ := Except.bind_eq_ok_iff.mp h
  obtain ⟨concurrency, _, h⟩ := Except.bind_eq_ok_iff.mp h
  obtain ⟨paths, hpaths, h⟩ := Except.bind_eq_ok_iff.mp h
  obtain ⟨segments, hsegments, h⟩ := Except.bind_eq_ok_iff.mp h
  obtain ⟨_, _, h⟩ := Except.bind_eq_ok_iff.mp h
  obtain ⟨manifest, hmanifest, h⟩ := Except.bind_eq_ok_iff.mp h
  cases h
  exact ⟨rfl, validateComponent_iff.mp hid, hpaths, hsegments, hmanifest, rfl⟩

theorem PlanOf.segments (h : PlanOf platform request plan) :
    Discovered platform.sha256 platform.json request.config.allowSegmentGaps plan.segments :=
  discoverSegments_ok h.discovered

theorem PlanOf.manifest (h : PlanOf platform request plan) :
    Built plan.archiveId plan.paths plan.segments (!request.config.allowSegmentGaps)
      plan.manifest := buildManifest_ok h.built

theorem PlanOf.pathsOf (h : PlanOf platform request plan) :
    ∃ normalized, PathsOf normalized plan.archiveId plan.paths := by
  obtain ⟨normalized, _, hpaths, _⟩ := archivePaths_ok h.safeId h.paths
  exact ⟨normalized, hpaths⟩

theorem PlanOf.names (h : PlanOf platform request plan) : NamesPlan plan :=
  ⟨by rw [h.checkpoint]; rfl, by rw [h.checkpoint]; rfl⟩

theorem PlanOf.self (h : PlanOf platform request plan) :
    agreesWithPlan plan plan.checkpoint := by
  have hnow : Text.isBlank request.now.val = false := request.now.property
  rw [agreesWithPlan, h.checkpoint]
  simp [agreesWith, checkpointFor, hnow]

/-! The names of the keys that a plan writes. -/

theorem PlanOf.manifest_name (h : PlanOf platform request plan) :
    keyName plan.paths.manifest = "manifest.json" := by
  obtain ⟨normalized, hpaths⟩ := h.pathsOf
  rw [hpaths.manifest]
  exact keyName_append _ (by decide)

theorem PlanOf.checkpoint_name (h : PlanOf platform request plan) :
    keyName plan.paths.checkpoint = "CHECKPOINT.json" := by
  obtain ⟨normalized, hpaths⟩ := h.pathsOf
  rw [hpaths.checkpoint]
  exact keyName_append _ (by decide)

theorem objectKey_name (paths : ArchivePaths) {digest : String}
    (hdigest : isHexDigest digest = true) :
    keyName (paths.objectKey digest) = digest ++ ".ndjson" :=
  keyName_joinKey _ (digest_safe hdigest).slash

/-- No document of an archive has the name of an object. -/
theorem document_name_ne (digest : String) :
    digest ++ ".ndjson" ≠ "CHECKPOINT.json" ∧ digest ++ ".ndjson" ≠ "manifest.json" := by
  have hsuffix : ".ndjson".toList <:+ (digest ++ ".ndjson").toList := by
    rw [String.toList_append]
    exact List.suffix_append _ _
  constructor
  · intro heq
    rw [heq] at hsuffix
    exact absurd hsuffix (by decide)
  · intro heq
    rw [heq] at hsuffix
    exact absurd hsuffix (by decide)

/-! The objects of a plan. -/

theorem addObject_get? (paths : ArchivePaths) (objects : Table String LocalObject)
    (segment : LocalSegment) (key : String) :
    (addObject paths objects segment).get? key = objects.get? key ∨
      (key = paths.objectKey segment.sha256 ∧
        (addObject paths objects segment).get? key = some (segment.object paths)) := by
  simp only [addObject]
  split
  · exact Or.inl rfl
  · rw [Table.get?_insert]
    split
    · rename_i heq
      exact Or.inr ⟨heq, rfl⟩
    · exact Or.inl rfl

theorem addObject_self (paths : ArchivePaths) (objects : Table String LocalObject)
    (segment : LocalSegment) :
    ∃ object, (addObject paths objects segment).get? (paths.objectKey segment.sha256) =
      some object := by
  simp only [addObject]
  split
  · rename_i object hpresent
    exact ⟨object, hpresent⟩
  · exact ⟨_, Table.get?_insert_self _ _ _⟩

theorem addObject_keeps {paths : ArchivePaths} {objects : Table String LocalObject}
    (segment : LocalSegment) {key : String} (h : ∃ object, objects.get? key = some object) :
    ∃ object, (addObject paths objects segment).get? key = some object := by
  obtain ⟨object, hobject⟩ := h
  rcases addObject_get? paths objects segment key with hsame | ⟨_, hnew⟩
  · exact ⟨object, hsame.trans hobject⟩
  · exact ⟨_, hnew⟩

theorem foldl_addObject_get? {paths : ArchivePaths} {segments : List LocalSegment}
    {objects : Table String LocalObject} {key : String} {object : LocalObject}
    (h : (segments.foldl (addObject paths) objects).get? key = some object) :
    objects.get? key = some object ∨ ∃ segment ∈ segments,
      key = paths.objectKey segment.sha256 ∧ object = segment.object paths := by
  induction segments generalizing objects with
  | nil => exact Or.inl h
  | cons segment rest ih =>
      rcases ih h with hearlier | ⟨other, hother, hrest⟩
      · rcases addObject_get? paths objects segment key with hsame | ⟨hkey, hnew⟩
        · exact Or.inl (hsame.symm.trans hearlier)
        · rw [hnew, Option.some.injEq] at hearlier
          exact Or.inr ⟨segment, List.mem_cons_self, hkey, hearlier.symm⟩
      · exact Or.inr ⟨other, List.mem_cons_of_mem _ hother, hrest⟩

theorem foldl_addObject_self {paths : ArchivePaths} {segments : List LocalSegment}
    (objects : Table String LocalObject) {segment : LocalSegment}
    (h : segment ∈ segments) :
    ∃ object, (segments.foldl (addObject paths) objects).get?
      (paths.objectKey segment.sha256) = some object := by
  have hkept : ∀ (segments : List LocalSegment) (objects : Table String LocalObject),
      (∃ object, objects.get? (paths.objectKey segment.sha256) = some object) →
      ∃ object, (segments.foldl (addObject paths) objects).get?
        (paths.objectKey segment.sha256) = some object := by
    intro segments
    induction segments with
    | nil => exact fun _ hpresent => hpresent
    | cons other rest ih => exact fun _ hpresent => ih _ (addObject_keeps other hpresent)
  induction segments generalizing objects with
  | nil => cases h
  | cons other rest ih =>
      rcases List.mem_cons.mp h with rfl | hrest
      · exact hkept rest _ (addObject_self paths objects segment)
      · exact ih (addObject paths objects other) hrest

/-- Every object of a plan is that of a segment. -/
theorem segment_of_object {object : LocalObject} (h : object ∈ plan.objects) :
    ∃ segment ∈ plan.segments, object = segment.object plan.paths := by
  obtain ⟨⟨key, _⟩, hentry, rfl⟩ := List.mem_map.mp h
  have hget := (Table.mem_entries _ _ _).mp hentry
  rcases foldl_addObject_get? hget with hempty | ⟨segment, hsegment, _, hobject⟩
  · cases hempty
  · exact ⟨segment, hsegment, hobject⟩

/-- Every segment of a plan has its object. -/
theorem object_of_segment {segment : LocalSegment} (h : segment ∈ plan.segments) :
    ∃ object ∈ plan.objects, object.key = plan.paths.objectKey segment.sha256 := by
  obtain ⟨object, hget⟩ := foldl_addObject_self Table.empty h
  have hentry := (Table.mem_entries _ _ _).mpr hget
  refine ⟨object, List.mem_map.mpr ⟨_, hentry, rfl⟩, ?_⟩
  rcases foldl_addObject_get? hget with hempty | ⟨other, _, hkey, rfl⟩
  · cases hempty
  · exact hkey.symm

end Plans

/-! What a conditional write can have put under a key. -/

theorem createObject_inv {key other : String} {content found : Bytes} {store : ObjectMap}
    (h : (createObject key content store).2 other = some found) :
    store other = some found ∨ (other = key ∧ found = content) := by
  by_cases heq : other = key
  · subst heq
    obtain ⟨present, hpresent, horigin⟩ := createObject_present other content store
    rw [hpresent, Option.some.injEq] at h
    subst h
    exact horigin.elim (fun hnew => Or.inr ⟨rfl, hnew⟩) Or.inl
  · rw [createObject_of_ne heq] at h
    exact Or.inl h

/-! A visible checkpoint stands for a complete archive. -/

section Visible

variable (platform : RawPlatform)

def CheckpointsComplete (store : ObjectMap) : Prop :=
  ∀ key content, keyName key = "CHECKPOINT.json" → store key = some content →
    ∃ checkpoint, platform.checkpoint.read content = some checkpoint ∧
      Complete platform store checkpoint

variable {platform} (hdigest : ∀ bytes, isHexDigest (platform.sha256 bytes) = true)

theorem CheckpointsComplete.create {key : String} {content : Bytes} {store : ObjectMap}
    (h : CheckpointsComplete platform store)
    (hnew : keyName key = "CHECKPOINT.json" →
      ∃ checkpoint, platform.checkpoint.read content = some checkpoint ∧
        Complete platform store checkpoint) :
    CheckpointsComplete platform (createObject key content store).2 := by
  intro other found hname hfound
  have hgrown := createObject_extends key content store
  rcases createObject_inv hfound with hold | ⟨rfl, rfl⟩
  · obtain ⟨checkpoint, hread, hcomplete⟩ := h other found hname hold
    exact ⟨checkpoint, hread, hcomplete.mono hgrown⟩
  · obtain ⟨checkpoint, hread, hcomplete⟩ := hnew hname
    exact ⟨checkpoint, hread, hcomplete.mono hgrown⟩

include hdigest in
theorem PlanOf.object_name {request : ArchiveRequest} {plan : ArchivePlan}
    (h : PlanOf platform request plan) {object : LocalObject} (hobject : object ∈ plan.objects) :
    ∃ segment ∈ plan.segments, object = segment.object plan.paths ∧
      object.key = plan.paths.objectKey (platform.sha256 segment.content) ∧
      keyName object.key = platform.sha256 segment.content ++ ".ndjson" := by
  obtain ⟨segment, hsegment, rfl⟩ := segment_of_object hobject
  have hsha := (h.segments.facts hsegment).sha256
  have hkey : (segment.object plan.paths).key =
      plan.paths.objectKey (platform.sha256 segment.content) :=
    congrArg plan.paths.objectKey hsha
  exact ⟨segment, hsegment, rfl, hkey,
    (congrArg keyName hkey).trans (objectKey_name _ (hdigest segment.content))⟩

include hdigest in
theorem writesKeep_checkpointsComplete {request : ArchiveRequest} {plan : ArchivePlan}
    (h : PlanOf platform request plan) :
    WritesKeep platform (CheckpointsComplete platform) plan where
  object object hobject store hinv := by
    apply hinv.create
    intro hname
    obtain ⟨segment, _, _, _, hobjectName⟩ := h.object_name hdigest hobject
    exact absurd (hobjectName.symm.trans hname) (document_name_ne _).1
  manifest store hinv := by
    apply hinv.create
    intro hname
    exact absurd (h.manifest_name.symm.trans hname) (by decide)
  checkpoint store hinv hcomplete _ := by
    apply hinv.create
    intro _
    exact ⟨plan.checkpoint, platform.checkpoint.read_write _, hcomplete⟩

include hdigest in
theorem keeps_archiveRaw_complete (request : ArchiveRequest) {store : ObjectMap}
    (hinv : CheckpointsComplete platform store) :
    KeepsIn (CheckpointsComplete platform) (fun _ _ => True) (fun _ _ => True)
      (archiveRaw platform request) store := by
  have hprepare : KeepsIn (CheckpointsComplete platform) (fun _ _ => True)
      (fun plan _ => prepareArchive platform request = .ok plan)
      (checked (prepareArchive platform request)) store := by
    apply keeps_checked
    · intro plan hok later _ _
      exact hok
    · intro text _ later _ _
      trivial
  refine Program.Keeps.bind extends_growth hinv hprepare ?_
  intro plan first _ hfirstInv hok
  have hplan := prepareArchive_ok hok
  have hkeeps := keeps_archivePlan hfirstInv hplan.names hplan.self
    (writesKeep_checkpointsComplete hdigest hplan)
    (Or.inl fun _ _ => trivial : Tolerant (fun _ _ => True) ∨ _)
  exact hkeeps.imp fun _ _ _ => trivial

/-- The archivers over one store. -/
abbrev ArchiveSystem : Type :=
  System ObjectStore ArchiveError RawArchiveResult ArchiveRequest

def ArchiveSystem.start : ArchiveSystem := System.initial (S := ObjectStore) fun _ => none

variable (platform) in
/-- The system after a trace of actions. -/
def ArchiveSystem.after (trace : List (Action ArchiveRequest)) : ArchiveSystem :=
  Machine.run (System.apply (archiveRaw platform)) ArchiveSystem.start trace

include hdigest in
theorem checkpointsComplete_after (trace : List (Action ArchiveRequest)) :
    CheckpointsComplete platform (ArchiveSystem.after platform trace).store := by
  have hempty : CheckpointsComplete platform fun _ => none := by
    intro key content _ hstored
    cases hstored
  have hstarts : Machine.Along (System.apply (archiveRaw platform))
      (System.Starts fun _ => True) ArchiveSystem.start trace := by
    apply Machine.along_of_forall
    intro system action _
    cases action <;> trivial
  have hsound : System.Sound (CheckpointsComplete platform) Extends (fun _ _ _ => True)
      (fun _ _ _ => True) (fun _ => True) (ArchiveSystem.after platform trace) :=
    System.sound_run extends_growth
      (fun request _ store hinv => keeps_archiveRaw_complete hdigest request hinv) hempty hstarts
  exact hsound.store

end Visible

end ChipTrace
