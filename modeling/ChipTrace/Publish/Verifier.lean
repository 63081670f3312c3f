/-
The promise of the verifier: over a store that publishers write to it accepts every
COMMIT that stands there, unless a key of it is none that the verifier takes.
-/
import ChipTrace.Publish.Publishing

namespace ChipTrace

namespace Publish

open Interleave

/-! The pure checks of the verifier on a COMMIT that a publisher wrote. -/

theorem checkEntries_safe {previous : Option String} {objects : List ObjectEntry}
    {accepted : Unit} (h : checkEntries previous objects = .ok accepted) :
    ∀ object ∈ objects, SafeKey object.key := by
  induction objects generalizing previous with
  | nil =>
      intro object hobject
      cases hobject
  | cons object rest ih =>
      obtain ⟨_, hkey, h⟩ := Except.bind_eq_ok_iff.mp h
      obtain ⟨_, _, h⟩ := Except.bind_eq_ok_iff.mp h
      intro other hother
      rcases List.mem_cons.mp hother with rfl | hrest
      · exact validateKey_iff.mp hkey
      · exact ih h other hrest

theorem checkEntries_ok {previous : Option String} {objects : List ObjectEntry}
    (hsafe : ∀ object ∈ objects, SafeKey object.key ∧ isSha256 object.sha256 = true)
    (hsorted : objects.Pairwise fun left right => left.key < right.key)
    (hprevious : ∀ key ∈ previous, ∀ object ∈ objects, key < object.key) :
    checkEntries previous objects = .ok () := by
  induction objects generalizing previous with
  | nil => rfl
  | cons object rest ih =>
      obtain ⟨hkey, hsha⟩ := hsafe object List.mem_cons_self
      obtain ⟨hfirst, hrest⟩ := List.pairwise_cons.mp hsorted
      have hvalid : validateKey object.key = .ok () := validateKey_iff.mpr hkey
      have hordered : (previous.any fun key => decide (object.key ≤ key)) = false := by
        rw [Option.any_eq_false]
        intro key hmem
        simpa using hprevious key hmem object List.mem_cons_self
      have htail : checkEntries (some object.key) rest = .ok () := by
        apply ih (fun other hother => hsafe other (List.mem_cons_of_mem _ hother)) hrest
        intro key hmem
        cases hmem
        exact hfirst
      rw [checkEntries, hvalid, hsha, hordered, htail]
      rfl

theorem stripSuffix?_append (text suffix : String) :
    stripSuffix? (text ++ suffix) suffix = some text := by
  have hends : Text.endsWith (text ++ suffix) suffix = true := by
    rw [Text.endsWith, String.toList_append, List.isSuffixOf_iff_suffix]
    exact List.suffix_append _ _
  have hlength : (text ++ suffix).length - suffix.length = text.toList.length := by
    rw [String.length_append, Nat.add_sub_cancel]
    rfl
  rw [stripSuffix?, if_pos hends, hlength, String.toList_append, List.take_left',
    String.ofList_toList]
  rfl

section Entries

variable {files : List LocalObject}

theorem mem_objectEntries {entry : ObjectEntry} :
    entry ∈ objectEntries files ↔ ∃ object ∈ files, objectEntry object = entry := by
  rw [objectEntries, List.mem_insertionSort, List.mem_map]

theorem objectEntries_sorted (hkeys : (files.map (·.key)).Nodup) :
    (objectEntries files).Pairwise fun left right => left.key < right.key := by
  have htotal : Std.Total fun left right : ObjectEntry => left.key ≤ right.key :=
    ⟨fun left right => le_total left.key right.key⟩
  have htrans : IsTrans ObjectEntry fun left right => left.key ≤ right.key :=
    ⟨fun _ _ _ hfirst hsecond => le_trans hfirst hsecond⟩
  have hsorted := List.pairwise_insertionSort
    (fun left right : ObjectEntry => left.key ≤ right.key) (files.map objectEntry)
  have hperm := (List.perm_insertionSort
    (fun left right : ObjectEntry => left.key ≤ right.key) (files.map objectEntry)).map
    ObjectEntry.key
  have hnodup : ((objectEntries files).map (·.key)).Nodup := by
    apply hperm.nodup_iff.mpr
    rw [List.map_map]
    exact hkeys
  have hdistinct : (objectEntries files).Pairwise fun left right => left.key ≠ right.key :=
    List.pairwise_map.mp hnodup
  exact (hsorted.and hdistinct).imp fun hboth => lt_of_le_of_ne hboth.1 hboth.2

end Entries

section Checks

variable {platform : Platform} {keyPrefix : String}
variable (hdigest : ∀ bytes, isSha256 (platform.sha256 bytes) = true)
variable {tree : FileTree} {plan : PublishPlan} {manifest : Bytes} {names : List String}

/-- Every key of a COMMIT is one that the verifier takes. -/
def SafeKeys (commit : ObjectCommit) : Prop := ∀ entry ∈ commit.objects, SafeKey entry.key

theorem Planned.keys_nodup (h : Planned platform keyPrefix tree plan manifest names) :
    (plan.files.map (·.key)).Nodup := by
  have hnodup : plan.artifact.files.Nodup := h.names ▸ sortedNames_nodup names
  have hkeys : List.Forall₂ (fun name key => key = below keyPrefix
      (fileName plan.artifact.kind plan.artifact.id plan.artifact.manifestSha256 name))
      plan.artifact.files (plan.files.map (·.key)) := by
    rw [List.forall₂_map_right_iff]
    exact h.objects.imp fun _ _ hof => hof.key
  have hmap : plan.files.map (·.key) = plan.artifact.files.map fun name => below keyPrefix
      (fileName plan.artifact.kind plan.artifact.id plan.artifact.manifestSha256 name) := by
    apply List.forall₂_eq_eq_eq.le
    rw [List.forall₂_map_right_iff]
    exact hkeys.flip
  rw [hmap]
  apply hnodup.map
  intro left right hsame
  exact append_left_injective (below_injective hsame)

theorem Planned.manifestKey_safe (h : Planned platform keyPrefix tree plan manifest names)
    {now : String} (hsafe : SafeKeys (plan.commit now)) : SafeKey plan.manifestKey := by
  obtain ⟨object, hobject, hof, _⟩ := h.manifest_object
  have hkey := hsafe (objectEntry object) (mem_objectEntries.mpr ⟨object, hobject, rfl⟩)
  rw [h.manifestKey, ← hof.key]
  exact hkey

include hdigest in
theorem checkCommit_ok (h : Planned platform keyPrefix tree plan manifest names)
    {now : String} (hsafe : SafeKeys (plan.commit now)) :
    checkCommit (plan.commit now) plan.artifact.kind plan.artifact.id keyPrefix = .ok () := by
  have hkey : validateKey (plan.commit now).manifestKey = .ok () :=
    validateKey_iff.mpr (h.manifestKey_safe hsafe)
  have hrelative : Relative (stagingName plan.artifact.kind plan.artifact.id
      plan.artifact.manifestSha256 ++ "/manifest.json") :=
    (stagingName_relative _ _ _).append (stagingName_ne _ _ _) _
  have hexpected : joinKey keyPrefix (stagingName plan.artifact.kind plan.artifact.id
      (plan.commit now).manifestSha256 ++ "/manifest.json") = plan.manifestKey := by
    rw [h.manifestKey]
    exact (joinKey_below h.trimmed hrelative).trans (congrArg (below keyPrefix) (by
      rw [fileName, String.append_assoc]
      rfl))
  obtain ⟨object, hobject, _⟩ := h.manifest_object
  have hentry : objectEntry object ∈ objectEntries plan.files :=
    mem_objectEntries.mpr ⟨object, hobject, rfl⟩
  have hnonempty : (plan.commit now).objects.isEmpty = false := by
    rw [List.isEmpty_eq_false_iff]
    exact List.ne_nil_of_mem hentry
  have hsha : isSha256 (plan.commit now).manifestSha256 = true := by
    change isSha256 plan.artifact.manifestSha256 = true
    rw [h.digest]
    exact hdigest manifest
  have hentries : checkEntries none (plan.commit now).objects = .ok () := by
    apply checkEntries_ok _ (objectEntries_sorted (h.keys_nodup)) (by simp)
    intro entry hmem
    obtain ⟨object, hobject, rfl⟩ := mem_objectEntries.mp hmem
    obtain ⟨name, _, hof⟩ := h.name_of_object hobject
    refine ⟨hsafe _ hmem, ?_⟩
    change isSha256 object.sha256 = true
    rw [hof.sha256]
    exact hdigest object.content
  rw [checkCommit, hkey, hexpected, hnonempty, hsha, hentries]
  simp [PublishPlan.commit, refuseIf, bind, Except.bind]

/-- A COMMIT with a key that the verifier does not take is refused. -/
theorem checkCommit_safe {commit : ObjectCommit} {kind : ArtifactKind} {artifactId : String}
    {accepted : Unit} (h : checkCommit commit kind artifactId keyPrefix = .ok accepted) :
    SafeKeys commit := by
  obtain ⟨_, _, h⟩ := Except.bind_eq_ok_iff.mp h
  obtain ⟨_, _, h⟩ := Except.bind_eq_ok_iff.mp h
  exact checkEntries_safe h

theorem safeKey_below {base name : String} :
    SafeKey (below base name) ↔ (base = "" ∨ SafeKey base) ∧ SafeKey name := by
  by_cases hbase : base = ""
  · simp [below, hbase]
  · rw [below_of_ne hbase, safeKey_append, or_iff_right hbase]

include hdigest in
/-- The keys of a COMMIT are safe exactly when the prefix and the names of the files are. -/
theorem safeKeys_iff (h : Planned platform keyPrefix tree plan manifest names) (now : String) :
    SafeKeys (plan.commit now) ↔
      (keyPrefix = "" ∨ SafeKey keyPrefix) ∧ ∀ name ∈ names, SafeKey name := by
  have hstaging : SafeKey (stagingName plan.artifact.kind plan.artifact.id
      plan.artifact.manifestSha256) := by
    have hnamespace : SafeComponent plan.artifact.kind.objectNamespace := by
      cases plan.artifact.kind <;> exact ⟨by decide, by decide, by decide, by decide, by decide⟩
    have hdot : SafeComponent ".staging" :=
      ⟨by decide, by decide, by decide, by decide, by decide⟩
    have hsplit : stagingName plan.artifact.kind plan.artifact.id plan.artifact.manifestSha256 =
        ".staging" ++ "/" ++ plan.artifact.kind.objectNamespace ++ "/" ++ plan.artifact.id ++ "/" ++
          plan.artifact.manifestSha256 := rfl
    rw [hsplit, safeKey_append, safeKey_append, safeKey_append]
    exact ⟨⟨⟨hdot.safeKey, hnamespace.safeKey⟩, h.safeId.safeKey⟩,
      (h.digest_safe hdigest).safeKey⟩
  have hkey : ∀ {name object}, ObjectOf platform keyPrefix tree plan.artifact name object →
      (SafeKey object.key ↔ (keyPrefix = "" ∨ SafeKey keyPrefix) ∧ SafeKey name) := by
    intro name object hof
    rw [hof.key, safeKey_below, fileName, safeKey_append]
    exact and_congr_right fun _ => and_iff_right hstaging
  constructor
  · intro hsafe
    have hobject : ∀ name ∈ names, (keyPrefix = "" ∨ SafeKey keyPrefix) ∧ SafeKey name := by
      intro name hname
      obtain ⟨object, hobject, hof⟩ := h.object_of_name hname
      have hentry : objectEntry object ∈ objectEntries plan.files :=
        mem_objectEntries.mpr ⟨object, hobject, rfl⟩
      exact (hkey hof).mp (hsafe (objectEntry object) hentry)
    have hmanifest : "manifest.json" ∈ names := h.described.documents _ (by decide)
    exact ⟨(hobject _ hmanifest).1, fun name hname => (hobject name hname).2⟩
  · rintro ⟨hnormalized, hnames⟩ entry hentry
    obtain ⟨object, hobject, rfl⟩ := mem_objectEntries.mp hentry
    obtain ⟨name, hname, hof⟩ := h.name_of_object hobject
    exact (hkey hof).mpr ⟨hnormalized, hnames name hname⟩

theorem sameFiles_of_iff {left right : List String}
    (h : ∀ name, name ∈ left ↔ name ∈ right) : sameFiles left right = true := by
  rw [sameFiles, Bool.and_eq_true, List.all_eq_true, List.all_eq_true]
  constructor
  · intro name hname
    rw [List.contains_iff_mem]
    exact (h name).mp hname
  · intro name hname
    rw [List.contains_iff_mem]
    exact (h name).mpr hname

include hdigest in
theorem checkObjectSet_ok (h : Planned platform keyPrefix tree plan manifest names)
    (now : String) : checkObjectSet (plan.commit now) names = .ok () := by
  have hne := stagingName_ne plan.artifact.kind plan.artifact.id plan.artifact.manifestSha256
  have hbase := trimmed_below h.trimmed (trimmed_stagingName plan.artifact.kind
    plan.artifact.id (h.digest_safe hdigest)) hne
  have hjoin : ∀ name ∈ names, joinKey (below keyPrefix (stagingName plan.artifact.kind
      plan.artifact.id plan.artifact.manifestSha256)) name = below keyPrefix
      (fileName plan.artifact.kind plan.artifact.id plan.artifact.manifestSha256 name) := by
    intro name hname
    rw [joinKey_below hbase (h.described.relative name hname), below_below hne]
    rfl
  have hmanifestKey : (plan.commit now).manifestKey = below keyPrefix (stagingName
      plan.artifact.kind plan.artifact.id plan.artifact.manifestSha256) ++ "/manifest.json" := by
    change plan.manifestKey = _
    rw [h.manifestKey, fileName, ← below_below hne, below_of_ne (below_ne keyPrefix hne),
      String.append_assoc]
    rfl
  rw [checkObjectSet, hmanifestKey, stripSuffix?_append]
  simp only [refuseIf_eq_ok, Bool.or_eq_false_iff, Bool.not_eq_false', bne_eq_false_iff_eq]
  constructor
  · apply sameFiles_of_iff
    intro key
    constructor
    · intro hkey
      obtain ⟨name, hname, rfl⟩ := List.mem_map.mp hkey
      rw [mem_sortedNames] at hname
      obtain ⟨object, hobject, hof⟩ := h.object_of_name hname
      apply List.mem_map.mpr
      refine ⟨objectEntry object, mem_objectEntries.mpr ⟨object, hobject, rfl⟩, ?_⟩
      rw [hjoin name hname]
      exact hof.key
    · intro hkey
      obtain ⟨entry, hentry, rfl⟩ := List.mem_map.mp hkey
      obtain ⟨object, hobject, rfl⟩ := mem_objectEntries.mp hentry
      obtain ⟨name, hname, hof⟩ := h.name_of_object hobject
      apply List.mem_map.mpr
      refine ⟨name, mem_sortedNames.mpr hname, ?_⟩
      rw [hjoin name hname]
      exact hof.key.symm
  · have hsorted := objectEntries_sorted (h.keys_nodup)
    have hnodup : ((plan.commit now).objects.map (·.key)).Nodup := by
      apply List.pairwise_map.mpr
      exact hsorted.imp fun hless => ne_of_lt hless
    rw [hnodup.dedup, List.length_map]

end Checks

/-! The verifier over the store. -/

section Verifying

variable (platform : Platform) (keyPrefix : String) (allowed : PublishRequest → Prop)

/-- The manifests of the requests are told apart by their digests. -/
def CollisionFree : Prop :=
  ∀ first second left right, allowed first → allowed second →
    readFile first.tree "manifest.json" = some left →
    readFile second.tree "manifest.json" = some right →
    platform.sha256 left = platform.sha256 right → left = right

/-- Every request asks for the digests of what it finds in the store. -/
def AllVerify : Prop := ∀ request, allowed request → request.config.verifyRemoteSha256 = true

/-- The COMMIT of a publication stands under a key. -/
structure CommitStands (key : String) (commit : ObjectCommit) (store : ObjectMap) : Prop where
  stored : store key = some (platform.commit.write commit)
  written : ∃ plan now, Publication platform keyPrefix allowed plan ∧ plan.commitKey = key ∧
    commit = plan.commit now

/-- What a COMMIT says of an object is so. -/
def EntryStands (entry : ObjectEntry) (store : ObjectMap) : Prop :=
  ∃ content, store entry.key = some content ∧ content.length = entry.bytes ∧
    platform.sha256 content = entry.sha256

/-- The COMMIT under a key has a key that the verifier does not take. -/
def Refused (key : String) (store : ObjectMap) : Prop :=
  ∃ commit, CommitStands platform keyPrefix allowed key commit store ∧ ¬ SafeKeys commit

/-- The COMMIT under a key stands with all that it names, and the result describes it. -/
structure Accepted (key : String) (result : VerifyPublishedResult) (store : ObjectMap) : Prop
    where
  stands : ∃ commit, CommitStands platform keyPrefix allowed key commit store ∧
    SafeKeys commit ∧ (∀ entry ∈ commit.objects, EntryStands platform entry store) ∧
    result = verifyPublishedResult commit key

variable {platform} {keyPrefix} {allowed}
variable (hdigest : ∀ bytes, isSha256 (platform.sha256 bytes) = true)
variable {key : String} {commit : ObjectCommit} {store : ObjectMap}

theorem CommitStands.mono {later : ObjectMap} (hgrown : Extends store later)
    (h : CommitStands platform keyPrefix allowed key commit store) :
    CommitStands platform keyPrefix allowed key commit later := ⟨hgrown _ _ h.stored, h.written⟩

theorem EntryStands.mono {entry : ObjectEntry} {later : ObjectMap}
    (hgrown : Extends store later) (h : EntryStands platform entry store) :
    EntryStands platform entry later := by
  obtain ⟨content, hstored, hrest⟩ := h
  exact ⟨content, hgrown _ _ hstored, hrest⟩

include hdigest in
/-- Where all publishers verify, the objects of a COMMIT stand with their digests. -/
theorem CommitStands.objects (hverify : AllVerify allowed)
    (hinv : PublishedFrom platform keyPrefix allowed store)
    (h : CommitStands platform keyPrefix allowed key commit store) :
    ∀ entry ∈ commit.objects, EntryStands platform entry store := by
  obtain ⟨hstored, plan, now, hplan, rfl, rfl⟩ := h
  obtain ⟨other, otherNow, hother, _, hcontent, hstand⟩ := hinv.commit hdigest hplan hstored
  have hsame := platform.commit.write_injective hcontent
  intro entry hentry
  rw [hsame] at hentry
  obtain ⟨object, hobject, rfl⟩ := mem_objectEntries.mp hentry
  obtain ⟨content, hfound, hbytes, hsha⟩ := hstand object hobject
  obtain ⟨request, hallowed, _, hprepared⟩ := hother
  obtain ⟨_, _, _, _, _, hflag⟩ := preparePublish_ok hdigest hprepared
  exact ⟨content, hfound, hbytes, hsha (hflag.trans (hverify request hallowed))⟩

include hdigest in
/-- The manifest of a COMMIT is the one that its publisher verified. -/
theorem CommitStands.manifest (hfree : CollisionFree platform allowed)
    (hinv : PublishedFrom platform keyPrefix allowed store) {plan : PublishPlan}
    (hplan : Publication platform keyPrefix allowed plan) {content : Bytes}
    (hstored : store plan.manifestKey = some content) :
    ∃ tree names, Planned platform keyPrefix tree plan content names := by
  obtain ⟨request, hallowed, hnormalized, hprepared⟩ := hplan
  obtain ⟨found, manifest, names, hfound, hplanned, _⟩ := preparePublish_ok hdigest hprepared
  rw [hnormalized, Except.ok.injEq] at hfound
  subst hfound
  obtain ⟨object, hobject, hof, _⟩ := hplanned.manifest_object
  rw [hplanned.manifestKey, ← hof.key] at hstored
  obtain ⟨other, hwritten, hotherContent⟩ := hinv _ _ hstored
  obtain ⟨otherRequest, hotherAllowed, hotherPrefix, hotherPrepared⟩ := hwritten
  obtain ⟨otherFound, otherManifest, otherNames, hotherFound, hotherPlanned, _⟩ :=
    preparePublish_ok hdigest hotherPrepared
  rw [hotherPrefix, Except.ok.injEq] at hotherFound
  subst hotherFound
  rcases hotherContent with ⟨otherObject, hmem, hkey, rfl⟩ | ⟨hkey, _⟩
  · obtain ⟨otherName, _, hotherOf⟩ := hotherPlanned.name_of_object hmem
    obtain ⟨⟨_, _, hsha⟩, hname⟩ := key_eq hdigest hotherPlanned hplanned hotherOf hof hkey
    subst hname
    have hread := hotherOf.content
    rw [hotherPlanned.described.read, Option.some.injEq] at hread
    rw [hotherPlanned.digest, hplanned.digest] at hsha
    have hsame := hfree otherRequest request otherManifest manifest hotherAllowed hallowed
      hotherPlanned.described.read hplanned.described.read hsha
    rw [← hread, hsame]
    exact ⟨request.tree, names, hplanned⟩
  · exact absurd hkey (hplanned.object_ne_commit hdigest hotherPlanned hobject)

variable {bad : ArchiveError → ObjectMap → Prop}

/-- A COMMIT with an unsafe key excuses every failure of the verifier. -/
abbrev ExcusesRefusal (platform : Platform) (keyPrefix : String)
    (allowed : PublishRequest → Prop) (key : String)
    (bad : ArchiveError → ObjectMap → Prop) : Prop :=
  ∀ error store, Refused platform keyPrefix allowed key store → bad error store

include hdigest in
theorem keeps_verifyPublishedObject (hverify : AllVerify allowed)
    (h : CommitStands platform keyPrefix allowed key commit store)
    (hsafe : SafeKeys commit) {entry : ObjectEntry} (hentry : entry ∈ commit.objects) :
    TaskKeepsIn (PublishedFrom platform keyPrefix allowed) bad (fun _ => True)
      (verifyPublishedObject platform entry) store := by
  have hkey : validateKey entry.key = .ok () := validateKey_iff.mpr (hsafe entry hentry)
  rw [verifyPublishedObject, hkey]
  apply keeps_taskStat
  intro first hfirst hfirstInv
  obtain ⟨content, hstored, hbytes, hsha⟩ :=
    (h.mono hfirst).objects hdigest hverify hfirstInv entry hentry
  rw [hstored]
  simp only [Option.map_some, hbytes, ne_eq, not_true_eq_false, if_false]
  apply keeps_taskRead
  intro second hsecond _
  rw [hsecond _ _ hstored]
  simp only [hsha, not_true_eq_false, if_false]
  intro later _ _
  trivial

include hdigest in
theorem keeps_validateCommittedArtifact (hfree : CollisionFree platform allowed)
    (hverify : AllVerify allowed)
    (hbad : ExcusesRefusal platform keyPrefix allowed key bad)
    (hinv : PublishedFrom platform keyPrefix allowed store) {plan : PublishPlan} {now : String}
    (hplan : Publication platform keyPrefix allowed plan)
    (h : CommitStands platform keyPrefix allowed key (plan.commit now) store) :
    KeepsIn (PublishedFrom platform keyPrefix allowed) bad
      (fun _ _ => SafeKeys (plan.commit now))
      (validateCommittedArtifact platform (plan.commit now) plan.artifact.kind
        plan.artifact.id keyPrefix) store := by
  obtain ⟨tree, manifest, names, hplanned⟩ := hplan.planned hdigest
  have hcheck : KeepsIn (PublishedFrom platform keyPrefix allowed) bad
      (fun _ _ => SafeKeys (plan.commit now))
      (checked (checkCommit (plan.commit now) plan.artifact.kind plan.artifact.id keyPrefix))
      store := by
    apply keeps_checked
    · intro _ hok later _ _
      exact checkCommit_safe hok
    · intro text herror later hlater _
      apply hbad
      refine ⟨plan.commit now, h.mono hlater, ?_⟩
      intro hsafe
      rw [checkCommit_ok hdigest hplanned hsafe] at herror
      cases herror
  refine Program.Keeps.bind extends_growth hinv hcheck ?_
  intro _ first hfirst hfirstInv hsafe
  -- the manifest is among the objects, which stand
  obtain ⟨object, hobject, hof, _⟩ := hplanned.manifest_object
  have hentry : objectEntry object ∈ (plan.commit now).objects :=
    mem_objectEntries.mpr ⟨object, hobject, rfl⟩
  obtain ⟨content, hstored, _, hsha⟩ :=
    (h.mono hfirst).objects hdigest hverify hfirstInv _ hentry
  have hmanifestKey : (objectEntry object).key = plan.manifestKey := by
    rw [hplanned.manifestKey]
    exact hof.key
  rw [hmanifestKey] at hstored
  have hread : KeepsIn (PublishedFrom platform keyPrefix allowed) bad
      (fun content later => later plan.manifestKey = some content)
      (readObject plan.manifestKey) first := keeps_readObject (Or.inr ⟨content, hstored⟩)
  refine Program.Keeps.bind extends_growth hfirstInv hread ?_
  intro found second hsecond hsecondInv hfound
  have hsame : found = content := by
    have hagain := hsecond _ _ hstored
    rw [hfound, Option.some.injEq] at hagain
    exact hagain
  subst hsame
  obtain ⟨otherTree, otherNames, hpublished⟩ :=
    CommitStands.manifest hdigest hfree hsecondInv hplan hfound
  have hdigestOk : platform.sha256 found = (plan.commit now).manifestSha256 :=
    hpublished.digest.symm
  have hnamed : publishedNames platform plan.artifact.kind plan.artifact.id found =
      .ok (plan.artifact.sourceReleaseManifestSha256, otherNames) := hpublished.described.named
  have hset := checkObjectSet_ok hdigest hpublished now
  have hlineage : (plan.commit now).sourceReleaseManifestSha256 =
      plan.artifact.sourceReleaseManifestSha256 := rfl
  rw [if_neg (not_not.mpr hdigestOk), hnamed]
  change KeepsIn _ bad _ (if (plan.commit now).sourceReleaseManifestSha256 ≠
    plan.artifact.sourceReleaseManifestSha256 then _ else _) second
  rw [if_neg (not_not.mpr hlineage), hset]
  apply keeps_pure
  intro later _ _
  exact hsafe

theorem prepareVerify_ok {config : VerifyPublishedConfig} {verifyPlan : VerifyPlan}
    (hnormalized : normalizePrefix config.keyPrefix = .ok keyPrefix)
    (h : prepareVerify config = .ok verifyPlan) :
    SafeComponent config.artifactId ∧ verifyPlan.keyPrefix = keyPrefix ∧
      verifyPlan.commitKey = commitKeyOf keyPrefix config.artifactKind config.artifactId := by
  obtain ⟨_, hid, h⟩ := Except.bind_eq_ok_iff.mp h
  split at h
  · cases h
  obtain ⟨_, _, h⟩ := Except.bind_eq_ok_iff.mp h
  obtain ⟨found, hfound, h⟩ := Except.bind_eq_ok_iff.mp h
  rw [hnormalized, Except.ok.injEq] at hfound
  subst hfound
  cases h
  exact ⟨validateComponent_iff.mp hid, rfl, rfl⟩

include hdigest in
/-- What stands under the key of a COMMIT is one of that kind and id. -/
theorem PublishedFrom.commitAt (hinv : PublishedFrom platform keyPrefix allowed store)
    {kind : ArtifactKind} {id : String} (hid : SafeComponent id) {content : Bytes}
    (hstored : store (commitKeyOf keyPrefix kind id) = some content) :
    ∃ plan now, Publication platform keyPrefix allowed plan ∧
      (plan.artifact.kind = kind ∧ plan.artifact.id = id) ∧
      content = platform.commit.write (plan.commit now) ∧
      CommitStands platform keyPrefix allowed (commitKeyOf keyPrefix kind id)
        (plan.commit now) store := by
  obtain ⟨plan, hplan, hwritten⟩ := hinv _ _ hstored
  obtain ⟨tree, manifest, names, hplanned⟩ := hplan.planned hdigest
  have hkeyOf := commitKeyOf_below hplanned.trimmed kind id
  rcases hwritten with ⟨object, hobject, hkey, _⟩ | ⟨hkey, ⟨now, rfl⟩, _⟩
  · obtain ⟨name, _, hof⟩ := hplanned.name_of_object hobject
    rw [hof.key, hkeyOf] at hkey
    exact absurd (below_injective hkey).symm
      (commitName_ne_fileName _ _ name hid hplanned.safeId (hplanned.digest_safe hdigest))
  · have hsame := hkey
    rw [hplanned.commitKey, hkeyOf] at hsame
    obtain ⟨hkind, hsameId⟩ := commitName_injective hid hplanned.safeId (below_injective hsame)
    exact ⟨plan, now, hplan, ⟨hkind.symm, hsameId.symm⟩, rfl, hstored, plan, now, hplan,
      hkey.symm, rfl⟩

include hdigest in
/-- The verifier accepts a COMMIT that stands, or refuses it for a key. -/
theorem keeps_verifyPublished (hfree : CollisionFree platform allowed)
    (hverify : AllVerify allowed) {config : VerifyPublishedConfig} {verifyPlan : VerifyPlan}
    (hnormalized : normalizePrefix config.keyPrefix = .ok keyPrefix)
    (hprepared : prepareVerify config = .ok verifyPlan)
    (hbad : ExcusesRefusal platform keyPrefix allowed verifyPlan.commitKey bad)
    (hmissing : (∃ content, store verifyPlan.commitKey = some content) ∨
      ∀ store, bad (missingCommit verifyPlan.commitKey) store)
    (hinv : PublishedFrom platform keyPrefix allowed store) :
    KeepsIn (PublishedFrom platform keyPrefix allowed) bad
      (Accepted platform keyPrefix allowed verifyPlan.commitKey)
      (verifyPublished platform config) store := by
  obtain ⟨hid, hsamePrefix, hcommitKey⟩ := prepareVerify_ok hnormalized hprepared
  -- what is read under the key is a COMMIT of the kind and id
  have hread : KeepsIn (PublishedFrom platform keyPrefix allowed) bad
      (fun found later => (found = none → store verifyPlan.commitKey = none) ∧
        ∀ commit ∈ found, ∃ plan now, Publication platform keyPrefix allowed plan ∧
          (plan.artifact.kind = config.artifactKind ∧ plan.artifact.id = config.artifactId) ∧
          commit = plan.commit now ∧
          CommitStands platform keyPrefix allowed verifyPlan.commitKey commit later)
      (readExistingCommit platform verifyPlan.commitKey) store := by
    apply keeps_readOptional
    intro first hfirst hfirstInv
    cases hstored : first verifyPlan.commitKey with
    | none =>
        apply keeps_pure
        intro later _ _
        refine ⟨fun _ => ?_, by simp⟩
        cases hbefore : store verifyPlan.commitKey with
        | none => rfl
        | some content =>
            rw [hfirst _ _ hbefore] at hstored
            cases hstored
    | some content =>
        rw [hcommitKey] at hstored
        obtain ⟨plan, now, hplan, hsame, rfl, hstands⟩ :=
          hfirstInv.commitAt hdigest hid hstored
        rw [← hcommitKey] at hstands
        simp only [parseCommit, platform.commit.read_write]
        apply keeps_pure
        intro later hlater _
        refine ⟨by simp, ?_⟩
        intro commit hcommit
        cases hcommit
        exact ⟨plan, now, hplan, hsame, rfl, hstands.mono hlater⟩
  rw [verifyPublished, hprepared]
  change KeepsIn _ bad _ (readExistingCommit platform verifyPlan.commitKey >>= _) store
  refine Program.Keeps.bind extends_growth hinv hread ?_
  rintro found first _ hfirstInv ⟨hnone, hsome⟩
  cases found with
  | none =>
      apply keeps_throw
      intro later _ _
      rcases hmissing with ⟨content, hstored⟩ | hallowed
      · rw [hnone rfl] at hstored
        cases hstored
      · exact hallowed later
  | some commit =>
      obtain ⟨plan, now, hplan, ⟨hkind, hsameId⟩, rfl, hstands⟩ := hsome commit rfl
      have hvalidate := keeps_validateCommittedArtifact hdigest hfree hverify hbad hfirstInv
        hplan hstands
      rw [hkind, hsameId] at hvalidate
      simp only [hsamePrefix]
      refine Program.Keeps.bind extends_growth hfirstInv hvalidate ?_
      intro _ second hsecond hsecondInv hsafe
      have hstandsSecond := hstands.mono hsecond
      have hpool : KeepsIn (PublishedFrom platform keyPrefix allowed) bad (fun _ _ => True)
          (.pool verifyPlan.concurrency
            ((plan.commit now).objects.map (verifyPublishedObject platform)) (.ret ())) second := by
        apply Program.Keeps.ofPool (fun _ _ => True)
        · intro entry hentry
          exact keeps_verifyPublishedObject hdigest hverify hstandsSecond hsafe hentry
        · intro third _ _ _
          apply keeps_pure
          intro later _ _
          trivial
      refine Program.Keeps.bind extends_growth hsecondInv hpool ?_
      intro _ third hthird _ _
      apply keeps_pure
      intro later hlater hlaterInv
      have hfinal := (hstandsSecond.mono hthird).mono hlater
      exact ⟨plan.commit now, hfinal, hsafe, hfinal.objects hdigest hverify hlaterInv, rfl⟩

end Verifying

/-! What an accepted COMMIT means, whoever wrote to the store. -/

section Sound

variable {platform : Platform} {I : ObjectMap → Prop}
variable {bad : ArchiveError → ObjectMap → Prop} (hbad : Tolerant bad) {store : ObjectMap}

/-- A COMMIT stands under a key with all that it names, and the result describes it. -/
def VerifiedAt (platform : Platform) (key : String) (result : VerifyPublishedResult)
    (store : ObjectMap) : Prop :=
  ∃ content commit, store key = some content ∧ platform.commit.read content = some commit ∧
    (∀ entry ∈ commit.objects, EntryStands platform entry store) ∧
    result = verifyPublishedResult commit key

theorem VerifiedAt.mono {key : String} {result : VerifyPublishedResult} {later : ObjectMap}
    (hgrown : Extends store later) (h : VerifiedAt platform key result store) :
    VerifiedAt platform key result later := by
  obtain ⟨content, commit, hstored, hread, hentries, hresult⟩ := h
  exact ⟨content, commit, hgrown _ _ hstored, hread,
    fun entry hentry => (hentries entry hentry).mono hgrown, hresult⟩

include hbad

theorem keeps_checked_tolerant {A : Type} (result : Except String A) :
    KeepsIn I bad (fun _ _ => True) (checked result) store := by
  apply keeps_checked
  · intro _ _ later _ _
    trivial
  · intro text _ later _ _
    exact hbad _ later

theorem keeps_readExistingCommit_tolerant (key : String) :
    KeepsIn I bad (fun found later => ∀ commit ∈ found, ∃ content,
        later key = some content ∧ platform.commit.read content = some commit)
      (readExistingCommit platform key) store := by
  apply keeps_readOptional
  intro first _ hfirstInv
  cases hstored : first key with
  | none =>
      apply keeps_pure
      intro later _ _ commit hcommit
      cases hcommit
  | some content =>
      simp only [parseCommit]
      cases hread : platform.commit.read content with
      | none =>
          apply keeps_throw
          intro later _ _
          exact hbad _ later
      | some commit =>
          apply keeps_pure
          intro later hlater _ other hother
          cases hother
          exact ⟨content, hlater _ _ hstored, hread⟩

theorem keeps_validateCommittedArtifact_tolerant (commit : ObjectCommit) (kind : ArtifactKind)
    (artifactId keyPrefix : String) (hinv : I store) :
    KeepsIn I bad (fun _ _ => True)
      (validateCommittedArtifact platform commit kind artifactId keyPrefix) store := by
  refine Program.Keeps.bind extends_growth hinv (keeps_checked_tolerant hbad _) ?_
  intro _ first _ hfirstInv _
  refine Program.Keeps.bind extends_growth hfirstInv (keeps_readObject (Or.inl hbad)) ?_
  intro manifestBytes second _ hsecondInv _
  split
  · apply keeps_throw
    intro later _ _
    exact hbad _ later
  refine Program.Keeps.bind extends_growth hsecondInv (keeps_checked_tolerant hbad _) ?_
  rintro ⟨lineage, names⟩ third _ _ _
  simp only
  split
  · apply keeps_throw
    intro later _ _
    exact hbad _ later
  · exact keeps_checked_tolerant hbad _

theorem keeps_verifyPublishedObject_tolerant (entry : ObjectEntry) :
    TaskKeepsIn I bad (EntryStands platform entry) (verifyPublishedObject platform entry)
      store := by
  rw [verifyPublishedObject]
  split
  · intro later _ _
    exact hbad _ later
  apply keeps_taskStat
  intro first _ _
  cases hstat : first entry.key with
  | none =>
      intro later _ _
      exact hbad _ later
  | some content =>
      simp only [Option.map_some]
      split
      · intro later _ _
        exact hbad _ later
      rename_i hbytes
      apply keeps_taskRead
      intro second hsecond _
      rw [hsecond _ _ hstat]
      simp only
      split
      · intro later _ _
        exact hbad _ later
      · rename_i hsha
        intro later hlater _
        exact ⟨content, hlater _ _ (hsecond _ _ hstat), not_not.mp hbytes, not_not.mp hsha⟩

/-- Whatever a verifier accepts stands as its COMMIT says. -/
theorem keeps_verifyPublished_sound {config : VerifyPublishedConfig} {verifyPlan : VerifyPlan}
    (hprepared : prepareVerify config = .ok verifyPlan) (hinv : I store) :
    KeepsIn I bad (VerifiedAt platform verifyPlan.commitKey) (verifyPublished platform config)
      store := by
  rw [verifyPublished, hprepared]
  change KeepsIn I bad _ (readExistingCommit platform verifyPlan.commitKey >>= _) store
  refine Program.Keeps.bind extends_growth hinv
    (keeps_readExistingCommit_tolerant hbad verifyPlan.commitKey) ?_
  intro found first _ hfirstInv hfound
  cases found with
  | none =>
      apply keeps_throw
      intro later _ _
      exact hbad _ later
  | some commit =>
      obtain ⟨content, hstored, hread⟩ := hfound commit rfl
      refine Program.Keeps.bind extends_growth hfirstInv
        (keeps_validateCommittedArtifact_tolerant hbad commit _ _ _ hfirstInv) ?_
      intro _ second hsecond hsecondInv _
      have hpool : KeepsIn I bad
          (fun _ later => ∀ entry ∈ commit.objects, EntryStands platform entry later)
          (.pool verifyPlan.concurrency (commit.objects.map (verifyPublishedObject platform))
            (.ret ())) second := by
        apply Program.Keeps.ofPool (EntryStands platform)
        · intro entry _
          exact keeps_verifyPublishedObject_tolerant hbad entry
        · intro third _ _ hall
          apply keeps_pure
          intro later hlater _ entry hentry
          exact (hall entry hentry).mono hlater
      refine Program.Keeps.bind extends_growth hsecondInv hpool ?_
      intro _ third hthird _ hentries
      apply keeps_pure
      intro later hlater _
      have hgrown := extends_growth.trans hsecond (extends_growth.trans hthird hlater)
      exact ⟨content, commit, hgrown _ _ hstored, hread,
        fun entry hentry => (hentries entry hentry).mono hlater, rfl⟩

end Sound

end Publish

end ChipTrace
