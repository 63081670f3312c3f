/-
A visible checkpoint stands for a complete archive, whatever archivers run over the
store, in any interleaving and with any of them lost at any point.
-/
import ChipTrace.RawArchive.Archiver
import ChipTrace.RawArchive.Validation

namespace ChipTrace

open Interleave

/-- Nothing that is stored goes away or changes. -/
def Extends (before after : ObjectMap) : Prop :=
  ∀ key content, before key = some content → after key = some content

theorem createObject_extends (key : String) (content : Bytes) (store : ObjectMap) :
    Extends store (createObject key content store).2 := by
  intro other stored hstored
  rw [createObject]
  cases hkey : store key with
  | some present => exact hstored
  | none =>
      have hne : other ≠ key := by
        rintro rfl
        rw [hkey] at hstored
        cases hstored
      change Function.update store key (some content) other = some stored
      rw [Function.update_of_ne hne]
      exact hstored

theorem extends_growth : Growth (S := ObjectStore) Extends where
  refl _ _ _ h := h
  trans hfirst hsecond key content h := hsecond key content (hfirst key content h)
  exec op store := by
    cases op with
    | stat key | read key => exact fun _ _ h => h
    | create key content => exact createObject_extends key content store

/-- What stands in the store after a conditional write. -/
theorem createObject_present (key : String) (content : Bytes) (store : ObjectMap) :
    ∃ present, (createObject key content store).2 key = some present ∧
      (present = content ∨ store key = some present) := by
  rw [createObject]
  cases hkey : store key with
  | some present => exact ⟨present, hkey, Or.inr rfl⟩
  | none => exact ⟨content, by simp, Or.inl rfl⟩

theorem createObject_created {key : String} {content : Bytes} {store : ObjectMap}
    (h : (createObject key content store).1 = true) :
    (createObject key content store).2 key = some content := by
  rw [createObject] at h ⊢
  cases hkey : store key with
  | some present => simp [hkey] at h
  | none => simp

/-- Every key but one is as before a conditional write. -/
theorem createObject_of_ne {key other : String} (hne : other ≠ key) (content : Bytes)
    (store : ObjectMap) : (createObject key content store).2 other = store other := by
  rw [createObject]
  cases store key with
  | some present => rfl
  | none => exact Function.update_of_ne hne _ _

/-! The promise of one operation and what follows it. -/

section Rules

variable {I : ObjectMap → Prop} {bad : ArchiveError → ObjectMap → Prop}
variable {α β : Type} {good : α → ObjectMap → Prop}

abbrev KeepsIn (I : ObjectMap → Prop) (bad : ArchiveError → ObjectMap → Prop)
    (good : α → ObjectMap → Prop) (program : ObjectProgram α) (store : ObjectMap) : Prop :=
  Program.Keeps (S := ObjectStore) I Extends bad good program store

theorem keeps_pure {value : α} {store : ObjectMap}
    (h : ∀ later, Extends store later → I later → good value later) :
    KeepsIn I bad good (pure value) store := h

theorem keeps_throw {error : ArchiveError} {store : ObjectMap}
    (h : ∀ later, Extends store later → I later → bad error later) :
    KeepsIn I bad good (Program.throw error) store := by
  refine ⟨h, ?_⟩
  intro task htask
  cases htask

theorem keeps_checked {result : Except String α} {store : ObjectMap}
    (hok : ∀ value, result = .ok value →
      ∀ later, Extends store later → I later → good value later)
    (herror : ∀ text, result = .error text →
      ∀ later, Extends store later → I later → bad (.other text) later) :
    KeepsIn I bad good (checked result) store := by
  cases result with
  | ok value => exact hok value rfl
  | error text => exact keeps_throw (herror text rfl)

theorem keeps_statObject {key : String} {f : Option Nat → ObjectProgram β}
    {good : β → ObjectMap → Prop} {store : ObjectMap}
    (h : ∀ later, Extends store later → I later →
      KeepsIn I bad good (f ((later key).map List.length)) later) :
    KeepsIn I bad good (statObject key >>= f) store :=
  fun later hlater hinv => ⟨hinv, h later hlater hinv⟩

theorem keeps_readOptional {key : String} {f : Option Bytes → ObjectProgram β}
    {good : β → ObjectMap → Prop} {store : ObjectMap}
    (h : ∀ later, Extends store later → I later → KeepsIn I bad good (f (later key)) later) :
    KeepsIn I bad good (readOptional key >>= f) store :=
  fun later hlater hinv => ⟨hinv, h later hlater hinv⟩

theorem keeps_createIfAbsent {key : String} {content : Bytes} {f : Bool → ObjectProgram β}
    {good : β → ObjectMap → Prop} {store : ObjectMap}
    (hinv : ∀ later, Extends store later → I later → I (createObject key content later).2)
    (h : ∀ later, Extends store later → I later →
      KeepsIn I bad good (f (createObject key content later).1)
        (createObject key content later).2) :
    KeepsIn I bad good (createIfAbsent key content >>= f) store :=
  fun later hlater hbefore => ⟨hinv later hlater hbefore, h later hlater hbefore⟩

abbrev TaskKeepsIn (I : ObjectMap → Prop) (bad : ArchiveError → ObjectMap → Prop)
    (goal : ObjectMap → Prop) (task : ObjectTask) (store : ObjectMap) : Prop :=
  Task.Keeps (S := ObjectStore) I Extends bad goal task store

theorem keeps_taskStat {key : String} {next : Option Nat → ObjectTask}
    {goal : ObjectMap → Prop} {store : ObjectMap}
    (h : ∀ later, Extends store later → I later →
      TaskKeepsIn I bad goal (next ((later key).map List.length)) later) :
    TaskKeepsIn I bad goal (Task.call (S := ObjectStore) (ObjectOp.stat key) next) store :=
  fun later hlater hinv => ⟨hinv, h later hlater hinv⟩

theorem keeps_taskCreate {key : String} {content : Bytes} {next : Bool → ObjectTask}
    {goal : ObjectMap → Prop} {store : ObjectMap}
    (hinv : ∀ later, I later → I (createObject key content later).2)
    (h : ∀ later, I later →
      TaskKeepsIn I bad goal (next (createObject key content later).1)
        (createObject key content later).2) :
    TaskKeepsIn I bad goal (Task.call (S := ObjectStore) (ObjectOp.create key content) next)
      store :=
  fun later _ hbefore => ⟨hinv later hbefore, h later hbefore⟩

end Rules

/-! What verification leaves behind. -/

section Verification

variable (platform : RawPlatform)

/-- The object of a descriptor is stored with its length and digest. -/
def ObjectStored (store : ObjectMap) (entry : SegmentEntry) : Prop :=
  ∃ content, store entry.objectKey = some content ∧ content.length = entry.bytes ∧
    platform.sha256 content = entry.sha256

/-- The object is stored and holds as many records as the descriptor says. -/
def EntryStored (store : ObjectMap) (entry : SegmentEntry) : Prop :=
  ∃ content records, store entry.objectKey = some content ∧ content.length = entry.bytes ∧
    platform.sha256 content = entry.sha256 ∧
    remoteReader.read platform.json content = .ok records ∧ records.length = entry.records

theorem ObjectStored.mono {platform : RawPlatform} {store later : ObjectMap}
    {entry : SegmentEntry} (hgrown : Extends store later)
    (h : ObjectStored platform store entry) : ObjectStored platform later entry := by
  obtain ⟨content, hstored, hrest⟩ := h
  exact ⟨content, hgrown _ _ hstored, hrest⟩

theorem EntryStored.mono {platform : RawPlatform} {store later : ObjectMap}
    {entry : SegmentEntry} (hgrown : Extends store later)
    (h : EntryStored platform store entry) : EntryStored platform later entry := by
  obtain ⟨content, records, hstored, hrest⟩ := h
  exact ⟨content, records, hgrown _ _ hstored, hrest⟩

/-- The manifest of a checkpoint and every object that it names are stored as the
checkpoint says. -/
def Complete (store : ObjectMap) (checkpoint : RawArchiveCheckpoint) : Prop :=
  ∃ manifestBytes manifest, store checkpoint.manifestKey = some manifestBytes ∧
    platform.sha256 manifestBytes = checkpoint.manifestSha256 ∧
    platform.manifest.read manifestBytes = some manifest ∧
    ∀ entry ∈ manifest.entries, ObjectStored platform store entry

theorem Complete.mono {platform : RawPlatform} {store later : ObjectMap}
    {checkpoint : RawArchiveCheckpoint} (hgrown : Extends store later)
    (h : Complete platform store checkpoint) : Complete platform later checkpoint := by
  obtain ⟨manifestBytes, manifest, hstored, hsha, hread, hentries⟩ := h
  exact ⟨manifestBytes, manifest, hgrown _ _ hstored, hsha, hread, fun entry hentry =>
    (hentries entry hentry).mono hgrown⟩

variable {platform} {I : ObjectMap → Prop} {bad : ArchiveError → ObjectMap → Prop}

/-- Every failure is allowed. -/
abbrev Tolerant (bad : ArchiveError → ObjectMap → Prop) : Prop := ∀ error store, bad error store

theorem keeps_readObject {key : String} {store : ObjectMap}
    (h : Tolerant bad ∨ ∃ content, store key = some content) :
    KeepsIn I bad (fun content later => later key = some content) (readObject key) store := by
  apply keeps_readOptional
  intro first hfirst _
  cases hread : first key with
  | none =>
      apply keeps_throw
      intro later _ _
      rcases h with htolerant | ⟨content, hstored⟩
      · exact htolerant _ _
      · rw [hfirst _ _ hstored] at hread
        cases hread
  | some content =>
      apply keeps_pure
      intro later hlater _
      exact hlater _ _ hread

/-- What the count of the records of an object finds. -/
def CountedIn (platform : RawPlatform) (entry : SegmentEntry) (count : Nat)
    (store : ObjectMap) : Prop :=
  ∃ content records, store entry.objectKey = some content ∧ content.length = entry.bytes ∧
    platform.sha256 content = entry.sha256 ∧
    remoteReader.read platform.json content = .ok records ∧ count = records.length

theorem CountedIn.mono {entry : SegmentEntry} {count : Nat} {store later : ObjectMap}
    (hgrown : Extends store later) (h : CountedIn platform entry count store) :
    CountedIn platform entry count later := by
  obtain ⟨content, records, hstored, hrest⟩ := h
  exact ⟨content, records, hgrown _ _ hstored, hrest⟩

theorem keeps_verifyRemoteSegmentRecords {entry : SegmentEntry} {store : ObjectMap}
    (hinv : I store) (h : Tolerant bad ∨ EntryStored platform store entry) :
    KeepsIn I bad (CountedIn platform entry)
      (verifyRemoteSegmentRecords platform entry.objectKey entry.bytes entry.sha256) store := by
  have hread : KeepsIn I bad (fun content later => later entry.objectKey = some content)
      (readObject entry.objectKey) store := by
    apply keeps_readObject
    exact h.imp_right fun ⟨content, _, hstored, _⟩ => ⟨content, hstored⟩
  refine Program.Keeps.bind extends_growth hinv hread ?_
  intro content first hfirst hfirstInv hcontent
  -- in the sound case what was read is what the descriptor describes
  have hfound : Tolerant bad ∨ (content.length = entry.bytes ∧
      platform.sha256 content = entry.sha256 ∧
      ∃ records, remoteReader.read platform.json content = .ok records) := by
    refine h.imp_right ?_
    rintro ⟨other, records, hstored, hbytes, hsha, hrecords, _⟩
    have hsame := hfirst _ _ hstored
    rw [hcontent, Option.some.injEq] at hsame
    exact hsame ▸ ⟨hbytes, hsha, records, hrecords⟩
  have hrecords : KeepsIn I bad
      (fun records _ => remoteReader.read platform.json content = .ok records)
      (checked (remoteReader.read platform.json content)) first := by
    apply keeps_checked
    · intro records hok later _ _
      exact hok
    · intro text herror later _ _
      rcases hfound with htolerant | ⟨_, _, records, hok⟩
      · exact htolerant _ _
      · rw [hok] at herror
        cases herror
  refine Program.Keeps.bind extends_growth hfirstInv hrecords ?_
  intro records second hsecond _ hok
  split
  · rename_i hlength
    apply keeps_throw
    intro later _ _
    rcases hfound with htolerant | ⟨hbytes, _⟩
    · exact htolerant _ _
    · exact absurd hbytes hlength
  rename_i hlength
  split
  · rename_i hsha
    apply keeps_throw
    intro later _ _
    rcases hfound with htolerant | ⟨_, hdigest, _⟩
    · exact htolerant _ _
    · exact absurd hdigest hsha
  rename_i hsha
  apply keeps_pure
  intro later hlater _
  exact ⟨content, records, hlater _ _ (hsecond _ _ hcontent), not_not.mp hlength,
    not_not.mp hsha, hok, rfl⟩

/-- What the look at one object finds. -/
def FoundIn (platform : RawPlatform) (verifyRecords : Bool) (key sha256 : String)
    (found : VerifiedObject) (store : ObjectMap) : Prop :=
  ∃ content, store key = some content ∧ content.length = found.bytes ∧
    platform.sha256 content = sha256 ∧
    (verifyRecords = true → ∃ records, remoteReader.read platform.json content = .ok records ∧
      found.records = records.length)

theorem FoundIn.mono {verifyRecords : Bool} {key sha256 : String} {found : VerifiedObject}
    {store later : ObjectMap} (hgrown : Extends store later)
    (h : FoundIn platform verifyRecords key sha256 found store) :
    FoundIn platform verifyRecords key sha256 found later := by
  obtain ⟨content, hstored, hrest⟩ := h
  exact ⟨content, hgrown _ _ hstored, hrest⟩

theorem keeps_verifyObject {verifyRecords : Bool} {entry : SegmentEntry} {store : ObjectMap}
    (h : Tolerant bad ∨ EntryStored platform store entry) :
    KeepsIn I bad (FoundIn platform verifyRecords entry.objectKey entry.sha256)
      (verifyObject platform verifyRecords entry) store := by
  apply keeps_statObject
  intro first hfirst hfirstInv
  have hfirstStored := h.imp_right (EntryStored.mono hfirst)
  cases hstat : first entry.objectKey with
  | none =>
      apply keeps_throw
      intro later _ _
      rcases hfirstStored with htolerant | ⟨content, records, hstored, _⟩
      · exact htolerant _ _
      · rw [hstat] at hstored
        cases hstored
  | some content =>
      simp only [Option.map_some]
      split
      · rename_i hlength
        apply keeps_throw
        intro later _ _
        rcases hfirstStored with htolerant | ⟨other, records, hstored, hbytes, _⟩
        · exact htolerant _ _
        · rw [hstat, Option.some.injEq] at hstored
          exact absurd (hstored ▸ hbytes) hlength
      rename_i hlength
      have hlength : content.length = entry.bytes := not_not.mp hlength
      rw [hlength]
      split
      · rename_i hverify
        have hcount := keeps_verifyRemoteSegmentRecords hfirstInv hfirstStored
        refine Program.Keeps.bind extends_growth hfirstInv hcount ?_
        intro count second _ _ hcounted
        apply keeps_pure
        intro later hlater _
        obtain ⟨content, records, hstored, hbytes, hsha, hrecords, hcount⟩ :=
          hcounted.mono hlater
        exact ⟨content, hstored, hbytes, hsha, fun _ => ⟨records, hrecords, hcount⟩⟩
      · rename_i hverify
        have hread : KeepsIn I bad (fun content later => later entry.objectKey = some content)
            (readObject entry.objectKey) first := keeps_readObject (Or.inr ⟨content, hstat⟩)
        refine Program.Keeps.bind extends_growth hfirstInv hread ?_
        intro other second hsecond _ hother
        have hsame : other = content := by
          have hstored := hsecond _ _ hstat
          rw [hother, Option.some.injEq] at hstored
          exact hstored
        subst hsame
        split
        · rename_i hsha
          apply keeps_throw
          intro later _ _
          rcases hfirstStored with htolerant | ⟨stored, _, hstored, _, hdigest, _⟩
          · exact htolerant _ _
          · rw [hstat, Option.some.injEq] at hstored
            exact absurd (hstored ▸ hdigest) hsha
        · rename_i hsha
          apply keeps_pure
          intro later hlater _
          refine ⟨other, hlater _ _ hother, hlength, not_not.mp hsha, ?_⟩
          intro htrue
          exact absurd htrue hverify

variable {paths : ArchivePaths}

/-- Every object that a walk has looked at is stored under its digest. -/
def WalkSound (platform : RawPlatform) (paths : ArchivePaths) (verifyRecords : Bool)
    (objects : List (String × VerifiedObject)) (store : ObjectMap) : Prop :=
  ∀ key found, objects.lookup key = some found → ∃ sha256, isHexDigest sha256 = true ∧
    key = paths.objectKey sha256 ∧ FoundIn platform verifyRecords key sha256 found store

theorem WalkSound.mono {verifyRecords : Bool} {objects : List (String × VerifiedObject)}
    {store later : ObjectMap} (hgrown : Extends store later)
    (h : WalkSound platform paths verifyRecords objects store) :
    WalkSound platform paths verifyRecords objects later := by
  intro key found hlookup
  obtain ⟨sha256, hhex, hkey, hfound⟩ := h key found hlookup
  exact ⟨sha256, hhex, hkey, hfound.mono hgrown⟩

theorem objectKey_injective {left right : String} (hleft : isHexDigest left = true)
    (hright : isHexDigest right = true)
    (h : paths.objectKey left = paths.objectKey right) : left = right := by
  have hnames := joinKey_injective paths.objectBase (digest_safe hleft).slash
    (digest_safe hright).slash h
  have htexts := congrArg String.toList hnames
  rw [String.toList_append, String.toList_append] at htexts
  exact String.toList_inj.mp (List.append_cancel_right htexts)

theorem keeps_findObject {verifyRecords : Bool} {walk : VerifyWalk} {entry : SegmentEntry}
    {store : ObjectMap} (hinv : I store) (hhex : isHexDigest entry.sha256 = true)
    (hkey : entry.objectKey = paths.objectKey entry.sha256)
    (hwalk : WalkSound platform paths verifyRecords walk.objects store)
    (h : Tolerant bad ∨ EntryStored platform store entry) :
    KeepsIn I bad (fun result later =>
        FoundIn platform verifyRecords entry.objectKey entry.sha256 result.1 later ∧
          WalkSound platform paths verifyRecords result.2 later)
      (findObject platform verifyRecords walk entry) store := by
  unfold findObject
  cases hlookup : walk.objects.lookup entry.objectKey with
  | some found =>
      apply keeps_pure
      intro later hlater _
      obtain ⟨sha256, hshaHex, hshaKey, hfound⟩ := hwalk _ _ hlookup
      have hsame : sha256 = entry.sha256 :=
        objectKey_injective hshaHex hhex (hshaKey.symm.trans hkey)
      exact ⟨hsame ▸ hfound.mono hlater, hwalk.mono hlater⟩
  | none =>
      refine Program.Keeps.bind extends_growth hinv (keeps_verifyObject h) ?_
      intro found first hfirst _ hfound
      apply keeps_pure
      intro later hlater _
      refine ⟨hfound.mono hlater, ?_⟩
      intro key other hother
      rw [List.lookup_cons] at hother
      split at hother
      · rename_i heq
        rw [beq_iff_eq] at heq
        cases hother
        exact ⟨entry.sha256, hhex, heq.trans hkey, heq ▸ hfound.mono hlater⟩
      · exact (hwalk.mono (extends_growth.trans hfirst hlater)) key other hother

/-- The number of records after an entry. -/
def countRecords (verifyRecords : Bool) (records : Nat) (item : SegmentEntry × Bool) : Nat :=
  if verifyRecords && !item.2 then U64.saturatingAdd records item.1.records else records

theorem checkDescriptor_ok {empty : Bool} {seen : List (String × Nat)} {entry : SegmentEntry}
    {unit : Unit} (h : checkDescriptor paths empty seen entry = .ok unit) :
    isHexDigest entry.sha256 = true ∧ entry.objectKey = paths.objectKey entry.sha256 := by
  obtain ⟨_, _, h⟩ := Except.bind_eq_ok_iff.mp h
  obtain ⟨_, _, h⟩ := Except.bind_eq_ok_iff.mp h
  obtain ⟨_, _, h⟩ := Except.bind_eq_ok_iff.mp h
  obtain ⟨_, hhex, h⟩ := Except.bind_eq_ok_iff.mp h
  obtain ⟨_, hkey, _⟩ := Except.bind_eq_ok_iff.mp h
  exact ⟨by simpa using refuseIf_eq_ok.mp hhex, by simpa using refuseIf_eq_ok.mp hkey⟩

theorem checkDescriptor_of_valid {empty : Bool} {seen : List (String × Nat)}
    {entry : SegmentEntry} (h : EntryValid paths empty entry) (hfresh : entry.key ∉ seen) :
    checkDescriptor paths empty seen entry = .ok () := by
  have hnew : seen.contains entry.key = false := by simpa using hfresh
  have hsource : (!empty && entry.sourcePath != segmentSourcePath entry.shard entry.segmentId) =
      false := by
    rw [h.sourcePath]
    simp
  refine Except.bind_eq_ok_iff.mpr ⟨(), validateComponent_iff.mpr h.shard, ?_⟩
  refine Except.bind_eq_ok_iff.mpr ⟨(), refuseIf_eq_ok.mpr hsource, ?_⟩
  refine Except.bind_eq_ok_iff.mpr ⟨(), validateKey_iff.mpr h.safe, ?_⟩
  refine Except.bind_eq_ok_iff.mpr ⟨(), refuseIf_eq_ok.mpr (by simp [h.sha256]), ?_⟩
  refine Except.bind_eq_ok_iff.mpr
    ⟨(), refuseIf_eq_ok.mpr (bne_eq_false_iff_eq.mpr h.objectKey), ?_⟩
  refine Except.bind_eq_ok_iff.mpr ⟨(), refuseIf_eq_ok.mpr hnew, ?_⟩
  cases empty with
  | false =>
      have hempty : (!false && (entry.bytes == 0 || entry.records == 0)) = false := by
        simp [h.bytes rfl, h.records rfl]
      exact Except.bind_eq_ok_iff.mpr ⟨(), refuseIf_eq_ok.mpr hempty, rfl⟩
  | true =>
      refine Except.bind_eq_ok_iff.mpr ⟨(), rfl, refuseIf_eq_ok.mpr ?_⟩
      simp [h.noRecords rfl]

theorem EntryValid.expectedRecords {empty : Bool} {entry : SegmentEntry}
    (h : EntryValid paths empty entry) :
    ChipTrace.expectedRecords empty entry = entry.records := by
  cases empty with
  | false => rfl
  | true => exact (h.noRecords rfl).symm

/-- What a walk needs so that no check of an entry fails. -/
structure EntryVerifiable (platform : RawPlatform) (paths : ArchivePaths)
    (seen : List (String × Nat)) (item : SegmentEntry × Bool) (store : ObjectMap) : Prop where
  valid : EntryValid paths item.2 item.1
  fresh : item.1.key ∉ seen
  stored : EntryStored platform store item.1

/-- What the walk leaves behind for an entry. -/
structure EntryVerified (platform : RawPlatform) (paths : ArchivePaths) (verifyRecords : Bool)
    (walk : VerifyWalk) (item : SegmentEntry × Bool) (after : VerifyWalk) (store : ObjectMap) :
    Prop where
  stored : ObjectStored platform store item.1
  sound : WalkSound platform paths verifyRecords after.objects store
  seen : after.seen = item.1.key :: walk.seen
  records : after.records = countRecords verifyRecords walk.records item

theorem keeps_verifyEntry {verifyRecords : Bool} {walk : VerifyWalk}
    {item : SegmentEntry × Bool} {store : ObjectMap} (hinv : I store)
    (hwalk : WalkSound platform paths verifyRecords walk.objects store)
    (h : Tolerant bad ∨ EntryVerifiable platform paths walk.seen item store) :
    KeepsIn I bad (EntryVerified platform paths verifyRecords walk item)
      (verifyEntry platform paths verifyRecords item.2 walk item.1) store := by
  have hchecked : KeepsIn I bad
      (fun _ _ => isHexDigest item.1.sha256 = true ∧
        item.1.objectKey = paths.objectKey item.1.sha256)
      (checked (checkDescriptor paths item.2 walk.seen item.1)) store := by
    apply keeps_checked
    · intro unit hok later _ _
      exact checkDescriptor_ok hok
    · intro text herror later _ _
      rcases h with htolerant | hverifiable
      · exact htolerant _ _
      · rw [checkDescriptor_of_valid hverifiable.valid hverifiable.fresh] at herror
        cases herror
  refine Program.Keeps.bind extends_growth hinv hchecked ?_
  rintro _ first hfirst hfirstInv ⟨hhex, hkey⟩
  have hfirstStored := h.imp_right fun hverifiable => hverifiable.stored.mono hfirst
  have hfind := keeps_findObject hfirstInv hhex hkey
    (hwalk.mono hfirst) hfirstStored
  refine Program.Keeps.bind extends_growth hfirstInv hfind ?_
  rintro ⟨found, objects⟩ second hsecond _ ⟨hfound, hsound⟩
  obtain ⟨content, hstored, hbytes, hsha, hrecords⟩ := hfound
  -- the content under the key is the one that the descriptor needs
  have hneeded : Tolerant bad ∨ (content.length = item.1.bytes ∧
      ∃ records, remoteReader.read platform.json content = .ok records ∧
        records.length = expectedRecords item.2 item.1) := by
    refine h.imp_right fun hverifiable => ?_
    obtain ⟨other, records, hother, hlength, _, hread, hcount⟩ := hverifiable.stored
    have hsame := hsecond _ _ (hfirst _ _ hother)
    rw [hstored, Option.some.injEq] at hsame
    subst hsame
    exact ⟨hlength, records, hread, hcount.trans hverifiable.valid.expectedRecords.symm⟩
  simp only
  split
  · rename_i hlength
    apply keeps_throw
    intro later _ _
    rcases hneeded with htolerant | ⟨hneededBytes, _⟩
    · exact htolerant _ _
    · exact absurd (hbytes.symm.trans hneededBytes) hlength
  rename_i hlength
  split
  · rename_i hcount
    apply keeps_throw
    intro later _ _
    rcases hneeded with htolerant | ⟨_, records, hread, hneededCount⟩
    · exact htolerant _ _
    · exfalso
      rw [Bool.and_eq_true, decide_eq_true_eq] at hcount
      obtain ⟨hverify, hne⟩ := hcount
      obtain ⟨counted, hcounted, hfoundCount⟩ := hrecords hverify
      rw [hread, Except.ok.injEq] at hcounted
      subst hcounted
      exact hne (hfoundCount.trans hneededCount)
  · apply keeps_pure
    intro later hlater _
    refine ⟨⟨content, hlater _ _ hstored, hbytes.trans (not_not.mp hlength), hsha⟩,
      hsound.mono hlater, rfl, rfl⟩

/-- What a walk over the entries needs so that no check fails. -/
structure EntriesVerifiable (platform : RawPlatform) (paths : ArchivePaths)
    (seen : List (String × Nat)) (items : List (SegmentEntry × Bool)) (store : ObjectMap) :
    Prop where
  valid : ∀ item ∈ items, EntryValid paths item.2 item.1
  nodup : (items.map fun item => item.1.key).Nodup
  fresh : ∀ item ∈ items, item.1.key ∉ seen
  stored : ∀ item ∈ items, EntryStored platform store item.1

theorem EntriesVerifiable.tail {seen : List (String × Nat)} {item : SegmentEntry × Bool}
    {rest : List (SegmentEntry × Bool)} {store later : ObjectMap}
    (h : EntriesVerifiable platform paths seen (item :: rest) store)
    (hgrown : Extends store later) :
    EntriesVerifiable platform paths (item.1.key :: seen) rest later := by
  have hnodup := h.nodup
  rw [List.map_cons, List.nodup_cons] at hnodup
  refine ⟨fun other hother => h.valid other (List.mem_cons_of_mem _ hother), hnodup.2, ?_,
    fun other hother => (h.stored other (List.mem_cons_of_mem _ hother)).mono hgrown⟩
  intro other hother hmem
  rcases List.mem_cons.mp hmem with heq | hseen
  · exact hnodup.1 (heq ▸ List.mem_map_of_mem hother)
  · exact h.fresh other (List.mem_cons_of_mem _ hother) hseen

theorem keeps_verifyEntries {verifyRecords : Bool} {walk : VerifyWalk}
    {items : List (SegmentEntry × Bool)} {store : ObjectMap} (hinv : I store)
    (hwalk : WalkSound platform paths verifyRecords walk.objects store)
    (h : Tolerant bad ∨ EntriesVerifiable platform paths walk.seen items store) :
    KeepsIn I bad (fun after later =>
        (∀ item ∈ items, ObjectStored platform later item.1) ∧
          after.records = items.foldl (countRecords verifyRecords) walk.records)
      (verifyEntries platform paths verifyRecords walk items) store := by
  induction items generalizing walk store with
  | nil =>
      apply keeps_pure
      intro later _ _
      exact ⟨by simp, rfl⟩
  | cons item rest ih =>
      have hentry := keeps_verifyEntry hinv hwalk
        (h.imp_right fun hverifiable => (⟨hverifiable.valid item List.mem_cons_self,
          hverifiable.fresh item List.mem_cons_self,
          hverifiable.stored item List.mem_cons_self⟩ :
            EntryVerifiable platform paths walk.seen item store))
      refine Program.Keeps.bind extends_growth hinv hentry ?_
      intro after first hfirst hfirstInv hverified
      have hrest := ih hfirstInv hverified.sound
        (h.imp_right fun hverifiable => by
          rw [hverified.seen]
          exact hverifiable.tail hfirst)
      have hkept := hrest.frame extends_growth (fun later hlater _ =>
        hverified.stored.mono hlater)
      refine hkept.imp ?_
      rintro final later ⟨⟨hstored, hrecords⟩, hitem⟩
      refine ⟨?_, ?_⟩
      · intro other hother
        rcases List.mem_cons.mp hother with rfl | hlater
        · exact hitem
        · exact hstored other hlater
      · rw [hrecords, hverified.records, List.foldl_cons]

theorem validateManifestBytes_ok {checkpoint : RawArchiveCheckpoint} {manifestBytes : Bytes}
    {manifest : RawArchiveManifest}
    (h : validateManifestBytes platform checkpoint paths manifestBytes = .ok manifest) :
    checkpoint.manifestKey = paths.manifest ∧
      platform.sha256 manifestBytes = checkpoint.manifestSha256 ∧
      platform.manifest.read manifestBytes = some manifest := by
  obtain ⟨_, hcheckpoint, h⟩ := Except.bind_eq_ok_iff.mp h
  obtain ⟨_, hsha, h⟩ := Except.bind_eq_ok_iff.mp h
  obtain ⟨_, hkey, _⟩ := Except.bind_eq_ok_iff.mp hcheckpoint
  rw [refuseIf_eq_ok, Bool.or_eq_false_iff] at hkey
  refine ⟨by simpa using hkey.2, by simpa using refuseIf_eq_ok.mp hsha, ?_⟩
  cases hread : platform.manifest.read manifestBytes with
  | none =>
      rw [hread] at h
      cases h
  | some found =>
      rw [hread] at h
      obtain ⟨_, _, h⟩ := Except.bind_eq_ok_iff.mp h
      cases h
      rfl

/-- What the verification needs so that no check fails. -/
structure ManifestVerifiable (platform : RawPlatform) (checkpoint : RawArchiveCheckpoint)
    (paths : ArchivePaths) (manifestBytes : Bytes) (manifest : RawArchiveManifest)
    (store : ObjectMap) : Prop where
  present : store paths.manifest = some manifestBytes
  valid : validateManifestBytes platform checkpoint paths manifestBytes = .ok manifest
  entries : EntriesVerifiable platform paths [] manifest.described store
  records : manifest.described.foldl (countRecords true) 0 = manifest.totalRecords

theorem keeps_verifyManifestObjects {checkpoint : RawArchiveCheckpoint} {store : ObjectMap}
    (hinv : I store) (h : Tolerant bad ∨ ∃ manifestBytes manifest,
      ManifestVerifiable platform checkpoint paths manifestBytes manifest store) :
    KeepsIn I bad (fun _ later => Complete platform later checkpoint)
      (verifyManifestObjects platform checkpoint paths true) store := by
  have hread : KeepsIn I bad (fun content later => later paths.manifest = some content)
      (readObject paths.manifest) store := by
    apply keeps_readObject
    exact h.imp_right fun ⟨manifestBytes, _, hverifiable⟩ => ⟨manifestBytes, hverifiable.present⟩
  refine Program.Keeps.bind extends_growth hinv hread ?_
  intro manifestBytes first hfirst hfirstInv hpresent
  have hfirstVerifiable : Tolerant bad ∨ ∃ manifest,
      ManifestVerifiable platform checkpoint paths manifestBytes manifest store := by
    refine h.imp_right ?_
    rintro ⟨other, manifest, hverifiable⟩
    have hsame := hfirst _ _ hverifiable.present
    rw [hpresent, Option.some.injEq] at hsame
    subst hsame
    exact ⟨manifest, hverifiable⟩
  have hvalidated : KeepsIn I bad
      (fun manifest _ =>
        validateManifestBytes platform checkpoint paths manifestBytes = .ok manifest)
      (checked (validateManifestBytes platform checkpoint paths manifestBytes)) first := by
    apply keeps_checked
    · intro manifest hok later _ _
      exact hok
    · intro text herror later _ _
      rcases hfirstVerifiable with htolerant | ⟨manifest, hverifiable⟩
      · exact htolerant _ _
      · rw [hverifiable.valid] at herror
        cases herror
  refine Program.Keeps.bind extends_growth hfirstInv hvalidated ?_
  intro manifest second hsecond hsecondInv hvalid
  have hverifiable : Tolerant bad ∨
      ManifestVerifiable platform checkpoint paths manifestBytes manifest store := by
    refine hfirstVerifiable.imp_right ?_
    rintro ⟨other, hverifiable⟩
    have hsame := hverifiable.valid
    rw [hvalid, Except.ok.injEq] at hsame
    exact hsame ▸ hverifiable
  let start : VerifyWalk := ⟨[], [], 0⟩
  have hempty : WalkSound platform paths true start.objects second := by
    intro key found hlookup
    cases hlookup
  have hstart : Tolerant bad ∨
      EntriesVerifiable platform paths start.seen manifest.described second :=
    (hverifiable.imp_right fun hverifiable =>
      ⟨hverifiable.entries.valid, hverifiable.entries.nodup, hverifiable.entries.fresh,
        fun item hitem => (hverifiable.entries.stored item hitem).mono
          (extends_growth.trans hfirst hsecond)⟩)
  have hentries := keeps_verifyEntries hsecondInv hempty hstart
  refine Program.Keeps.bind extends_growth hsecondInv hentries ?_
  rintro walk third hthird _ ⟨hstored, hrecords⟩
  split
  · rename_i hcount
    apply keeps_throw
    intro later _ _
    rcases hverifiable with htolerant | hverifiable
    · exact htolerant _ _
    · rw [Bool.and_eq_true, decide_eq_true_eq] at hcount
      exact absurd (hrecords.trans hverifiable.records) hcount.2
  · apply keeps_pure
    intro later hlater _
    obtain ⟨hkey, hsha, hread⟩ := validateManifestBytes_ok hvalid
    have hmanifest := hlater _ _ (hthird _ _ (hsecond _ _ hpresent))
    refine ⟨manifestBytes, manifest, hkey ▸ hmanifest, hsha, hread, ?_⟩
    intro entry hentry
    have hmem : ∃ item ∈ manifest.described, item.1 = entry := by
      rcases List.mem_append.mp hentry with hdata | hempty
      · exact ⟨(entry, false), List.mem_append_left _ (List.mem_map_of_mem hdata), rfl⟩
      · exact ⟨(entry, true), List.mem_append_right _ (List.mem_map_of_mem hempty), rfl⟩
    obtain ⟨item, hitem, rfl⟩ := hmem
    exact (hstored item hitem).mono hlater

end Verification

end ChipTrace
