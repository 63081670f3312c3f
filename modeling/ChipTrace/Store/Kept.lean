/-
What a capture store keeps on its disk: captures that are entered stay entered, and a
finished line of a segment stays where it is.  Each change of the disk that the writer
makes keeps what is there.
-/
import ChipTrace.Store.Rules

namespace ChipTrace.CaptureStore

section Lines

variable {before after content front tail : Bytes}

/-- Every finished line of a file is at the same place in another. -/
def LinesKept (before after : Bytes) : Prop :=
  ∀ front, front ++ [10] <+: before → front ++ [10] <+: after

theorem LinesKept.of_prefix (h : before <+: after) : LinesKept before after :=
  fun _ hfront => hfront.trans h

theorem LinesKept.trans {last : Bytes} (h : LinesKept before after) (h' : LinesKept after last) :
    LinesKept before last := fun front hfront => h' front (h front hfront)

/-- Cutting off what follows the last newline keeps the finished lines. -/
theorem linesKept_cut (htail : 10 ∉ tail) : LinesKept (front ++ tail) front := by
  intro line hline
  apply Or.elim (List.prefix_or_prefix_of_prefix hline (List.prefix_append front tail)) id
  rintro ⟨more, heq⟩
  rw [← heq, List.prefix_append_right_inj] at hline
  cases List.eq_nil_or_concat more with
  | inl hnil =>
      rw [← heq, hnil, List.append_nil]
  | inr hlast =>
      obtain ⟨start, last, rfl⟩ := hlast
      rw [List.concat_eq_append, ← List.append_assoc] at heq
      have hten : last = 10 := List.singleton_inj.mp (List.append_inj_right' heq rfl)
      apply absurd (hline.subset _) htail
      rw [hten]
      simp

theorem splitLines_spec (content : Bytes) :
    content = ((splitLines content).1.map fun line => line ++ [10]).flatten ++
      (splitLines content).2 ∧ 10 ∉ (splitLines content).2 ∧
      ∀ line ∈ (splitLines content).1, 10 ∉ line := by
  induction content with
  | nil => simp [splitLines]
  | cons byte rest ih =>
      obtain ⟨hrest, htail, hlines⟩ := ih
      rw [splitLines]
      dsimp only
      split_ifs with hbyte
      · refine ⟨?_, htail, ?_⟩
        · rw [List.map_cons, List.flatten_cons, List.append_assoc, ← hrest, hbyte]
          rfl
        · intro line hline
          rcases List.mem_cons.mp hline with rfl | hmem
          · exact List.not_mem_nil
          · exact hlines line hmem
      · cases hsplit : (splitLines rest).1 with
        | nil =>
            rw [hsplit] at hrest
            refine ⟨?_, ?_, fun _ h => (List.not_mem_nil h).elim⟩
            · rw [List.map_nil, List.flatten_nil, List.nil_append] at hrest ⊢
              rw [← hrest]
            · intro hmem
              rcases List.mem_cons.mp hmem with hten | hmem
              · exact hbyte hten.symm
              · exact htail hmem
        | cons line more =>
            rw [hsplit] at hrest hlines
            refine ⟨?_, htail, ?_⟩
            · rw [List.map_cons, List.flatten_cons] at hrest ⊢
              nth_rewrite 1 [hrest]
              rfl
            · intro other hother
              rcases List.mem_cons.mp hother with rfl | hmem
              · intro hten
                rcases List.mem_cons.mp hten with hten | hten
                · exact hbyte hten.symm
                · exact hlines line List.mem_cons_self hten
              · exact hlines other (List.mem_cons_of_mem _ hmem)

end Lines

section Files

variable {disk : Disk} {id other : Nat}

theorem openFile_inj (h : openFile id = openFile other) : id = other := by
  injection h

theorem sealedFile_inj (h : sealedFile id = sealedFile other) : id = other := by
  injection h

theorem openFile_ne_sealedFile (id other : Nat) : openFile id ≠ sealedFile other := by
  intro h
  have hflag : (ofLex (openFile id)).2 = (ofLex (sealedFile other)).2 := by rw [h]
  cases hflag

theorem file_cases (file : SegmentFile) :
    file = openFile (ofLex file).1 ∨ file = sealedFile (ofLex file).1 := by
  obtain ⟨id, isSealed⟩ := file
  cases isSealed with
  | false => exact Or.inl rfl
  | true => exact Or.inr rfl

/-- What the file of a segment holds, under its open or its sealed name. -/
def Disk.segmentBytes (disk : Disk) (id : Nat) : Option Bytes :=
  (disk.files.get? (openFile id)).or (disk.files.get? (sealedFile id))

/-- A sealed segment's row describes its file. -/
structure SealedAs (sha256 : Bytes → String) (disk : Disk) (id : Nat)
    (metadata : SegmentMetadata) : Prop where
  path : metadata.path = sealedFile id
  file : ∃ content, disk.files.get? (sealedFile id) = some content ∧
    metadata.bytes = content.length ∧ metadata.sha256 = some (sha256 content)

/-- The captures and the finished lines of the segments are still there.  Unless a flush has
failed the sealed segments are as they were. -/
structure Retains (calm : Prop) (before after : Disk) : Prop where
  captures : ∀ id row, before.captures.get? id = some row → after.captures.get? id = some row
  lines : ∀ id content, before.segmentBytes id = some content →
    ∃ later, after.segmentBytes id = some later ∧ LinesKept content later
  segments : ∀ id, (before.segments.get? id).isSome → (after.segments.get? id).isSome
  seals : calm → ∀ id metadata, before.segments.get? id = some metadata →
    metadata.state = .sealed → after.segments.get? id = some metadata ∧
      after.files.get? (sealedFile id) = before.files.get? (sealedFile id)

variable {calm : Prop}

theorem Retains.refl (disk : Disk) : Retains calm disk disk :=
  ⟨fun _ _ h => h, fun _ content h => ⟨content, h, LinesKept.of_prefix (List.prefix_refl _)⟩,
    fun _ h => h, fun _ _ _ h _ => ⟨h, rfl⟩⟩

theorem Retains.trans {first second third : Disk} (h : Retains calm first second)
    (h' : Retains calm second third) : Retains calm first third := by
  constructor
  · exact fun id row hrow => h'.captures id row (h.captures id row hrow)
  · intro id content hcontent
    obtain ⟨later, hlater, hkept⟩ := h.lines id content hcontent
    obtain ⟨last, hlast, hkept'⟩ := h'.lines id later hlater
    exact ⟨last, hlast, hkept.trans hkept'⟩
  · exact fun id hid => h'.segments id (h.segments id hid)
  · intro hcalm id metadata hrow hsealed
    obtain ⟨hrow', hfile⟩ := h.seals hcalm id metadata hrow hsealed
    obtain ⟨hrow'', hfile'⟩ := h'.seals hcalm id metadata hrow' hsealed
    exact ⟨hrow'', hfile'.trans hfile⟩

/-- The line of a capture stands in its segment where its row says. -/
structure Placed (disk : Disk) (row : CaptureLocator) (line : Bytes) : Prop where
  segment : (disk.segments.get? row.segmentId).isSome
  length : row.length = line.length + 1
  plain : 10 ∉ line
  content : ∃ content front, disk.segmentBytes row.segmentId = some content ∧
    front.length = row.offset ∧ front ++ line ++ [10] <+: content

theorem Placed.mono {before after : Disk} {row : CaptureLocator} {line : Bytes}
    (h : Placed before row line) (hretains : Retains calm before after) :
    Placed after row line := by
  obtain ⟨content, front, hcontent, hfront, hprefix⟩ := h.content
  obtain ⟨later, hlater, hkept⟩ := hretains.lines _ content hcontent
  exact ⟨hretains.segments _ h.segment, h.length, h.plain, later, front, hlater, hfront,
    hkept _ hprefix⟩

/-- No segment has a file under both names. -/
def Single (files : Table SegmentFile Bytes) : Prop :=
  ∀ id, (files.get? (openFile id)).isSome → files.get? (sealedFile id) = none

theorem segmentBytes_of_file (hsingle : Single disk.files) {file : SegmentFile} {content : Bytes}
    (hfile : disk.files.get? file = some content) :
    disk.segmentBytes (ofLex file).1 = some content := by
  rw [Disk.segmentBytes]
  apply Or.elim (file_cases file)
  · intro hopen
    rw [← hopen, hfile]
    rfl
  · intro hsealed
    cases hother : disk.files.get? (openFile (ofLex file).1) with
    | none => rw [← hsealed, hfile, Option.none_or]
    | some other =>
        have hnone := hsingle (ofLex file).1 (by rw [hother]; rfl)
        rw [← hsealed, hfile] at hnone
        cases hnone

theorem file_of_segmentBytes {content : Bytes} (h : disk.segmentBytes id = some content) :
    disk.files.get? (openFile id) = some content ∨
      disk.files.get? (sealedFile id) = some content := by
  rw [Disk.segmentBytes, Option.or_eq_some_iff] at h
  exact h.imp (fun hopen => hopen) And.right

end Files

section Changes

variable {disk : Disk} {file : SegmentFile} {content bytes : Bytes}

theorem single_replace (hsingle : Single disk.files) (hfile : disk.files.get? file = some content) :
    Single (disk.files.insert file bytes) := by
  intro id hopen
  have hne : file ≠ sealedFile id ∨ file ≠ openFile id := by
    by_cases heq : file = sealedFile id
    · right
      rw [heq]
      exact (openFile_ne_sealedFile id id).symm
    · exact Or.inl heq
  have hbefore : (disk.files.get? (openFile id)).isSome := by
    rw [Table.get?_insert] at hopen
    split_ifs at hopen with hsame
    · rw [hsame, hfile]
      rfl
    · exact hopen
  have hnone := hsingle id hbefore
  rw [Table.get?_insert]
  split_ifs with hsame
  · rw [hsame, hfile] at hnone
    cases hnone
  · exact hnone

/-- A file whose finished lines stay keeps everything in place. -/
theorem retains_replace {calm : Prop} (hsingle : Single disk.files)
    (hfile : disk.files.get? file = some content) (hkept : LinesKept content bytes)
    (hopen : calm → file = openFile (ofLex file).1) :
    Retains calm disk { disk with files := disk.files.insert file bytes } := by
  refine ⟨fun _ _ h => h, ?_, fun _ h => h, ?_⟩
  · intro id before hbefore
    by_cases hid : id = (ofLex file).1
    · refine ⟨bytes, ?_, ?_⟩
      · rw [hid]
        exact @segmentBytes_of_file { disk with files := disk.files.insert file bytes }
          (single_replace hsingle hfile) _ _ (Table.get?_insert_self _ _ _)
      · rw [hid, segmentBytes_of_file hsingle hfile, Option.some.injEq] at hbefore
        rw [← hbefore]
        exact hkept
    · refine ⟨before, ?_, LinesKept.of_prefix (List.prefix_refl _)⟩
      have hne : openFile id ≠ file := fun heq => hid (by rw [← heq]; rfl)
      have hne' : sealedFile id ≠ file := fun heq => hid (by rw [← heq]; rfl)
      rw [Disk.segmentBytes, Table.get?_insert_of_ne _ hne, Table.get?_insert_of_ne _ hne']
      exact hbefore
  · intro hcalm id metadata hrow _
    refine ⟨hrow, Table.get?_insert_of_ne _ ?_ _⟩
    rw [hopen hcalm]
    exact (openFile_ne_sealedFile _ _).symm

/-- So does a renaming to the sealed name of the segment. -/
theorem segmentBytes_renamed (id other : Nat)
    (hfile : disk.files.get? (openFile id) = some content) :
    Disk.segmentBytes { disk with
      files := (disk.files.insert (sealedFile id) content).remove (openFile id) } other =
      disk.segmentBytes other := by
  rw [Disk.segmentBytes, Disk.segmentBytes]
  dsimp only
  by_cases hid : other = id
  · rw [hid, Table.get?_remove_self, Option.none_or, hfile, Option.some_or,
      Table.get?_remove_of_ne _ (openFile_ne_sealedFile id id).symm, Table.get?_insert_self]
  · have hopen : openFile other ≠ openFile id := fun heq => hid (openFile_inj heq)
    have hsealed : sealedFile other ≠ sealedFile id := fun heq => hid (sealedFile_inj heq)
    rw [Table.get?_remove_of_ne _ hopen, Table.get?_remove_of_ne _
      (openFile_ne_sealedFile id other).symm, Table.get?_insert_of_ne _ hsealed,
      Table.get?_insert_of_ne _ (openFile_ne_sealedFile other id)]

theorem single_renamed (hsingle : Single disk.files) (id : Nat) :
    Single ((disk.files.insert (sealedFile id) content).remove (openFile id)) := by
  intro other hopen
  have hne : other ≠ id := by
    rintro rfl
    rw [Table.get?_remove_self] at hopen
    cases hopen
  rw [Table.get?_remove_of_ne _ fun heq => hne (openFile_inj heq),
    Table.get?_insert_of_ne _ (openFile_ne_sealedFile other id)] at hopen
  rw [Table.get?_remove_of_ne _ (openFile_ne_sealedFile id other).symm,
    Table.get?_insert_of_ne _ fun heq => hne (sealedFile_inj heq)]
  exact hsingle other hopen

/-- A new file changes nothing about the others. -/
theorem segmentBytes_created (id other : Nat) (hne : other ≠ id) (bytes : Bytes) :
    Disk.segmentBytes { disk with files := disk.files.insert (openFile id) bytes } other =
      disk.segmentBytes other := by
  rw [Disk.segmentBytes, Table.get?_insert_of_ne _ fun heq => hne (openFile_inj heq),
    Table.get?_insert_of_ne _ (openFile_ne_sealedFile id other).symm]
  rfl

end Changes

section Safe

/-- Every capture stands where its row says, and the files fit the segments. -/
structure Safe (sha256 : Bytes → String) (calm : Prop) (disk : Disk) : Prop where
  placed : ∀ id row, disk.captures.get? id = some row →
    row.captureId = id ∧ ∃ line, Placed disk row line ∧ sha256 line = row.rawSha256
  single : Single disk.files
  known : ∀ id, (disk.files.get? (sealedFile id)).isSome → (disk.segments.get? id).isSome
  held : ∀ id, (disk.segments.get? id).isSome → (disk.segmentBytes id).isSome
  ids : ∀ id row, disk.segments.get? id = some row → row.segmentId = id
  openRows : ∀ id row, disk.segments.get? id = some row → row.state = .open →
    row.path = openFile id
  plain : ∀ file content, disk.files.get? file = some content →
    ∀ byte ∈ content, byte = 10 ∨ 32 ≤ byte
  seals : calm → ∀ id metadata, disk.segments.get? id = some metadata →
    metadata.state = .sealed → SealedAs sha256 disk id metadata

/-- A disk that is safe and has kept what was on an earlier one. -/
structure Secured (sha256 : Bytes → String) (calm : Prop) (before disk : Disk) : Prop
    extends Safe sha256 calm disk where
  retains : Retains calm before disk

variable {sha256 : Bytes → String} {calm : Prop} {before disk : Disk} {file : SegmentFile}
  {content bytes : Bytes}

theorem Secured.start (h : Safe sha256 calm disk) : Secured sha256 calm disk disk :=
  ⟨h, Retains.refl disk⟩

theorem Secured.since {mid : Disk} (h : Secured sha256 calm mid disk)
    (hretains : Retains calm before mid) : Secured sha256 calm before disk :=
  ⟨h.toSafe, hretains.trans h.retains⟩

/-- A change that retains everything and enters no capture keeps the captures in place. -/
theorem Safe.placed_of_retains {after : Disk} (h : Safe sha256 calm disk)
    (hretains : Retains calm disk after) (hcaptures : after.captures = disk.captures) (id : String)
    (row : CaptureLocator) (hrow : after.captures.get? id = some row) :
    row.captureId = id ∧ ∃ line, Placed after row line ∧ sha256 line = row.rawSha256 := by
  rw [hcaptures] at hrow
  obtain ⟨hid, line, hplaced, hsha⟩ := h.placed id row hrow
  exact ⟨hid, line, hplaced.mono hretains, hsha⟩

theorem isSome_segmentBytes_of_retains {after : Disk} (hretains : Retains calm disk after)
    {id : Nat} (h : (disk.segmentBytes id).isSome) : (after.segmentBytes id).isSome := by
  obtain ⟨content, hcontent⟩ := Option.isSome_iff_exists.mp h
  obtain ⟨later, hlater, _⟩ := hretains.lines id content hcontent
  exact Option.isSome_iff_exists.mpr ⟨later, hlater⟩

/-- The rows of the sealed segments still describe their files. -/
theorem SealedAs.of_same {after : Disk} {id : Nat} {metadata : SegmentMetadata}
    (h : SealedAs sha256 disk id metadata)
    (hsame : after.files.get? (sealedFile id) = disk.files.get? (sealedFile id)) :
    SealedAs sha256 after id metadata := by
  refine ⟨h.path, ?_⟩
  rw [hsame]
  exact h.file

/-- A file is given other content that keeps its finished lines. -/
theorem Secured.replace (h : Secured sha256 calm before disk)
    (hfile : disk.files.get? file = some content) (hkept : LinesKept content bytes)
    (hplain : ∀ byte ∈ bytes, byte = 10 ∨ 32 ≤ byte)
    (hopen : calm → file = openFile (ofLex file).1) :
    Secured sha256 calm before { disk with files := disk.files.insert file bytes } := by
  have hretains := retains_replace h.single hfile hkept hopen
  refine ⟨⟨h.placed_of_retains hretains rfl, single_replace h.single hfile, ?_, ?_, h.ids,
    h.openRows, ?_, ?_⟩, h.retains.trans hretains⟩
  · intro id hid
    apply h.known id
    rw [Table.get?_insert] at hid
    split_ifs at hid with hsame
    · rw [hsame, hfile]
      rfl
    · exact hid
  · exact fun id hid => isSome_segmentBytes_of_retains hretains (h.held id hid)
  · intro other found hfound
    rw [Table.get?_insert] at hfound
    split_ifs at hfound
    · rw [← Option.some.inj hfound]
      exact hplain
    · exact h.plain other found hfound
  · intro hcalm id metadata hrow hsealed
    exact (h.seals hcalm id metadata hrow hsealed).of_same
      (hretains.seals hcalm id metadata hrow hsealed).2

/-- The open file of a segment that has a row, and no sealed one, gets its sealed name. -/
theorem Secured.renamed (h : Secured sha256 calm before disk) {id : Nat}
    (hfile : disk.files.get? (openFile id) = some content)
    (hrow : (disk.segments.get? id).isSome) :
    Secured sha256 calm before { disk with
      files := (disk.files.insert (sealedFile id) content).remove (openFile id) } := by
  have hkeeps : ∀ other, other ≠ id →
      ((disk.files.insert (sealedFile id) content).remove (openFile id)).get? (sealedFile other) =
        disk.files.get? (sealedFile other) := by
    intro other hne
    rw [Table.get?_remove_of_ne _ (openFile_ne_sealedFile _ _).symm,
      Table.get?_insert_of_ne _ fun heq => hne (sealedFile_inj heq)]
  have hopen : calm → ∀ other metadata, disk.segments.get? other = some metadata →
      metadata.state = .sealed → other ≠ id := by
    intro hcalm other metadata hother hsealed heq
    obtain ⟨held, hheld, _⟩ := (h.seals hcalm other metadata hother hsealed).file
    rw [heq, h.single id (by rw [hfile]; rfl)] at hheld
    cases hheld
  have hretains : Retains calm disk { disk with
      files := (disk.files.insert (sealedFile id) content).remove (openFile id) } := by
    refine ⟨fun _ _ hcapture => hcapture, ?_, fun _ h => h, ?_⟩
    · intro other found hfound
      refine ⟨found, ?_, LinesKept.of_prefix (List.prefix_refl _)⟩
      rw [segmentBytes_renamed _ other hfile]
      exact hfound
    · intro hcalm other metadata hother hsealed
      exact ⟨hother, hkeeps other (hopen hcalm other metadata hother hsealed)⟩
  refine ⟨⟨h.placed_of_retains hretains rfl, single_renamed h.single _, ?_, ?_, h.ids,
    h.openRows, ?_, ?_⟩, h.retains.trans hretains⟩
  · intro other hother
    by_cases heq : other = id
    · rw [heq]
      exact hrow
    · rw [hkeeps other heq] at hother
      exact h.known other hother
  · exact fun other hother => isSome_segmentBytes_of_retains hretains (h.held other hother)
  · intro file found hfound
    dsimp only at hfound
    rw [Table.get?_remove] at hfound
    split_ifs at hfound with hremoved
    rw [Table.get?_insert] at hfound
    split_ifs at hfound with heq
    · rw [← Option.some.inj hfound]
      exact h.plain _ _ hfile
    · exact h.plain file found hfound
  · intro hcalm other metadata hother hsealed
    exact (h.seals hcalm other metadata hother hsealed).of_same
      (hkeeps other (hopen hcalm other metadata hother hsealed))

/-- A new segment gets its file. -/
theorem Secured.create (h : Secured sha256 calm before disk) {id : Nat}
    (hrow : disk.segments.get? id = none) (hfile : disk.files.get? (openFile id) = none) :
    Secured sha256 calm before { disk with files := disk.files.insert (openFile id) [] } := by
  have hunknown : disk.files.get? (sealedFile id) = none := by
    by_contra hsome
    have hknown := h.known id (Option.isSome_iff_ne_none.mpr hsome)
    rw [hrow] at hknown
    cases hknown
  have hnone : disk.segmentBytes id = none := by
    rw [Disk.segmentBytes, hfile, hunknown, Option.none_or]
  have hsealed : ∀ other, (disk.files.insert (openFile id) []).get? (sealedFile other) =
      disk.files.get? (sealedFile other) := fun other =>
    Table.get?_insert_of_ne _ (openFile_ne_sealedFile id other).symm _
  have hretains : Retains calm disk { disk with files := disk.files.insert (openFile id) [] } := by
    refine ⟨fun _ _ hcapture => hcapture, ?_, fun _ h => h, fun _ other _ hother _ =>
      ⟨hother, hsealed other⟩⟩
    intro other found hfound
    refine ⟨found, ?_, LinesKept.of_prefix (List.prefix_refl _)⟩
    rw [segmentBytes_created id other _ []]
    · exact hfound
    · rintro rfl
      rw [hnone] at hfound
      cases hfound
  refine ⟨⟨h.placed_of_retains hretains rfl, ?_, ?_, ?_, h.ids, h.openRows, ?_, ?_⟩,
    h.retains.trans hretains⟩
  · intro other hother
    rw [hsealed other]
    by_cases heq : other = id
    · rw [heq]
      exact hunknown
    · rw [Table.get?_insert_of_ne _ fun hsame => heq (openFile_inj hsame)] at hother
      exact h.single other hother
  · intro other hother
    rw [hsealed other] at hother
    exact h.known other hother
  · exact fun other hother => isSome_segmentBytes_of_retains hretains (h.held other hother)
  · intro file found hfound
    dsimp only at hfound
    rw [Table.get?_insert] at hfound
    split_ifs at hfound
    · rw [← Option.some.inj hfound]
      exact fun _ hmem => (List.not_mem_nil hmem).elim
    · exact h.plain file found hfound
  · intro hcalm other metadata hother hstate
    exact (h.seals hcalm other metadata hother hstate).of_same (hsealed other)

/-- The row of a segment that has a file is entered. -/
theorem Secured.enterSegment (h : Secured sha256 calm before disk) (metadata : SegmentMetadata)
    (hheld : (disk.segmentBytes metadata.segmentId).isSome)
    (hopen : metadata.state = .open → metadata.path = openFile metadata.segmentId)
    (hsealed : calm → metadata.state = .sealed →
      SealedAs sha256 disk metadata.segmentId metadata)
    (hnew : calm → ∀ old, disk.segments.get? metadata.segmentId = some old →
      old.state ≠ .sealed)
    (counters : Option LedgerCounters) :
    Secured sha256 calm before { disk with
      segments := disk.segments.insert metadata.segmentId metadata, counters } := by
  have hretains : Retains calm disk { disk with
      segments := disk.segments.insert metadata.segmentId metadata, counters } := by
    refine ⟨fun _ _ hrow => hrow, (@Retains.refl calm disk).lines,
      fun _ => isSome_get?_insert, ?_⟩
    intro hcalm other old hold hstate
    refine ⟨?_, rfl⟩
    rw [Table.get?_insert_of_ne _ _, hold]
    rintro rfl
    exact hnew hcalm old hold hstate
  refine ⟨⟨h.placed_of_retains hretains rfl, h.single, ?_, ?_, ?_, ?_, h.plain, ?_⟩,
    h.retains.trans hretains⟩
  · exact fun other hother => isSome_get?_insert (h.known other hother)
  · intro other hother
    dsimp only at hother
    rw [Table.get?_insert] at hother
    split_ifs at hother with hsame
    · rw [hsame]
      exact hheld
    · exact h.held other hother
  · intro other row hrow
    dsimp only at hrow
    rw [Table.get?_insert] at hrow
    split_ifs at hrow with hsame
    · cases hrow
      exact hsame.symm
    · exact h.ids other row hrow
  · intro other row hrow hstate
    dsimp only at hrow
    rw [Table.get?_insert] at hrow
    split_ifs at hrow with hsame
    · cases hrow
      rw [hsame]
      exact hopen hstate
    · exact h.openRows other row hrow hstate
  · intro hcalm other row hrow hstate
    dsimp only at hrow
    rw [Table.get?_insert] at hrow
    split_ifs at hrow with hsame
    · cases hrow
      rw [hsame]
      exact (hsealed hcalm hstate).of_same rfl
    · exact (h.seals hcalm other row hrow hstate).of_same rfl

/-- Captures that the ledger does not have, and that are in place, are entered. -/
theorem Secured.enterCaptures (h : Secured sha256 calm before disk)
    {captures : Table String CaptureLocator}
    (hkept : ∀ id row, disk.captures.get? id = some row → captures.get? id = some row)
    (hplaced : ∀ id row, captures.get? id = some row → disk.captures.get? id = some row ∨
      row.captureId = id ∧ ∃ line, Placed disk row line ∧ sha256 line = row.rawSha256) :
    Secured sha256 calm before { disk with captures } := by
  have hretains : Retains calm disk { disk with captures } :=
    ⟨hkept, (@Retains.refl calm disk).lines, fun _ h => h, fun _ _ _ hrow _ => ⟨hrow, rfl⟩⟩
  refine ⟨⟨?_, h.single, h.known, h.held, h.ids, h.openRows, h.plain,
    fun hcalm id row hrow hstate => (h.seals hcalm id row hrow hstate).of_same rfl⟩,
    h.retains.trans hretains⟩
  intro id row hrow
  apply Or.elim (hplaced id row hrow)
  · intro hold
    obtain ⟨hid, line, hline, hsha⟩ := h.placed id row hold
    exact ⟨hid, line, hline.mono hretains, hsha⟩
  · rintro ⟨hid, line, hline, hsha⟩
    exact ⟨hid, line, hline.mono hretains, hsha⟩

/-- Attempts, counters and the schema version do not matter. -/
theorem Secured.of_same (h : Secured sha256 calm before disk) (attempts : Table Nat Attempt)
    (counters : Option LedgerCounters) (schemaVersion : Option String) :
    Secured sha256 calm before { disk with attempts, counters, schemaVersion } := by
  have hretains : Retains calm disk { disk with attempts, counters, schemaVersion } :=
    ⟨fun _ _ hrow => hrow, (@Retains.refl calm disk).lines, fun _ h => h,
      fun _ _ _ hrow _ => ⟨hrow, rfl⟩⟩
  exact ⟨⟨h.placed_of_retains hretains rfl, h.single, h.known, h.held, h.ids, h.openRows, h.plain,
    fun hcalm id row hrow hstate => (h.seals hcalm id row hrow hstate).of_same rfl⟩,
    h.retains.trans hretains⟩

end Safe

end ChipTrace.CaptureStore
