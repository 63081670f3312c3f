/-
Opening a capture store keeps what is on its disk: recovery enters captures where their lines
stand, cuts off only what no newline ends, and hands the writer a segment that fits its file.
-/
import ChipTrace.Store.Serving

namespace ChipTrace.CaptureStore

section Lines

variable {sha256 : Bytes → String}

theorem validateStoredCapture_digest {raw : Bytes} {record : CaptureRecord}
    (h : validateStoredCapture sha256 raw = .ok record) : record.sha256 = sha256 raw := by
  rw [validateStoredCapture, Except.bind_eq_ok_iff] at h
  obtain ⟨_, _, h⟩ := h
  rw [Except.bind_eq_ok_iff] at h
  obtain ⟨_, _, h⟩ := h
  rw [Except.bind_eq_ok_iff] at h
  obtain ⟨_, _, h⟩ := h
  rw [← Except.ok.inj h]

theorem dropReturn_eq {line : Bytes} (h : 13 ∉ line) : dropReturn line = line := by
  rw [dropReturn, if_neg]
  intro hlast
  exact h (List.mem_of_getLast? hlast)

/-- Each row that lines imply says where one of them stands. -/
theorem mem_readRows {segmentId offset : Nat} {lines : List Bytes} {rows : List CaptureLocator}
    (h : readRows sha256 segmentId offset lines = .ok rows) (hplain : ∀ line ∈ lines, 13 ∉ line)
    {row : CaptureLocator} (hrow : row ∈ rows) :
    ∃ front line back, lines = front ++ line :: back ∧ row.segmentId = segmentId ∧
      row.offset = offset + (front.map fun line => line ++ [10]).flatten.length ∧
      row.length = line.length + 1 ∧ row.rawSha256 = sha256 line := by
  induction lines generalizing offset rows with
  | nil =>
      cases h
      cases hrow
  | cons line rest ih =>
      rw [readRows, dropReturn_eq (hplain line List.mem_cons_self)] at h
      cases hvalid : validateStoredCapture sha256 line with
      | error fault =>
          rw [hvalid] at h
          cases h
      | ok record =>
          rw [hvalid] at h
          dsimp only at h
          rw [Except.bind_eq_ok_iff] at h
          obtain ⟨others, hothers, h⟩ := h
          obtain rfl := Except.ok.inj h
          apply Or.elim (List.mem_cons.mp hrow)
          · rintro rfl
            exact ⟨[], line, rest, rfl, rfl, rfl, rfl, validateStoredCapture_digest hvalid⟩
          · intro hmem
            obtain ⟨front, other, back, hsplit, hid, hoffset, hlength, hsha⟩ :=
              ih hothers (fun other hother => hplain other (List.mem_cons_of_mem _ hother)) hmem
            refine ⟨line :: front, other, back, ?_, hid, ?_, hlength, hsha⟩
            · rw [hsplit, List.cons_append]
            · rw [hoffset, List.map_cons, List.flatten_cons, List.length_append,
                List.length_append]
              exact Nat.add_assoc _ _ _

/-- So a capture that is read from a segment's file stands where its row says. -/
theorem placed_of_readRows {disk : Disk} {segmentId : Nat} {lines : List Bytes}
    {rows : List CaptureLocator} (h : readRows sha256 segmentId 0 lines = .ok rows)
    (hplain : ∀ line ∈ lines, 10 ∉ line ∧ 13 ∉ line)
    (hsegment : (disk.segments.get? segmentId).isSome)
    (hcontent : disk.segmentBytes segmentId = some (lines.map fun line => line ++ [10]).flatten)
    {row : CaptureLocator} (hrow : row ∈ rows) :
    ∃ line, Placed disk row line ∧ sha256 line = row.rawSha256 := by
  obtain ⟨front, line, back, rfl, rfl, hoffset, hlength, hsha⟩ :=
    mem_readRows h (fun line hline => (hplain line hline).2) hrow
  refine ⟨line, ⟨hsegment, hlength, (hplain line (by simp)).1, _,
    (front.map fun line => line ++ [10]).flatten, hcontent, ?_, ?_⟩, hsha.symm⟩
  · rw [hoffset, Nat.zero_add]
  · rw [List.map_append, List.map_cons, List.flatten_append, List.flatten_cons, List.append_assoc]
    exact (List.prefix_append_right_inj _).mpr (List.prefix_append _ _)

theorem sum_lengths (lines : List Bytes) :
    (lines.map fun line => line.length + 1).sum =
      (lines.map fun line => line ++ [10]).flatten.length := by
  rw [List.length_flatten, List.map_map]
  congr 1
  apply List.map_congr_left
  intro line _
  rw [Function.comp_apply, List.length_append]
  rfl

end Lines

section Recovery

variable {sha256 : Bytes → String} {config : StoreConfig} {calm : Prop} {before disk : Disk}
  {world : World}

/-- Rows are entered where the ledger has no row of their capture. -/
structure EntersRows (rows : List CaptureLocator) (before after : Disk) : Prop where
  rest : ∃ captures attempts, after = { before with captures, attempts }
  kept : ∀ id row, before.captures.get? id = some row → after.captures.get? id = some row
  entered : ∀ id row, after.captures.get? id = some row →
    before.captures.get? id = some row ∨ row.captureId = id ∧ row ∈ rows

theorem keeps_recoverRows (recovered : Recovered) (rows : List CaptureLocator) :
    Eff.Wp (recoverRows recovered rows)
      (fun entered next => next.disk = world.disk ∧ EntersRows rows recovered.disk entered.disk)
      (fun _ next => next.disk = world.disk) world := by
  induction rows generalizing recovered world with
  | nil =>
      exact ⟨rfl, ⟨_, _, rfl⟩, fun _ _ h => h, fun _ _ h => Or.inl h⟩
  | cons locator rest ih =>
      rw [recoverRows, Eff.wp_bind, recoverRow]
      cases hledger : recovered.disk.captures.get? locator.captureId with
      | some existing =>
          dsimp only
          rw [Eff.wp_ite]
          refine ⟨fun _ => rfl, fun _ => ?_⟩
          apply (ih recovered).mono _ fun _ _ h => h
          rintro entered next ⟨hsame, hrest, hkept, hentered⟩
          refine ⟨hsame, hrest, hkept, fun id row hrow => ?_⟩
          exact (hentered id row hrow).imp_right fun h => ⟨h.1, List.mem_cons_of_mem _ h.2⟩
      | none =>
          dsimp only
          rw [Eff.wp_bind]
          apply wp_utcNow
          intro committedAt environment _
          rw [Eff.wp_pure]
          apply (ih _).mono _ fun _ _ h => h
          rintro entered next ⟨hsame, ⟨captures, attempts, hrest⟩, hkept, hentered⟩
          refine ⟨hsame, ⟨captures, attempts, hrest⟩, ?_, ?_⟩
          · intro id row hrow
            apply hkept
            dsimp only
            rw [Table.get?_insert_of_ne _ _, hrow]
            rintro rfl
            rw [hledger] at hrow
            cases hrow
          · intro id row hrow
            apply Or.elim (hentered id row hrow)
            · intro hold
              dsimp only at hold
              rw [Table.get?_insert] at hold
              split_ifs at hold with hid
              · cases hold
                exact Or.inr ⟨hid.symm, List.mem_cons_self⟩
              · exact Or.inl hold
            · exact fun h => Or.inr ⟨h.1, List.mem_cons_of_mem _ h.2⟩

/-- Recovery has these files still before it: they are there, and an open segment beyond them
is as long as its row says. -/
structure Recovering (remaining : List SegmentFile) (disk : Disk) : Prop where
  files : ∀ file ∈ remaining, (disk.files.get? file).isSome
  measured : ∀ id row content, disk.segments.get? id = some row → row.state = .open →
    openFile id ∉ remaining → disk.files.get? (openFile id) = some content →
    content.length = row.bytes

/-- What cutting off a tail leaves. -/
structure CutTo (file : SegmentFile) (content : Bytes) (before after : Disk) : Prop where
  rest : ∃ files, after = { before with files }
  own : after.files.get? file = some content
  others : ∀ other, other ≠ file → after.files.get? other = before.files.get? other

theorem keeps_cutTail (h : Secured sha256 calm before world.disk) {file : SegmentFile}
    {content front tail : Bytes} (hfile : world.disk.files.get? file = some content)
    (hcontent : content = front ++ tail) (htail : 10 ∉ tail) :
    Eff.Wp (cutTail file content tail)
      (fun _ next => Secured sha256 calm before next.disk ∧ CutTo file front world.disk next.disk ∧
        ((ofLex file).2 = true → content = front))
      (fun _ next => Secured sha256 calm before next.disk) world := by
  rw [cutTail, Eff.wp_ite]
  constructor
  · intro hempty
    rw [List.isEmpty_iff.mp hempty, List.append_nil] at hcontent
    rw [hcontent] at hfile
    exact ⟨h, ⟨⟨_, rfl⟩, hfile, fun _ _ => rfl⟩, fun _ => hcontent⟩
  · intro _
    rw [Eff.wp_ite]
    refine ⟨fun _ => h, fun hopen => ?_⟩
    have htake : content.take (content.length - tail.length) = front := by
      rw [hcontent, List.length_append, Nat.add_sub_cancel, List.take_left]
    have hname : file = openFile (ofLex file).1 := by
      apply (file_cases file).resolve_right
      intro hsealed
      apply hopen
      rw [hsealed]
      rfl
    apply wp_effect
    · exact fun _ _ _ _ => h
    intro environment _
    rw [htake]
    refine ⟨h.replace hfile ?_ ?_ fun _ => hname, ⟨⟨_, rfl⟩, Table.get?_insert_self _ _ _,
      fun other hother => Table.get?_insert_of_ne _ hother _⟩, fun hsealed => absurd hsealed hopen⟩
    · rw [hcontent]
      exact linesKept_cut htail
    · intro byte hbyte
      apply h.plain file content hfile
      rw [hcontent]
      exact List.mem_append_left _ hbyte

/-- A sealed row that describes its file needs no recovery. -/
theorem isSettled_of_sealedAs {disk : Disk} (hsingle : Single disk.files) {file : SegmentFile}
    {content : Bytes} (hfile : disk.files.get? file = some content) {metadata : SegmentMetadata}
    (hstate : metadata.state = .sealed)
    (h : SealedAs sha256 disk (ofLex file).1 metadata) :
    isSettled file content.length (some metadata) = true := by
  obtain ⟨found, hfound, hbytes, hsha⟩ := h.file
  have hname : file = sealedFile (ofLex file).1 := by
    apply (file_cases file).resolve_left
    intro hopen
    have hnone := hsingle (ofLex file).1 (by rw [← hopen, hfile]; rfl)
    rw [hfound] at hnone
    cases hnone
  rw [← hname, hfile] at hfound
  cases hfound
  have hsealed : (ofLex file).2 = true := by
    rw [hname]
    rfl
  rw [isSettled, hsealed, Option.any_some, hstate, h.path, ← hname, hbytes, hsha]
  simp

theorem recoveredMetadata_open {file : SegmentFile} {content : Bytes} {lines : List Bytes}
    {existing : Option SegmentMetadata} {createdAt sealedAt : String}
    (h : (recoveredMetadata sha256 file content lines existing createdAt sealedAt).state = .open) :
    file = openFile (ofLex file).1 := by
  apply (file_cases file).resolve_right
  intro hname
  rw [hname] at h
  cases h

theorem recoveredMetadata_sealed {file : SegmentFile} {content : Bytes} {lines : List Bytes}
    {existing : Option SegmentMetadata} {createdAt sealedAt : String}
    (h : (recoveredMetadata sha256 file content lines existing createdAt sealedAt).state =
      .sealed) : file = sealedFile (ofLex file).1 := by
  apply (file_cases file).resolve_left
  intro hname
  rw [hname] at h
  cases h

/-- The row of a segment that was read is entered with the captures that are new. -/
theorem keeps_enterSegment (h : Secured sha256 calm before disk) {file : SegmentFile}
    {content : Bytes} {lines : List Bytes} {rows : List CaptureLocator}
    {existing : Option SegmentMetadata} {createdAt sealedAt : String} {entered : Disk}
    (hrows : readRows sha256 (ofLex file).1 0 lines = .ok rows)
    (hplain : ∀ line ∈ lines, 10 ∉ line ∧ 13 ∉ line)
    (hfile : disk.files.get? file = some (lines.map fun line => line ++ [10]).flatten)
    (hwhole : (ofLex file).2 = true → content = (lines.map fun line => line ++ [10]).flatten)
    (hunsettled : ∀ old, disk.segments.get? (ofLex file).1 = some old → old.state = .sealed →
      calm → ¬ SealedAs sha256 disk (ofLex file).1 old)
    (hentered : EntersRows rows disk entered) :
    Secured sha256 calm before { entered with
      segments := entered.segments.insert (ofLex file).1
        (recoveredMetadata sha256 file content lines existing createdAt sealedAt) } := by
  obtain ⟨⟨captures, attempts, rfl⟩, hkept, hnew⟩ := hentered
  have hbytes := segmentBytes_of_file h.single hfile
  have hsegment := h.enterSegment
    (recoveredMetadata sha256 file content lines existing createdAt sealedAt) ?_
    recoveredMetadata_open ?_ ?_ disk.counters
  rotate_left
  · rw [recoveredMetadata, hbytes]
    rfl
  · intro _ hstate
    have hname := recoveredMetadata_sealed hstate
    have hcontent : content = (lines.map fun line => line ++ [10]).flatten := by
      apply hwhole
      rw [hname]
      rfl
    refine ⟨hname, _, ?_, sum_lengths lines, ?_⟩
    · rw [recoveredMetadata, ← hname]
      exact hfile
    · rw [recoveredMetadata, hname, hcontent]
      rfl
  · intro hcalm old hold hstate
    exact hunsettled old hold hstate hcalm (h.seals hcalm _ old hold hstate)
  refine (hsegment.enterCaptures hkept ?_).of_same attempts disk.counters disk.schemaVersion
  intro id row hrow
  apply (hnew id row hrow).imp_right
  rintro ⟨hid, hread⟩
  refine ⟨hid, placed_of_readRows hrows hplain ?_ ?_ hread⟩
  · rw [recoveredMetadata, Table.get?_insert_self]
    rfl
  · exact hbytes

/-- One segment file is brought into the ledger. -/
theorem keeps_recoverSegment (h : Secured sha256 calm before world.disk) (summary : Recovered)
    {file : SegmentFile} {rest : List SegmentFile}
    (hrecovering : Recovering (file :: rest) world.disk) :
    Eff.Wp (recoverSegment sha256 summary file)
      (fun _ next => Secured sha256 calm before next.disk ∧ Recovering rest next.disk)
      (fun _ next => Secured sha256 calm before next.disk) world := by
  obtain ⟨content, hfile⟩ :=
    Option.isSome_iff_exists.mp (hrecovering.files file List.mem_cons_self)
  rw [recoverSegment, Eff.wp_bind, Eff.wp_get]
  dsimp only
  rw [hfile, Option.getD_some, Eff.wp_ite]
  constructor
  · intro hsettled
    refine ⟨h, fun other hother => hrecovering.files other (List.mem_cons_of_mem _ hother),
      fun id row found hrow hopen hdone hfound => hrecovering.measured id row found hrow hopen ?_
        hfound⟩
    intro hmem
    apply hdone
    apply (List.mem_cons.mp hmem).resolve_left
    rintro rfl
    rw [isSettled] at hsettled
    cases hsettled
  · intro hunsettled
    obtain ⟨hsplit, htail, hlines⟩ := splitLines_spec content
    rw [Eff.wp_bind, Eff.wp_lift]
    refine ⟨fun rows hrows => ?_, fun _ _ => h⟩
    rw [Eff.wp_bind]
    apply (keeps_cutTail h hfile hsplit htail).mono _ fun _ _ h => h
    rintro _ next ⟨hsecured, ⟨⟨files, hrest⟩, hown, hothers⟩, hwhole⟩
    rw [Eff.wp_bind]
    apply wp_utcNow
    intro createdAt environment _
    rw [Eff.wp_bind]
    apply wp_utcNow
    intro sealedAt environment _
    rw [Eff.wp_bind, Eff.wp_get, Eff.wp_bind]
    apply (keeps_recoverRows _ rows).mono
    · rintro entered last ⟨hsame, hentered⟩
      have hsegments : next.disk.segments = world.disk.segments := by rw [hrest]
      rw [Eff.wp_bind]
      apply wp_effect
      · intro _ _ _ _
        rw [hsame]
        exact hsecured
      intro environment _
      obtain ⟨_, _, hdisk⟩ := hentered.rest
      have hfiles : entered.disk.files = next.disk.files := by rw [hdisk]
      have hrows' : entered.disk.segments = world.disk.segments := by rw [hdisk, hsegments]
      refine ⟨keeps_enterSegment hsecured hrows ?_ hown hwhole ?_ hentered, ?_, ?_⟩
      · intro line hline
        refine ⟨hlines line hline, fun hreturn => ?_⟩
        have hmem : 13 ∈ content := by
          rw [hsplit]
          apply List.mem_append_left
          exact List.mem_flatten.mpr ⟨_, List.mem_map_of_mem hline, List.mem_append_left _ hreturn⟩
        exact absurd (h.plain file content hfile 13 hmem) (by decide)
      · intro old hold hstate hcalm hsealed
        rw [hsegments] at hold
        apply hunsettled
        rw [hold]
        have hsame' := h.seals hcalm _ old hold hstate
        exact isSettled_of_sealedAs h.single hfile hstate hsame'
      · intro other hother
        dsimp only
        rw [hfiles]
        by_cases heq : other = file
        · rw [heq, hown]
          rfl
        · rw [hothers other heq]
          exact hrecovering.files other (List.mem_cons_of_mem _ hother)
      · intro id row found hrow hopen hdone hfound
        dsimp only at hrow hfound
        rw [hrows', Table.get?_insert] at hrow
        rw [hfiles] at hfound
        split_ifs at hrow with hid
        · cases hrow
          rw [hid, ← recoveredMetadata_open hopen, hown] at hfound
          rw [← Option.some.inj hfound]
          exact (sum_lengths _).symm
        · have hne : openFile id ≠ file := by
            rintro rfl
            exact hid rfl
          rw [hothers _ hne] at hfound
          apply hrecovering.measured id row found hrow hopen _ hfound
          intro hmem
          exact hdone ((List.mem_cons.mp hmem).resolve_left hne)
    · rintro _ last hsame
      rw [hsame]
      exact hsecured

theorem keeps_recoverFiles (summary : Recovered) (files : List SegmentFile)
    (h : Secured sha256 calm before world.disk) (hrecovering : Recovering files world.disk) :
    Eff.Wp (recoverFiles sha256 summary files)
      (fun _ next => Secured sha256 calm before next.disk ∧ Recovering [] next.disk)
      (fun _ next => Secured sha256 calm before next.disk) world := by
  induction files generalizing summary world with
  | nil => exact ⟨h, hrecovering⟩
  | cons file rest ih =>
      rw [recoverFiles, Eff.wp_bind]
      apply (keeps_recoverSegment h summary hrecovering).mono _ fun _ _ h => h
      rintro recovered next ⟨hnext, hrest⟩
      exact ih recovered hnext hrest

theorem keeps_recoverSegments (h : Secured sha256 calm before world.disk) :
    Eff.Wp (recoverSegments sha256)
      (fun _ next => Secured sha256 calm before next.disk ∧ Recovering [] next.disk)
      (fun _ next => Secured sha256 calm before next.disk) world := by
  rw [recoverSegments, Eff.wp_bind, Eff.wp_get]
  dsimp only
  rw [Eff.wp_bind]
  have hstart : Recovering world.disk.files.keys world.disk := by
    constructor
    · intro file hfile
      obtain ⟨content, hcontent⟩ := (Table.mem_keys _ _).mp hfile
      rw [hcontent]
      rfl
    · intro id row content _ _ hnone hcontent
      exact absurd ((Table.mem_keys _ _).mpr ⟨content, hcontent⟩) hnone
  apply (keeps_recoverFiles _ _ h hstart).mono _ fun _ _ h => h
  rintro summary next ⟨hnext, hdone⟩
  rw [Eff.wp_bind, rebuildIf, Eff.wp_ite]
  refine ⟨fun _ => ?_, fun _ => ⟨hnext, hdone⟩⟩
  apply wp_effect
  · exact fun _ _ _ _ => hnext
  · exact fun _ _ => ⟨hnext.of_same _ _ _, hdone.files, hdone.measured⟩

/-- The segment that is found or created is one that can be written. -/
theorem keeps_openActiveSegment (h : Secured sha256 calm before world.disk)
    (hdone : Recovering [] world.disk) :
    Eff.Wp (openActiveSegment config)
      (fun opened next => Secured sha256 calm before next.disk ∧ Writes calm next.disk opened.1)
      (fun _ next => Secured sha256 calm before next.disk) world := by
  rw [openActiveSegment, Eff.wp_bind, Eff.wp_get]
  dsimp only
  have hmem : ∀ id row, world.disk.segments.get? id = some row → row.state = .open →
      (id, row) ∈ world.disk.segments.entries.filter fun row => row.2.state = .open := by
    intro id row hrow hopen
    apply List.mem_filter.mpr
    exact ⟨(Table.mem_entries _ _ _).mpr hrow, decide_eq_true hopen⟩
  split
  · rename_i hnone
    rw [Eff.wp_bind]
    apply (keeps_createActiveSegment h _).mono
    · exact fun active next hnext => hnext
    · exact fun _ _ hnext => hnext.1
    · intro _ id row hrow
      cases hstate : row.state with
      | «sealed» => rfl
      | «open» =>
          have hfound := hmem id row hrow hstate
          rw [hnone] at hfound
          cases hfound
  · rename_i id metadata hone
    have hfirst : (id, metadata) ∈ world.disk.segments.entries.filter
        fun row => row.2.state = .open := by
      rw [hone]
      exact List.mem_singleton.mpr rfl
    obtain ⟨hentry, hopen⟩ := List.mem_filter.mp hfirst
    have hrow := (Table.mem_entries _ _ _).mp hentry
    have hstate : metadata.state = .open := of_decide_eq_true hopen
    have hid := h.ids id metadata hrow
    have hpath := h.openRows id metadata hrow hstate
    split
    · exact h
    · rename_i content hcontent
      rw [Eff.wp_pure]
      subst hid
      refine ⟨h, ?_, Or.inl hpath, Or.inl hpath, hcontent, ?_, fun _ => hpath, fun _ =>
        ⟨hpath, hpath, hstate, ?_⟩⟩
      · rw [hrow]
        rfl
      · rw [hpath] at hcontent
        exact hdone.measured _ _ _ hrow hstate List.not_mem_nil hcontent
      · intro other row hother
        constructor
        · intro hopen'
          have hfound := hmem other row hother hopen'
          rw [hone] at hfound
          exact (Prod.mk.inj (List.mem_singleton.mp hfound)).1
        · rintro rfl
          rw [hrow] at hother
          cases hother
          exact hstate
  · exact h

theorem keeps_openWriter (h : Safe sha256 calm world.disk) :
    Eff.Wp (openWriter sha256 config) (fun _ next => Running sha256 calm world.disk next)
      (fun _ next => Secured sha256 calm world.disk next.disk) world := by
  have hstart := Secured.start h
  rw [openWriter, Eff.wp_bind]
  have hinitialize : Eff.Wp initializeDatabase
      (fun _ next => Secured sha256 calm world.disk next.disk)
      (fun _ next => Secured sha256 calm world.disk next.disk) world := by
    rw [initializeDatabase, Eff.wp_bind, Eff.wp_get]
    dsimp only
    rw [Eff.wp_ite]
    refine ⟨fun _ => hstart, fun _ => ?_⟩
    apply wp_effect
    · exact fun _ _ _ _ => hstart
    · exact fun _ _ => hstart.of_same _ _ _
  apply hinitialize.mono _ fun _ _ h => h
  intro _ next hnext
  rw [Eff.wp_bind]
  apply (keeps_recoverSegments hnext).mono _ fun _ _ h => h
  rintro recovered last ⟨hlast, hdone⟩
  rw [Eff.wp_bind]
  apply (keeps_openActiveSegment hlast hdone).mono _ fun _ _ h => h
  rintro opened ready ⟨hready, hwrites⟩
  rw [Eff.wp_bind, Eff.wp_modify, Eff.wp_bind]
  apply wp_readCounters
  · exact fun _ _ => hready
  · exact fun _ _ => ⟨hready, hwrites⟩

end Recovery

end ChipTrace.CaptureStore
