/-
The writer of a capture store keeps what is on its disk: whatever effect fails or is the last
before a crash, what was entered and written stays, and new captures are placed where their
rows say.
-/
import ChipTrace.Store.Kept
import ChipTrace.Store.Steady

namespace ChipTrace.CaptureStore

section Invariant

/-- The active segment is the only open one, under its open name. -/
structure Orderly (disk : Disk) (active : ActiveSegment) : Prop where
  path : active.path = openFile active.metadata.segmentId
  handle : active.handle = openFile active.metadata.segmentId
  state : active.metadata.state = .open
  only : ∀ id row, disk.segments.get? id = some row →
    (row.state = .open ↔ id = active.metadata.segmentId)

/-- The segment that is written has a file that holds what the writer thinks. -/
structure Writes (calm : Prop) (disk : Disk) (active : ActiveSegment) : Prop where
  row : (disk.segments.get? active.metadata.segmentId).isSome
  path : active.path = openFile active.metadata.segmentId ∨
    active.path = sealedFile active.metadata.segmentId
  handle : active.handle = openFile active.metadata.segmentId ∨
    active.handle = sealedFile active.metadata.segmentId
  content : disk.files.get? active.handle = some active.digest
  bytes : active.digest.length = active.metadata.bytes
  openPath : active.metadata.state = .open →
    active.metadata.path = openFile active.metadata.segmentId
  orderly : calm → Orderly disk active

/-- A writer that can go on. -/
structure Running (sha256 : Bytes → String) (calm : Prop) (before : Disk) (world : World) : Prop
    extends Secured sha256 calm before world.disk, Writes calm world.disk world.active

/-- A writer whose last effect failed. -/
structure Stalled (sha256 : Bytes → String) (calm : Prop) (before : Disk) (world : World) : Prop
    extends Secured sha256 calm before world.disk, Writes False world.disk world.active

variable {sha256 : Bytes → String} {config : StoreConfig} {calm : Prop} {before : Disk}
  {world : World}

theorem Writes.relaxed {disk : Disk} {active : ActiveSegment} (h : Writes calm disk active) :
    Writes False disk active :=
  ⟨h.row, h.path, h.handle, h.content, h.bytes, h.openPath, False.elim⟩

theorem Running.stalled (h : Running sha256 calm before world) :
    Stalled sha256 calm before world :=
  ⟨h.toSecured, h.toWrites.relaxed⟩

theorem Running.since {mid : Disk} (h : Running sha256 calm mid world)
    (hretains : Retains calm before mid) : Running sha256 calm before world :=
  ⟨h.toSecured.since hretains, h.toWrites⟩

theorem Running.restart (h : Running sha256 calm before world) :
    Running sha256 calm world.disk world :=
  ⟨Secured.start h.toSafe, h.toWrites⟩

theorem Writes.held {disk : Disk} {active : ActiveSegment} (h : Writes calm disk active) :
    (disk.segmentBytes active.metadata.segmentId).isSome := by
  rw [Disk.segmentBytes, Option.isSome_or]
  apply Or.elim h.handle
  · intro hopen
    rw [← hopen, h.content]
    rfl
  · intro hsealed
    rw [← hsealed, h.content]
    exact Bool.or_true _

/-- The row of the active segment is not sealed in the ledger. -/
theorem Orderly.unsealed {disk : Disk} {active : ActiveSegment} (h : Orderly disk active)
    {row : SegmentMetadata} (hrow : disk.segments.get? active.metadata.segmentId = some row) :
    row.state ≠ .sealed := by
  rw [(h.only _ row hrow).mpr rfl]
  intro hsealed
  cases hsealed

end Invariant

section Segments

variable {sha256 : Bytes → String} {config : StoreConfig} {calm : Prop} {before : Disk}
  {world : World}

/-- The active segment's file under its new name, if it has an old one. -/
theorem Running.renamed (h : Running sha256 calm before world) {content : Bytes}
    (hcontent : world.disk.files.get? world.active.path = some content) :
    Secured sha256 calm before { world.disk with
        files := CaptureStore.renamed world.active.path world.active.path.sealedName content
          world.disk.files } ∧
      Writes False { world.disk with
        files := CaptureStore.renamed world.active.path world.active.path.sealedName content
          world.disk.files }
        { world.active with
          handle := if world.active.handle = world.active.path then world.active.path.sealedName
            else world.active.handle } ∧
      (calm → (CaptureStore.renamed world.active.path world.active.path.sealedName content
        world.disk.files).get? (sealedFile world.active.metadata.segmentId) =
          some world.active.digest) := by
  apply Or.elim h.path
  · intro hpath
    have hhandle : world.active.handle = world.active.path := by
      rw [hpath]
      apply h.handle.resolve_right
      intro hsealed
      have hnone := h.single world.active.metadata.segmentId (by rw [← hpath, hcontent]; rfl)
      rw [← hsealed, h.content] at hnone
      cases hnone
    have hsame : content = world.active.digest := by
      have hdigest := h.content
      rw [hhandle, hcontent] at hdigest
      exact Option.some.inj hdigest
    have hname : world.active.path.sealedName = sealedFile world.active.metadata.segmentId := by
      rw [hpath]
      rfl
    rw [hsame] at hcontent ⊢
    rw [if_pos hhandle, hname, hpath, CaptureStore.renamed, if_neg (openFile_ne_sealedFile _ _)]
    rw [hpath] at hcontent
    have hfile : ((world.disk.files.insert (sealedFile world.active.metadata.segmentId)
        world.active.digest).remove (openFile world.active.metadata.segmentId)).get?
          (sealedFile world.active.metadata.segmentId) = some world.active.digest := by
      rw [Table.get?_remove_of_ne _ (openFile_ne_sealedFile _ _).symm, Table.get?_insert_self]
    exact ⟨h.toSecured.renamed hcontent h.row,
      ⟨h.row, Or.inl hpath, Or.inr rfl, hfile, h.bytes, h.openPath, False.elim⟩, fun _ => hfile⟩
  · intro hpath
    have hname : world.active.path.sealedName = world.active.path := by
      rw [hpath]
      rfl
    have hhandle : (if world.active.handle = world.active.path then world.active.path
        else world.active.handle) = world.active.handle := by
      split_ifs with heq
      · exact heq.symm
      · rfl
    rw [hname, CaptureStore.renamed, if_pos rfl, hhandle]
    refine ⟨h.toSecured, h.toWrites.relaxed, fun hcalm => ?_⟩
    have hopen := (h.orderly hcalm).path
    rw [hpath] at hopen
    exact absurd hopen.symm (openFile_ne_sealedFile _ _)

/-- Sealing the active segment leaves no open one; where it stops, nothing is lost. -/
theorem keeps_sealActive (h : Running sha256 calm before world) :
    Eff.Wp (sealActive sha256 config)
      (fun _ next => Stalled sha256 calm before next ∧
        (calm → ∀ id row, next.disk.segments.get? id = some row → row.state = .sealed))
      (fun _ next => Stalled sha256 calm before next) world := by
  rw [sealActive, Eff.wp_bind, Eff.wp_get, Eff.wp_ite]
  refine ⟨fun _ => h.stalled, fun _ => ?_⟩
  rw [Eff.wp_bind]
  apply wp_sync
  · exact fun _ _ _ _ => ⟨h.toSecured, h.toWrites.relaxed⟩
  intro environment _
  rw [Eff.wp_bind]
  apply wp_rename
  · exact fun _ _ => ⟨h.toSecured, h.toWrites.relaxed⟩
  · exact fun _ _ _ _ => ⟨h.toSecured, h.toWrites.relaxed⟩
  intro content environment hcontent _
  obtain ⟨hsecured, hwrites, hfile⟩ := h.renamed hcontent
  rw [Eff.wp_bind]
  apply wp_sync
  · exact fun _ _ _ _ => ⟨hsecured, hwrites⟩
  intro environment _
  rw [Eff.wp_bind]
  apply wp_utcNow
  intro time environment _
  rw [Eff.wp_bind, onActive, Eff.wp_modify, Eff.wp_bind, Eff.wp_get, Eff.wp_bind]
  have hname : world.active.path.sealedName = sealedFile world.active.metadata.segmentId := by
    apply Or.elim h.path <;>
    · intro hpath
      rw [hpath]
      rfl
  apply wp_readCounters
  · exact fun _ _ => ⟨hsecured, hwrites.row, Or.inr hname, hwrites.handle, hwrites.content,
      hwrites.bytes, (fun hopen => by cases hopen), False.elim⟩
  intro counters _
  rw [Eff.wp_bind]
  apply wp_effect
  · exact fun _ _ _ _ => ⟨hsecured, hwrites.row, Or.inr hname, hwrites.handle, hwrites.content,
      hwrites.bytes, (fun hopen => by cases hopen), False.elim⟩
  intro environment _
  rw [Eff.wp_pure]
  have hentered := hsecured.enterSegment
    { world.active.metadata with
      path := world.active.path.sealedName
      state := .sealed
      sealedAt := some time
      sha256 := some (sha256 world.active.digest) } hwrites.held (fun hopen => by cases hopen)
    (fun hcalm _ => ⟨hname, _, hfile hcalm, h.bytes.symm, rfl⟩)
    (fun hcalm _ hrow => (h.orderly hcalm).unsealed hrow)
  refine ⟨⟨hentered _, isSome_get?_insert hwrites.row, Or.inr hname, hwrites.handle,
    hwrites.content, hwrites.bytes, (fun hopen => by cases hopen), False.elim⟩, ?_⟩
  intro hcalm id row hrow
  dsimp only at hrow
  rw [Table.get?_insert] at hrow
  split_ifs at hrow with hid
  · cases hrow
    rfl
  · cases hstate : row.state with
    | «sealed» => rfl
    | «open» => exact absurd (((h.orderly hcalm).only id row hrow).mp hstate) hid

/-- A writer whose disk got a new segment writes what it wrote before. -/
theorem Writes.beside {disk : Disk} {active : ActiveSegment} (h : Writes False disk active)
    {id : Nat} (hrow : disk.segments.get? id = none) (content : Bytes)
    (segments : Table Nat SegmentMetadata)
    (hsegments : ∀ other, (disk.segments.get? other).isSome → (segments.get? other).isSome) :
    Writes False { disk with files := disk.files.insert (openFile id) content, segments }
      active := by
  refine ⟨hsegments _ h.row, h.path, h.handle, ?_, h.bytes, h.openPath, False.elim⟩
  have hne : active.metadata.segmentId ≠ id := by
    intro heq
    have hsome := h.row
    rw [heq, hrow] at hsome
    cases hsome
  rw [Table.get?_insert_of_ne _ _, h.content]
  apply Or.elim h.handle
  · intro hopen heq
    rw [hopen] at heq
    exact hne (openFile_inj heq)
  · intro hsealed heq
    rw [hsealed] at heq
    exact openFile_ne_sealedFile _ _ heq.symm

/-- A new segment is written from its start. -/
theorem keeps_createActiveSegment (h : Secured sha256 calm before world.disk)
    (hsealed : calm → ∀ id row, world.disk.segments.get? id = some row → row.state = .sealed) :
    Eff.Wp (createActiveSegment config)
      (fun active next => Secured sha256 calm before next.disk ∧ Writes calm next.disk active)
      (fun _ next => Secured sha256 calm before next.disk ∧
        (Writes False world.disk world.active → Writes False next.disk next.active)) world := by
  have hnew : world.disk.segments.get? (Disk.nextKey world.disk.segments) = none := get?_nextKey
  rw [createActiveSegment, Eff.wp_bind, Eff.wp_get, Eff.wp_bind]
  apply wp_createNew
  · exact fun _ _ => ⟨h, id⟩
  · exact fun _ _ _ _ => ⟨h, id⟩
  intro environment hfile _
  have hcreated := h.create hnew hfile
  have hbeside := fun hwrites : Writes False world.disk world.active =>
    hwrites.beside hnew [] world.disk.segments fun _ hrow => hrow
  rw [Eff.wp_bind]
  apply wp_sync
  · exact fun _ _ _ _ => ⟨hcreated, hbeside⟩
  intro environment _
  rw [Eff.wp_bind]
  apply wp_utcNow
  intro createdAt environment _
  rw [Eff.wp_bind]
  apply wp_effect
  · exact fun _ _ _ _ => ⟨hcreated, hbeside⟩
  intro environment _
  rw [Eff.wp_pure]
  have hcontent : (world.disk.files.insert (openFile (Disk.nextKey world.disk.segments)) []).get?
      (openFile (Disk.nextKey world.disk.segments)) = some [] := Table.get?_insert_self _ _ _
  constructor
  · refine hcreated.enterSegment ⟨Disk.nextKey world.disk.segments, _, .open, 0, 0, createdAt, none,
      none⟩ ?_ (fun _ => rfl) (fun _ hstate => ?_) (fun _ old hold => ?_) _
    · rw [Disk.segmentBytes, hcontent]
      rfl
    · cases hstate
    · dsimp only at hold
      rw [hnew] at hold
      cases hold
  · refine ⟨?_, Or.inl rfl, Or.inl rfl, hcontent, rfl, fun _ => rfl, fun hcalm =>
      ⟨rfl, rfl, rfl, ?_⟩⟩
    · dsimp only
      rw [Table.get?_insert_self]
      rfl
    · intro id row hrow
      dsimp only at hrow ⊢
      rw [Table.get?_insert] at hrow
      split_ifs at hrow with hid
      · cases hrow
        exact ⟨fun _ => hid, fun _ => rfl⟩
      · rw [hsealed hcalm id row hrow]
        exact ⟨(fun hopen => by cases hopen), fun heq => absurd heq hid⟩

theorem keeps_rotate (h : Running sha256 calm before world) :
    Eff.Wp (rotate sha256 config) (fun _ next => Running sha256 calm before next)
      (fun _ next => Stalled sha256 calm before next) world := by
  rw [rotate, Eff.wp_bind]
  apply (keeps_sealActive h).mono _ fun _ _ h => h
  rintro finished next ⟨hnext, hsealed⟩
  rw [Eff.wp_bind]
  apply (keeps_createActiveSegment hnext.toSecured hsealed).mono
  · rintro active last ⟨hlast, hwrites⟩
    rw [Eff.wp_bind, onActive, Eff.wp_modify, Eff.wp_pure]
    exact ⟨hlast, hwrites⟩
  · rintro stop last ⟨hlast, hwrites⟩
    exact ⟨hlast, hwrites hnext.toWrites⟩

end Segments

section Records

variable {sha256 : Bytes → String} {config : StoreConfig} {calm : Prop} {before : Disk}
  {world : World} {task : Nat × CaptureRecord}

/-- A record whose bytes fill one line and have its digest. -/
structure Normal (sha256 : Bytes → String) (record : CaptureRecord) : Prop where
  printable : ∀ byte ∈ record.canonical, 32 ≤ byte
  digest : record.sha256 = sha256 record.canonical

theorem keeps_makeRoom (h : Running sha256 calm before world) (record : CaptureRecord) :
    Eff.Wp (makeRoom sha256 config record) (fun _ next => Running sha256 calm before next)
      (fun _ next => Secured sha256 calm before next.disk) world := by
  rw [makeRoom, Eff.wp_bind, Eff.wp_get, Eff.wp_ite]
  refine ⟨fun _ => ?_, fun _ => h⟩
  rw [Eff.wp_bind]
  exact (keeps_rotate h).mono (fun _ _ hnext => hnext) fun _ _ hnext => hnext.toSecured

/-- The segment after some of its bytes were appended. -/
def ActiveSegment.appended (active : ActiveSegment) (bytes : Bytes) : ActiveSegment :=
  { active with
    digest := active.digest ++ bytes
    metadata := { active.metadata with bytes := active.metadata.bytes + bytes.length } }

variable {disk : Disk} {active : ActiveSegment}

theorem Writes.appendTo_eq (h : Writes calm disk active) (bytes : Bytes) :
    appendTo active.handle bytes disk =
      { disk with files := disk.files.insert active.handle (active.digest ++ bytes) } := by
  rw [appendTo, h.content, Option.getD_some]

theorem Writes.append (h : Writes calm disk active) (bytes : Bytes) :
    Writes calm (appendTo active.handle bytes disk) (active.appended bytes) := by
  rw [h.appendTo_eq]
  refine ⟨h.row, h.path, h.handle, Table.get?_insert_self _ _ _, ?_, h.openPath, ?_⟩
  · exact (List.length_append).trans (congrArg (· + bytes.length) h.bytes)
  · intro hcalm
    have horderly := h.orderly hcalm
    exact ⟨horderly.path, horderly.handle, horderly.state, horderly.only⟩

/-- Appending to the file of the active segment loses nothing. -/
theorem Secured.append (h : Secured sha256 calm before disk) (hwrites : Writes calm disk active)
    (bytes : Bytes) (hplain : ∀ byte ∈ bytes, byte = 10 ∨ 32 ≤ byte) :
    Secured sha256 calm before (appendTo active.handle bytes disk) := by
  rw [hwrites.appendTo_eq]
  apply h.replace hwrites.content (LinesKept.of_prefix (List.prefix_append _ _))
  · intro byte hbyte
    exact (List.mem_append.mp hbyte).elim (h.plain _ _ hwrites.content byte) (hplain byte)
  · intro hcalm
    rw [(hwrites.orderly hcalm).handle]
    rfl

theorem Writes.handle_id (h : Writes calm disk active) :
    (ofLex active.handle).1 = active.metadata.segmentId := by
  apply Or.elim h.handle <;>
  · intro heq
    rw [heq]
    rfl

/-- A written record stands where its row says. -/
theorem keeps_writeRecord (h : Running sha256 calm before world)
    (hnormal : Normal sha256 task.2) :
    Eff.Wp (writeRecord sha256 config task)
      (fun row next => Placed next.disk row.2 task.2.canonical ∧
        Running sha256 calm before next)
      (fun _ next => Secured sha256 calm before next.disk) world := by
  have hplain : ∀ byte ∈ task.2.canonical, byte = 10 ∨ 32 ≤ byte :=
    fun byte hbyte => Or.inr (hnormal.printable byte hbyte)
  rw [writeRecord, Eff.wp_bind]
  apply (keeps_makeRoom h task.2).mono _ fun _ _ h => h
  intro _ next hnext
  rw [Eff.wp_bind, Eff.wp_get, Eff.wp_bind]
  apply wp_writeAll
  · exact fun _ _ _ _ _ => hnext.toSecured.append hnext.toWrites _ fun byte hbyte =>
      hplain byte (List.mem_of_mem_take hbyte)
  intro environment _
  have hsecured := hnext.toSecured.append hnext.toWrites _ hplain
  have hwrites := hnext.toWrites.append task.2.canonical
  rw [Eff.wp_bind]
  apply wp_writeAll
  · exact fun _ _ _ _ _ => hsecured.append hwrites _ fun byte hbyte =>
      Or.inl (List.mem_singleton.mp (List.mem_of_mem_take hbyte))
  intro environment _
  rw [Eff.wp_bind, onActive, Eff.wp_modify, Eff.wp_pure]
  replace hsecured := hsecured.append hwrites [10] fun byte hbyte =>
    Or.inl (List.mem_singleton.mp hbyte)
  replace hwrites := hwrites.append [10]
  have hcontent : (appendTo next.active.handle [10] (appendTo next.active.handle
      task.2.canonical next.disk)).files.get? next.active.handle =
        some (next.active.digest ++ task.2.canonical ++ [10]) := hwrites.content
  refine ⟨⟨hwrites.row, rfl, ?_, next.active.digest ++ task.2.canonical ++ [10],
    next.active.digest, ?_, hnext.bytes, List.prefix_refl _⟩, hsecured, hwrites.row, hnext.path,
    hnext.handle, ?_, ?_, hnext.openPath, fun hcalm => ?_⟩
  · intro hten
    exact absurd (hnormal.printable 10 hten) (by decide)
  · have hbytes := segmentBytes_of_file hsecured.single hcontent
    rwa [hnext.toWrites.handle_id] at hbytes
  · rw [List.append_assoc] at hcontent
    exact hcontent
  · have hbytes := hnext.bytes
    dsimp only [ActiveSegment.addRecord, CaptureRecord.line]
    rw [List.length_append, List.length_append, hbytes]
    rfl
  · have horderly := hwrites.orderly hcalm
    exact ⟨horderly.path, horderly.handle, horderly.state, horderly.only⟩

end Records

end ChipTrace.CaptureStore
