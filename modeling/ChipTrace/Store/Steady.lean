/-
A writer in order: its path names a file, no file has an id beyond the ledger's,
and the counters are there.  While no effect fails a writer in order stays so,
and what it does outside a commit's transaction leaves the ledger as it was.
-/
import ChipTrace.Store.Rules

namespace ChipTrace.CaptureStore

section Steady

/-- The ledger has its counters, and no file has an id beyond the segments it knows. -/
structure Filed (disk : Disk) : Prop where
  counters : disk.counters.isSome
  files : ∀ file, (disk.files.get? file).isSome → (ofLex file).1 < Disk.nextKey disk.segments

/-- The disk and the segment that is written fit together. -/
structure Steady (disk : Disk) (active : ActiveSegment) : Prop extends Filed disk where
  path : (disk.files.get? active.path).isSome
  handle : (ofLex active.handle).1 < Disk.nextKey disk.segments

/-- Only the allowed stops can come from the environment. -/
def StopsOnly (allowed : Stop → Prop) (environment : Environment) : Prop :=
  ∀ stop, Allows environment stop → allowed stop

structure InOrder (allowed : Stop → Prop) (world : World) : Prop where
  steady : Steady world.disk world.active
  stops : StopsOnly allowed world.environment

/-- How many attempts were accepted, were duplicates and were conflicts. -/
def counts (disk : Disk) : Option (Nat × Nat × Nat) :=
  disk.counters.map fun counters =>
    (counters.acceptedAttempts, counters.duplicateAttempts, counters.conflictAttempts)

/-- The ledger knows the same captures and counts the same attempts. -/
structure SameLedger (before after : Disk) : Prop where
  captures : after.captures = before.captures
  counts : counts after = counts before

theorem SameLedger.refl (disk : Disk) : SameLedger disk disk := ⟨rfl, rfl⟩

theorem SameLedger.trans {first second third : Disk} (h : SameLedger first second)
    (h' : SameLedger second third) : SameLedger first third :=
  ⟨h'.captures.trans h.captures, h'.counts.trans h.counts⟩

theorem StopsOnly.within {allowed : Stop → Prop} {environment other : Environment}
    (h : StopsOnly allowed other) (hwithin : Within environment other) :
    StopsOnly allowed environment := by
  intro stop hstop
  apply h
  cases stop with
  | failed message => exact hstop.imp fun _ hmem => hwithin hmem
  | crashed => exact hstop.imp fun _ hmem => hwithin hmem

variable {sha256 : Bytes → String} {config : StoreConfig} {world : World}
  {start : Prop} {allowed : Stop → Prop}

/-- Sealing keeps a writer in order, with the ledger as it was. -/
theorem wp_sealActive (h : start → InOrder allowed world)
    (hrecords : world.active.metadata.records ≠ 0) :
    Eff.Wp (sealActive sha256 config)
      (fun _ next => (start → InOrder allowed next) ∧ SameLedger world.disk next.disk)
      (fun stop _ => start → allowed stop) world := by
  have hid : (ofLex world.active.path.sealedName).1 = (ofLex world.active.path).1 := rfl
  rw [sealActive, Eff.wp_bind, Eff.wp_get, Eff.wp_ite]
  refine ⟨fun hzero => absurd hzero hrecords, fun _ => ?_⟩
  rw [Eff.wp_bind]
  apply wp_sync
  · exact fun stop _ hallows _ hstart => (h hstart).stops stop hallows
  intro environment hwithin
  have hstops := fun hstart => (h hstart).stops.within hwithin
  rw [Eff.wp_bind]
  apply wp_rename
  · intro message hmissing hstart
    have hpath := (h hstart).steady.path
    rw [hmissing] at hpath
    cases hpath
  · exact fun stop _ hallows _ hstart => hstops hstart stop hallows
  intro content environment hcontent hwithin
  replace hstops := fun hstart => (hstops hstart).within hwithin
  rw [Eff.wp_bind]
  apply wp_sync
  · exact fun stop _ hallows _ hstart => hstops hstart stop hallows
  intro environment hwithin
  replace hstops := fun hstart => (hstops hstart).within hwithin
  rw [Eff.wp_bind]
  apply wp_utcNow
  intro time environment hwithin
  replace hstops := fun hstart => (hstops hstart).within hwithin
  rw [Eff.wp_bind, onActive, Eff.wp_modify, Eff.wp_bind, Eff.wp_get, Eff.wp_bind]
  apply wp_readCounters
  · intro message hnone hstart
    have hsome := (h hstart).steady.counters
    rw [show world.disk.counters = none from hnone] at hsome
    cases hsome
  intro counters hcounters
  rw [Eff.wp_bind]
  apply wp_effect
  · exact fun stop _ hallows _ hstart => hstops hstart stop hallows
  intro environment hwithin
  rw [Eff.wp_pure]
  constructor
  · intro hstart
    have hsteady := (h hstart).steady
    have hpath := hsteady.files _ hsteady.path
    refine ⟨⟨⟨rfl, ?_⟩, ?_, ?_⟩, (hstops hstart).within hwithin⟩
    · intro file hfile
      apply Nat.lt_of_lt_of_le _ (nextKey_le_insert _ _)
      dsimp only at hfile
      rw [renamed] at hfile
      split_ifs at hfile with hsame
      · exact hsteady.files file hfile
      · by_cases htarget : file = world.active.path.sealedName
        · rwa [htarget, hid]
        · by_cases hsource : file = world.active.path
          · rwa [hsource]
          · rw [Table.get?_remove_of_ne _ hsource, Table.get?_insert_of_ne _ htarget] at hfile
            exact hsteady.files file hfile
    · dsimp only
      rw [renamed]
      split_ifs with hsame
      · rw [← hsame]
        exact hsteady.path
      · rw [Table.get?_remove_of_ne _ (Ne.symm hsame), Table.get?_insert_self]
        rfl
    · dsimp only
      apply Nat.lt_of_lt_of_le _ (nextKey_le_insert _ _)
      split_ifs
      · rwa [hid]
      · exact hsteady.handle
  · refine ⟨rfl, ?_⟩
    rw [counts, counts, show world.disk.counters = some counters from hcounters]
    rfl

/-- A new segment has a file of its own. -/
theorem wp_createActiveSegment (h : start → Filed world.disk)
    (hstops : start → StopsOnly allowed world.environment) :
    Eff.Wp (createActiveSegment config)
      (fun active next => (start → InOrder allowed { next with active := active }) ∧
        SameLedger world.disk next.disk)
      (fun stop _ => start → allowed stop) world := by
  rw [createActiveSegment, Eff.wp_bind, Eff.wp_get, Eff.wp_bind]
  apply wp_createNew
  · intro message hexists hstart
    exact absurd ((h hstart).files _ hexists) (Nat.lt_irrefl _)
  · exact fun stop _ hallows _ hstart => hstops hstart stop hallows
  intro environment hfresh hwithin
  replace hstops := fun hstart => (hstops hstart).within hwithin
  rw [Eff.wp_bind]
  apply wp_sync
  · exact fun stop _ hallows _ hstart => hstops hstart stop hallows
  intro environment hwithin
  replace hstops := fun hstart => (hstops hstart).within hwithin
  rw [Eff.wp_bind]
  apply wp_utcNow
  intro time environment hwithin
  replace hstops := fun hstart => (hstops hstart).within hwithin
  rw [Eff.wp_bind]
  apply wp_effect
  · exact fun stop _ hallows _ hstart => hstops hstart stop hallows
  intro environment hwithin
  rw [Eff.wp_pure]
  have hkey : ∀ metadata, Disk.nextKey world.disk.segments <
      Disk.nextKey (world.disk.segments.insert (Disk.nextKey world.disk.segments) metadata) :=
    fun metadata => lt_nextKey (by rw [Table.get?_insert_self]; rfl)
  constructor
  · intro hstart
    refine ⟨⟨⟨(h hstart).counters, ?_⟩, ?_, hkey _⟩, (hstops hstart).within hwithin⟩
    · intro file hfile
      dsimp only at hfile
      by_cases hnew : file = openFile (Disk.nextKey world.disk.segments)
      · rw [hnew]
        exact hkey _
      · rw [Table.get?_insert_of_ne _ hnew] at hfile
        exact Nat.lt_of_lt_of_le ((h hstart).files file hfile) (nextKey_le_insert _ _)
    · dsimp only
      rw [Table.get?_insert_self]
      rfl
  · exact ⟨rfl, rfl⟩

/-- So does a rotation. -/
theorem wp_rotate (h : start → InOrder allowed world)
    (hrecords : world.active.metadata.records ≠ 0) :
    Eff.Wp (rotate sha256 config)
      (fun _ next => (start → InOrder allowed next) ∧ SameLedger world.disk next.disk)
      (fun stop _ => start → allowed stop) world := by
  rw [rotate, Eff.wp_bind]
  apply (wp_sealActive h hrecords).mono _ fun _ _ h => h
  rintro finished next ⟨hnext, hsame⟩
  rw [Eff.wp_bind]
  apply (wp_createActiveSegment (fun hstart => (hnext hstart).steady.toFiled)
    fun hstart => (hnext hstart).stops).mono _ fun _ _ h => h
  rintro active last ⟨hlast, hsame'⟩
  rw [Eff.wp_bind, onActive, Eff.wp_modify, Eff.wp_pure]
  exact ⟨hlast, hsame.trans hsame'⟩

/-- What a written record's locator says about it. -/
structure Locates (task : Nat × CaptureRecord) (row : Nat × CaptureLocator) : Prop where
  index : row.1 = task.1
  captureId : row.2.captureId = task.2.captureId
  rawSha256 : row.2.rawSha256 = task.2.sha256

theorem Steady.append {disk : Disk} {active changed : ActiveSegment} (h : Steady disk active)
    (bytes : Bytes) (hpath : changed.path = active.path)
    (hhandle : changed.handle = active.handle) :
    Steady (appendTo active.handle bytes disk) changed := by
  refine ⟨⟨h.counters, ?_⟩, ?_, ?_⟩
  · intro file hfile
    dsimp only [appendTo] at hfile
    rw [Table.get?_insert] at hfile
    split_ifs at hfile with hsame
    · rw [hsame]
      exact h.handle
    · exact h.files file hfile
  · dsimp only [appendTo]
    rw [hpath, Table.get?_insert]
    split_ifs
    · rfl
    · exact h.path
  · dsimp only [appendTo]
    rw [hhandle]
    exact h.handle

theorem wp_writeRecord (h : start → InOrder allowed world) (task : Nat × CaptureRecord) :
    Eff.Wp (writeRecord sha256 config task)
      (fun row next => Locates task row ∧ (start → InOrder allowed next) ∧
        SameLedger world.disk next.disk)
      (fun stop _ => start → allowed stop) world := by
  rw [writeRecord, Eff.wp_bind]
  have hroom : Eff.Wp (makeRoom sha256 config task.2)
      (fun _ next => (start → InOrder allowed next) ∧ SameLedger world.disk next.disk)
      (fun stop _ => start → allowed stop) world := by
    rw [makeRoom, Eff.wp_bind, Eff.wp_get, Eff.wp_ite]
    constructor
    · intro hfull
      rw [Eff.wp_bind]
      exact (wp_rotate h (Nat.ne_of_gt hfull.1)).mono (fun _ _ h => h) fun _ _ h => h
    · intro _
      exact ⟨h, SameLedger.refl _⟩
  apply hroom.mono _ fun _ _ h => h
  rintro _ next ⟨hnext, hsame⟩
  rw [Eff.wp_bind, Eff.wp_get, Eff.wp_bind]
  apply wp_writeAll
  · exact fun stop _ _ hallows _ hstart => (hnext hstart).stops stop hallows
  intro environment hwithin
  have hstops := fun hstart => (hnext hstart).stops.within hwithin
  rw [Eff.wp_bind]
  apply wp_writeAll
  · exact fun stop _ _ hallows _ hstart => hstops hstart stop hallows
  intro environment hwithin
  rw [Eff.wp_bind, onActive, Eff.wp_modify, Eff.wp_pure]
  refine ⟨⟨rfl, rfl, rfl⟩, fun hstart => ⟨?_, (hstops hstart).within hwithin⟩, hsame.captures,
    hsame.counts⟩
  have hfirst := (hnext hstart).steady.append task.2.canonical rfl rfl
  exact hfirst.append [10] rfl rfl

end Steady

section Opened

variable {sha256 : Bytes → String} {config : StoreConfig} {world : World}

/-- Nothing is said about a computation that stops. -/
def anyStop (_ : Stop) (_ : World) : Prop := True

theorem wp_initializeDatabase :
    Eff.Wp initializeDatabase (fun _ next => next.disk.counters.isSome) anyStop world := by
  rw [initializeDatabase, Eff.wp_bind, Eff.wp_get]
  dsimp only
  rw [Eff.wp_ite]
  constructor
  · exact fun _ => trivial
  · intro _
    apply wp_effect
    · exact fun _ _ _ _ => trivial
    intro _ _
    rfl

/-- Entering rows changes captures and attempts only. -/
theorem wp_recoverRows (recovered : Recovered) (rows : List CaptureLocator) :
    Eff.Wp (recoverRows recovered rows)
      (fun entered next => next.disk = world.disk ∧ entered.disk.files = recovered.disk.files ∧
        entered.disk.segments = recovered.disk.segments ∧
        entered.disk.counters = recovered.disk.counters) anyStop world := by
  induction rows generalizing recovered world with
  | nil => exact ⟨rfl, rfl, rfl, rfl⟩
  | cons locator rest ih =>
      rw [recoverRows, Eff.wp_bind, recoverRow]
      cases recovered.disk.captures.get? locator.captureId with
      | some existing =>
          dsimp only
          rw [Eff.wp_ite]
          constructor
          · exact fun _ => trivial
          · exact fun _ => ih recovered
      | none =>
          dsimp only
          rw [Eff.wp_bind]
          apply wp_utcNow
          intro committedAt environment _
          rw [Eff.wp_pure]
          exact ih _

/-- After a file is recovered the ledger knows its segment. -/
theorem wp_recoverSegment (summary : Recovered) (file : SegmentFile)
    (hcounters : world.disk.counters.isSome) :
    Eff.Wp (recoverSegment sha256 summary file)
      (fun _ next => next.disk.counters.isSome ∧
        (next.disk.segments.get? (ofLex file).1).isSome ∧
        (∀ id, (world.disk.segments.get? id).isSome → (next.disk.segments.get? id).isSome) ∧
        ∀ other, (next.disk.files.get? other).isSome →
          other = file ∨ (world.disk.files.get? other).isSome) anyStop world := by
  rw [recoverSegment, Eff.wp_bind, Eff.wp_get]
  dsimp only
  rw [Eff.wp_ite]
  constructor
  · intro hsettled
    have hany := (Bool.and_eq_true_iff.mp hsettled).2
    refine ⟨hcounters, ?_, fun _ h => h, fun _ h => Or.inr h⟩
    cases hrow : world.disk.segments.get? (ofLex file).1 with
    | none =>
        rw [hrow] at hany
        cases hany
    | some metadata => rfl
  · intro _
    rw [Eff.wp_bind, Eff.wp_lift]
    refine ⟨fun rows _ => ?_, fun _ _ => trivial⟩
    rw [Eff.wp_bind]
    have hcut : Eff.Wp (cutTail file ((world.disk.files.get? file).getD [])
          (splitLines ((world.disk.files.get? file).getD [])).2)
        (fun _ next => next.disk.counters = world.disk.counters ∧
          next.disk.segments = world.disk.segments ∧
          ∀ other, (next.disk.files.get? other).isSome →
            other = file ∨ (world.disk.files.get? other).isSome) anyStop world := by
      rw [cutTail, Eff.wp_ite]
      refine ⟨fun _ => ⟨rfl, rfl, fun _ h => Or.inr h⟩, fun _ => ?_⟩
      rw [Eff.wp_ite]
      refine ⟨fun _ => trivial, fun _ => ?_⟩
      apply wp_effect
      · exact fun _ _ _ _ => trivial
      intro _ _
      refine ⟨rfl, rfl, fun other hother => ?_⟩
      dsimp only at hother
      rw [Table.get?_insert] at hother
      split_ifs at hother with hsame
      · exact Or.inl hsame
      · exact Or.inr hother
    apply hcut.mono _ fun _ _ h => h
    rintro _ cut ⟨hcutCounters, hcutSegments, hcutFiles⟩
    rw [Eff.wp_bind]
    apply wp_utcNow
    intro createdAt _ _
    rw [Eff.wp_bind]
    apply wp_utcNow
    intro sealedAt _ _
    rw [Eff.wp_bind, Eff.wp_get, Eff.wp_bind]
    apply (wp_recoverRows _ rows).mono _ fun _ _ h => h
    rintro entered next ⟨hnext, hfiles, hsegments, hcounters'⟩
    rw [Eff.wp_bind]
    apply wp_effect
    · exact fun _ _ _ _ => trivial
    intro _ _
    rw [Eff.wp_pure]
    dsimp only at hfiles hsegments hcounters' ⊢
    refine ⟨?_, ?_, ?_, ?_⟩
    · rw [hcounters', hcutCounters]
      exact hcounters
    · rw [Table.get?_insert_self]
      rfl
    · intro id hid
      rw [hsegments, hcutSegments]
      exact isSome_get?_insert hid
    · rw [hfiles]
      exact hcutFiles

theorem wp_recoverFiles (summary : Recovered) (files : List SegmentFile)
    (hcounters : world.disk.counters.isSome) :
    Eff.Wp (recoverFiles sha256 summary files)
      (fun _ next => next.disk.counters.isSome ∧
        (∀ file ∈ files, (next.disk.segments.get? (ofLex file).1).isSome) ∧
        (∀ id, (world.disk.segments.get? id).isSome → (next.disk.segments.get? id).isSome) ∧
        ∀ other, (next.disk.files.get? other).isSome →
          other ∈ files ∨ (world.disk.files.get? other).isSome) anyStop world := by
  induction files generalizing summary world with
  | nil => exact ⟨hcounters, fun _ h => (List.not_mem_nil h).elim, fun _ h => h, fun _ h => Or.inr h⟩
  | cons file rest ih =>
      rw [recoverFiles, Eff.wp_bind]
      apply (wp_recoverSegment summary file hcounters).mono _ fun _ _ h => h
      rintro entered next ⟨hnext, hknown, hkeeps, hfiles⟩
      apply (ih entered hnext).mono _ fun _ _ h => h
      rintro last final ⟨hfinal, hknown', hkeeps', hfiles'⟩
      refine ⟨hfinal, ?_, fun id hid => hkeeps' id (hkeeps id hid), ?_⟩
      · intro other hother
        rcases List.mem_cons.mp hother with rfl | hrest
        · exact hkeeps' _ hknown
        · exact hknown' other hrest
      · intro other hother
        rcases hfiles' other hother with hrest | hnext
        · exact Or.inl (List.mem_cons_of_mem _ hrest)
        · rcases hfiles other hnext with rfl | hold
          · exact Or.inl List.mem_cons_self
          · exact Or.inr hold

/-- After recovery the ledger knows the segment of every file. -/
theorem wp_recoverSegments (hcounters : world.disk.counters.isSome) :
    Eff.Wp (recoverSegments sha256) (fun _ next => Filed next.disk) anyStop world := by
  rw [recoverSegments, Eff.wp_bind, Eff.wp_get]
  dsimp only
  rw [Eff.wp_bind]
  apply (wp_recoverFiles _ world.disk.files.keys hcounters).mono _ fun _ _ h => h
  rintro summary next ⟨hnext, hknown, _, hfiles⟩
  have hfiled : ∀ file, (next.disk.files.get? file).isSome →
      (ofLex file).1 < Disk.nextKey next.disk.segments := by
    intro file hfile
    apply lt_nextKey
    apply hknown
    rcases hfiles file hfile with hkey | hold
    · exact hkey
    · exact (world.disk.files.mem_keys file).mpr (Option.isSome_iff_exists.mp hold)
  rw [Eff.wp_bind, rebuildIf, Eff.wp_ite]
  constructor
  · intro _
    apply wp_effect
    · exact fun _ _ _ _ => trivial
    intro _ _
    exact ⟨rfl, hfiled⟩
  · intro _
    exact ⟨hnext, hfiled⟩

theorem wp_openActiveSegment (h : Filed world.disk) :
    Eff.Wp (openActiveSegment config) (fun opened next => Steady next.disk opened.1)
      anyStop world := by
  rw [openActiveSegment, Eff.wp_bind, Eff.wp_get]
  dsimp only
  split
  · rw [Eff.wp_bind]
    have hcreate := @wp_createActiveSegment config world True (fun _ => True) (fun _ => h)
      fun _ _ _ => trivial
    apply hcreate.mono _ fun _ _ _ => trivial
    rintro active next ⟨hnext, _⟩
    exact (hnext trivial).steady
  · rename_i metadata _
    cases hcontent : world.disk.files.get? metadata.path with
    | none => exact trivial
    | some content =>
        have hpath : (world.disk.files.get? metadata.path).isSome := by
          rw [hcontent]
          rfl
        exact ⟨h, hpath, h.files _ hpath⟩
  · exact trivial

/-- A store that was opened is in order, whatever was on its disk. -/
theorem wp_openWriter :
    Eff.Wp (openWriter sha256 config) (fun _ next => Steady next.disk next.active)
      anyStop world := by
  rw [openWriter, Eff.wp_bind]
  apply wp_initializeDatabase.mono _ fun _ _ h => h
  intro _ initialized hcounters
  rw [Eff.wp_bind]
  apply (wp_recoverSegments hcounters).mono _ fun _ _ h => h
  intro _ recovered hfiled
  rw [Eff.wp_bind]
  apply (wp_openActiveSegment hfiled).mono _ fun _ _ h => h
  intro opened next hsteady
  rw [Eff.wp_bind, Eff.wp_modify, Eff.wp_bind]
  apply wp_readCounters
  · exact fun _ _ => trivial
  intro _ _
  exact hsteady

end Opened

end ChipTrace.CaptureStore
