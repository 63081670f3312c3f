/-
What the commands of a store keep about its counters: as long as the writer's
segment is open the counters are those that the tables imply, and an opening
counts again whenever it entered something.
-/
import ChipTrace.Store.Counters

namespace ChipTrace.CaptureStore

section Invariant

/-- Every capture was accepted once, and a segment's row is under its id. -/
structure Sound (disk : Disk) : Prop where
  accepted : disk.captures.len = disk.countersFromTables.acceptedAttempts
  segmentIds : ∀ id row, disk.segments.get? id = some row → row.segmentId = id

/-- The counters, where there are any, are those that the tables imply. -/
structure Balanced (disk : Disk) : Prop extends Sound disk where
  counters : ∀ counters, disk.counters = some counters → counters = disk.countersFromTables

/-- The counters are there, and the next attempt's id is new. -/
structure Ready (disk : Disk) (nextAttemptId : Nat) : Prop extends Balanced disk where
  present : disk.counters.isSome
  fresh : ∀ id, (disk.attempts.get? id).isSome → id < nextAttemptId

/-- The segment that is written is open, for the writer and for the ledger. -/
structure Working (disk : Disk) (active : ActiveSegment) (nextAttemptId : Nat) : Prop
    extends Ready disk nextAttemptId where
  state : active.metadata.state = .open
  row : ∃ row, disk.segments.get? active.metadata.segmentId = some row ∧ row.state = .open

/-- The captures and attempts are the same. -/
structure SameEntries (before after : Disk) : Prop where
  captures : after.captures = before.captures
  attempts : after.attempts = before.attempts

/-- A command that stopped without entering anything; unless it had already marked the segment
as sealed the writer can go on. -/
structure Halted (before : Disk) (world : World) : Prop where
  ready : Ready world.disk world.nextAttemptId
  same : SameEntries before world.disk
  working : world.active.metadata.state = .open →
    Working world.disk world.active world.nextAttemptId

theorem SameEntries.refl (disk : Disk) : SameEntries disk disk := ⟨rfl, rfl⟩

theorem SameEntries.trans {first second third : Disk} (h : SameEntries first second)
    (h' : SameEntries second third) : SameEntries first third :=
  ⟨h'.captures.trans h.captures, h'.attempts.trans h.attempts⟩

theorem Working.hold {disk : Disk} {active : ActiveSegment} {next : Nat}
    (h : Working disk active next) :
    ∀ row, disk.segments.get? active.metadata.segmentId = some row → row.state = .open := by
  intro row hrow
  obtain ⟨other, hother, hopen⟩ := h.row
  rw [hrow] at hother
  cases hother
  exact hopen

/-- Inserting a segment's row under its id keeps the rows under their ids. -/
theorem segmentIds_insert {disk : Disk} (h : Sound disk) (metadata : SegmentMetadata) :
    ∀ id row, (disk.segments.insert metadata.segmentId metadata).get? id = some row →
      row.segmentId = id := by
  intro id row hrow
  rw [Table.get?_insert] at hrow
  split_ifs at hrow with hid
  · cases hrow
    exact hid.symm
  · exact h.segmentIds id row hrow

end Invariant

section Commands

variable {sha256 : Bytes → String} {config : StoreConfig} {world : World}

theorem counts_sealActive (h : Working world.disk world.active world.nextAttemptId)
    (hrecords : world.active.metadata.records ≠ 0) :
    Eff.Wp (sealActive sha256 config)
      (fun _ next => Ready next.disk next.nextAttemptId ∧ SameEntries world.disk next.disk ∧
        next.active.metadata.state = .sealed)
      (fun _ next => Halted world.disk next) world := by
  have hhalted : ∀ next : World, next.disk = { world.disk with files := next.disk.files } →
      next.nextAttemptId = world.nextAttemptId →
      next.active.metadata = world.active.metadata ∨ next.active.metadata.state = .sealed →
      Halted world.disk next := by
    intro next hdisk hnext hactive
    have hready : Ready next.disk next.nextAttemptId := by
      rw [hdisk, hnext]
      exact ⟨⟨⟨h.accepted, h.segmentIds⟩, h.counters⟩, h.present, h.fresh⟩
    refine ⟨hready, by rw [hdisk]; exact ⟨rfl, rfl⟩, fun hopen => ?_⟩
    rcases hactive with hsame | hsealed
    · refine ⟨hready, hopen, ?_⟩
      rw [hsame, hdisk]
      exact h.row
    · rw [hsealed] at hopen
      cases hopen
  rw [sealActive, Eff.wp_bind, Eff.wp_get, Eff.wp_ite]
  refine ⟨fun hzero => absurd hzero hrecords, fun _ => ?_⟩
  rw [Eff.wp_bind]
  apply wp_sync
  · exact fun _ _ _ _ => hhalted _ rfl rfl (Or.inl rfl)
  intro environment _
  rw [Eff.wp_bind]
  apply wp_rename
  · exact fun _ _ => hhalted _ rfl rfl (Or.inl rfl)
  · exact fun _ _ _ _ => hhalted _ rfl rfl (Or.inl rfl)
  intro content environment _ _
  rw [Eff.wp_bind]
  apply wp_sync
  · exact fun _ _ _ _ => hhalted _ rfl rfl (Or.inl rfl)
  intro environment _
  rw [Eff.wp_bind]
  apply wp_utcNow
  intro time environment _
  rw [Eff.wp_bind, onActive, Eff.wp_modify, Eff.wp_bind, Eff.wp_get, Eff.wp_bind]
  apply wp_readCounters
  · exact fun _ _ => hhalted _ rfl rfl (Or.inr rfl)
  intro counters hcounters
  rw [Eff.wp_bind]
  apply wp_effect
  · exact fun _ _ _ _ => hhalted _ rfl rfl (Or.inr rfl)
  intro environment _
  rw [Eff.wp_pure]
  refine ⟨⟨⟨⟨?_, ?_⟩, ?_⟩, rfl, h.fresh⟩, ⟨rfl, rfl⟩, rfl⟩
  · exact h.accepted
  · exact segmentIds_insert h.toSound _
  · intro sealedCounters hsealed
    obtain ⟨row, hrow, hopen⟩ := h.row
    cases hsealed
    rw [h.counters counters hcounters]
    exact (@countersFromTables_seal world.disk
      { world.active.metadata with
        path := world.active.path.sealedName
        state := .sealed
        sealedAt := some time
        sha256 := some (sha256 world.active.digest) } row rfl hrow hopen).symm

theorem counts_createActiveSegment {nextAttemptId : Nat} (h : Ready world.disk nextAttemptId) :
    Eff.Wp (createActiveSegment config)
      (fun active next => Working next.disk active nextAttemptId ∧
        SameEntries world.disk next.disk ∧ next.nextAttemptId = world.nextAttemptId)
      (fun _ next => Ready next.disk nextAttemptId ∧ SameEntries world.disk next.disk ∧
        next.active = world.active ∧ next.nextAttemptId = world.nextAttemptId) world := by
  rw [createActiveSegment, Eff.wp_bind, Eff.wp_get, Eff.wp_bind]
  apply wp_createNew
  · exact fun _ _ => ⟨h, ⟨rfl, rfl⟩, rfl, rfl⟩
  · exact fun _ _ _ _ => ⟨h, ⟨rfl, rfl⟩, rfl, rfl⟩
  intro environment _ _
  have hnext : Ready { world.disk with
      files := world.disk.files.insert (openFile (Disk.nextKey world.disk.segments)) [] }
      nextAttemptId := ⟨⟨⟨h.accepted, h.segmentIds⟩, h.counters⟩, h.present, h.fresh⟩
  rw [Eff.wp_bind]
  apply wp_sync
  · exact fun _ _ _ _ => ⟨hnext, ⟨rfl, rfl⟩, rfl, rfl⟩
  intro environment _
  rw [Eff.wp_bind]
  apply wp_utcNow
  intro time environment _
  rw [Eff.wp_bind]
  apply wp_effect
  · exact fun _ _ _ _ => ⟨hnext, ⟨rfl, rfl⟩, rfl, rfl⟩
  intro environment _
  rw [Eff.wp_pure]
  refine ⟨⟨⟨⟨⟨?_, ?_⟩, ?_⟩, h.present, h.fresh⟩, rfl, ?_⟩, ⟨rfl, rfl⟩, rfl⟩
  · exact h.accepted
  · exact segmentIds_insert h.toSound ⟨_, _, .open, 0, 0, _, none, none⟩
  · intro counters hcounters
    rw [h.counters counters hcounters]
    apply (@countersFromTables_open world.disk
      ⟨Disk.nextKey world.disk.segments, openFile (Disk.nextKey world.disk.segments), .open, 0, 0,
        time, none, none⟩ rfl _).symm
    intro row hrow
    exact absurd (get?_nextKey.symm.trans hrow) (by simp)
  · exact ⟨_, Table.get?_insert_self _ _ _, rfl⟩

theorem counts_rotate (h : Working world.disk world.active world.nextAttemptId)
    (hrecords : world.active.metadata.records ≠ 0) :
    Eff.Wp (rotate sha256 config)
      (fun _ next => Working next.disk next.active next.nextAttemptId ∧
        SameEntries world.disk next.disk)
      (fun _ next => Halted world.disk next) world := by
  rw [rotate, Eff.wp_bind]
  apply (counts_sealActive h hrecords).mono _ fun _ _ h => h
  rintro finished next ⟨hnext, hsame, hsealed⟩
  rw [Eff.wp_bind]
  apply (counts_createActiveSegment hnext).mono
  · rintro active last ⟨hlast, hsame', hid⟩
    rw [Eff.wp_bind, onActive, Eff.wp_modify, Eff.wp_pure]
    dsimp only
    rw [hid]
    exact ⟨hlast, hsame.trans hsame'⟩
  · rintro stop last ⟨hlast, hsame', hactive, hid⟩
    rw [← hid] at hlast
    refine ⟨hlast, hsame.trans hsame', fun hopen => ?_⟩
    rw [hactive, hsealed] at hopen
    cases hopen

theorem Working.addRecord {disk : Disk} {active : ActiveSegment} {next : Nat}
    (h : Working disk active next) (record : CaptureRecord) (files : Table SegmentFile Bytes) :
    Working { disk with files } (active.addRecord record) next :=
  ⟨⟨⟨⟨h.accepted, h.segmentIds⟩, h.counters⟩, h.present, h.fresh⟩, h.state, h.row⟩

theorem counts_writeRecord (h : Working world.disk world.active world.nextAttemptId)
    (task : Nat × CaptureRecord) :
    Eff.Wp (writeRecord sha256 config task)
      (fun row next => Locates task row ∧ Working next.disk next.active next.nextAttemptId ∧
        SameEntries world.disk next.disk)
      (fun _ next => Balanced next.disk) world := by
  have hroom : Eff.Wp (makeRoom sha256 config task.2)
      (fun _ next => Working next.disk next.active next.nextAttemptId ∧
        SameEntries world.disk next.disk)
      (fun _ next => Balanced next.disk) world := by
    rw [makeRoom, Eff.wp_bind, Eff.wp_get, Eff.wp_ite]
    constructor
    · intro hfull
      rw [Eff.wp_bind]
      apply (counts_rotate h (Nat.ne_of_gt hfull.1)).mono
      · exact fun _ _ h => h
      · exact fun _ _ h => h.ready.toBalanced
    · exact fun _ => ⟨h, SameEntries.refl _⟩
  rw [writeRecord, Eff.wp_bind]
  apply hroom.mono _ fun _ _ h => h
  rintro _ next ⟨hnext, hsame⟩
  have hfiles : ∀ files, Balanced { next.disk with files } := fun files =>
    ⟨⟨hnext.accepted, hnext.segmentIds⟩, hnext.counters⟩
  rw [Eff.wp_bind, Eff.wp_get, Eff.wp_bind]
  apply wp_writeAll
  · exact fun _ _ _ _ _ => hfiles _
  intro environment _
  rw [Eff.wp_bind]
  apply wp_writeAll
  · exact fun _ _ _ _ _ => hfiles _
  intro environment _
  rw [Eff.wp_bind, onActive, Eff.wp_modify, Eff.wp_pure]
  exact ⟨⟨rfl, rfl, rfl⟩, hnext.addRecord task.2 _, hsame.captures, hsame.attempts⟩

/-- Looking up the originals of duplicates changes nothing. -/
theorem counts_resolveDuplicates {primaries : Table Nat CaptureLocator}
    {duplicates : List ((Nat × CaptureRecord) × DuplicateSource)} (h : Balanced world.disk) :
    Eff.Wp (Eff.forEach duplicates (resolveDuplicate primaries))
      (fun resolved next => resolved.length = duplicates.length ∧ next = world)
      (fun _ next => Balanced next.disk) world := by
  have hloop := @Eff.wp_forEach World Stop ((Nat × CaptureRecord) × CaptureLocator)
    (fun _ next => Balanced next.disk) world _ (resolveDuplicate primaries) duplicates
    (fun _ _ => True) (· = world) ?_ rfl
  · apply hloop.mono _ fun _ _ h => h
    rintro resolved next ⟨hresolved, hnext⟩
    exact ⟨hresolved.length_eq.symm, hnext⟩
  rintro ⟨task, source⟩ _ next rfl
  rw [resolveDuplicate]
  cases source with
  | existing locator => exact ⟨trivial, rfl⟩
  | batch index =>
      dsimp only
      cases primaries.get? index with
      | some locator => exact ⟨trivial, rfl⟩
      | none => exact h

/-- Neither does answering. -/
theorem counts_batchResults {tasks : List (Nat × CaptureRecord)}
    {pending duplicates : Table Nat CaptureLocator} {conflicts : List Nat}
    (h : Balanced world.disk) :
    Eff.Wp (batchResults tasks pending duplicates conflicts) (fun _ next => next = world)
      (fun _ next => Balanced next.disk) world := by
  rw [batchResults]
  refine Eff.Wp.mono (@Eff.wp_forEach World Stop _ _ world _ _ tasks (fun _ _ => True) (· = world)
    ?_ rfl) (fun _ _ h => h.2) fun _ _ h => h
  rintro task _ next rfl
  split
  · exact ⟨trivial, rfl⟩
  · split
    · exact ⟨trivial, rfl⟩
    · rw [Eff.wp_ite]
      exact ⟨fun _ => ⟨trivial, rfl⟩, fun _ => h⟩

theorem counts_rotateIfFull (h : Working world.disk world.active world.nextAttemptId)
    {results : List (Except SubmitError SubmitAck)} {counters : LedgerCounters}
    {metadata : SegmentMetadata} (hmetadata : world.active.metadata = metadata)
    (hcounters : counters = world.disk.countersFromTables) :
    Eff.Wp
      (if 0 < metadata.records then do
        let aged ← isAged
        if config.segmentMaxBytes ≤ metadata.bytes ∨ aged = true then do
          let _ ← rotate sha256 config
          let counters ← readCounters
          pure (BatchCommit.mk results counters)
        else pure (BatchCommit.mk results counters)
      else pure (BatchCommit.mk results counters))
      (fun commit next => Working next.disk next.active next.nextAttemptId ∧
        commit.counters = next.disk.countersFromTables)
      (fun _ next => Balanced next.disk) world := by
  subst hmetadata
  rw [Eff.wp_ite]
  constructor
  · intro hrecords
    rw [Eff.wp_bind]
    apply wp_isAged
    intro aged environment _
    rw [Eff.wp_ite]
    constructor
    · intro _
      rw [Eff.wp_bind]
      have hrotate := @counts_rotate sha256 config { world with environment } h
        (Nat.ne_of_gt hrecords)
      apply hrotate.mono _ fun _ _ h => h.ready.toBalanced
      rintro _ rotated ⟨hrotated, _⟩
      rw [Eff.wp_bind]
      apply wp_readCounters
      · exact fun _ _ => hrotated.toBalanced
      intro counters hcounters
      exact ⟨hrotated, hrotated.counters counters hcounters⟩
    · exact fun _ => ⟨h, hcounters⟩
  · exact fun _ => ⟨h, hcounters⟩

/-- A commit leaves the counters that the tables imply and reports them. -/
theorem counts_commitBatchInner (h : Working world.disk world.active world.nextAttemptId)
    {batch : List CaptureRecord} (hbatch : batch ≠ []) :
    Eff.Wp (commitBatchInner sha256 config batch)
      (fun commit next => Working next.disk next.active next.nextAttemptId ∧
        commit.counters = next.disk.countersFromTables)
      (fun _ next => Balanced next.disk) world := by
  have hlength : (batch.zipIdx.map fun task => (task.2, task.1)).length = batch.length := by
    rw [List.length_map, List.length_zipIdx]
  rw [commitBatchInner, Eff.wp_bind, Eff.wp_get]
  generalize batch.zipIdx.map (fun task => (task.2, task.1)) = tasks at *
  obtain ⟨hfirsts, hduplicates, hconflicts⟩ := sortBatch_eq world.disk.captures tasks
  dsimp only
  rw [Eff.wp_bind]
  have hwrite := @Eff.wp_forEach World Stop (Nat × CaptureLocator)
    (fun _ next => Balanced next.disk) world (Nat × CaptureRecord)
    (writeRecord sha256 config) (sortBatch world.disk.captures tasks).pending Locates
    (fun next => Working next.disk next.active next.nextAttemptId ∧
      SameEntries world.disk next.disk)
    (fun task _ next hnext => (counts_writeRecord hnext.1 task).mono
      (fun _ _ hafter => ⟨hafter.1, hafter.2.1, hnext.2.trans hafter.2.2⟩) fun _ _ h => h)
    ⟨h, SameEntries.refl _⟩
  apply hwrite.mono _ fun _ _ h => h
  rintro pending next ⟨hpending, hnext, hsame⟩
  have hsync : Eff.Wp (syncWritten config pending)
      (fun _ synced => synced.disk = next.disk ∧ synced.active = next.active ∧
        synced.nextAttemptId = next.nextAttemptId)
      (fun _ synced => Balanced synced.disk) next := by
    rw [syncWritten, Eff.wp_ite]
    refine ⟨fun _ => ⟨rfl, rfl, rfl⟩, fun _ => ?_⟩
    apply wp_sync
    · exact fun _ _ _ _ => hnext.toBalanced
    · exact fun _ _ => ⟨rfl, rfl, rfl⟩
  rw [Eff.wp_bind]
  apply hsync.mono _ fun _ _ h => h
  rintro _ synced ⟨hdisk, hactive, hnextId⟩
  rw [← hdisk, ← hactive, ← hnextId] at hnext
  rw [← hdisk] at hsame
  rw [Eff.wp_bind]
  apply (counts_resolveDuplicates hnext.toBalanced).mono _ fun _ _ h => h
  rintro duplicates resolved ⟨hresolved, rfl⟩
  rw [Eff.wp_bind]
  apply wp_utcNow
  intro now environment _
  rw [Eff.wp_bind]
  apply wp_readCounters
  · exact fun _ _ => hnext.toBalanced
  intro counters hcounters
  rw [Eff.wp_bind, Eff.wp_get, Eff.wp_bind, Eff.wp_modify, Eff.wp_bind]
  apply wp_effect
  · exact fun _ _ _ _ => hnext.toBalanced
  intro environment _
  have hattempts : batch.length = pending.length + duplicates.length +
      (sortBatch world.disk.captures tasks).conflicts.length := by
    have hdecided := length_decided (decided world.disk.captures .empty tasks)
    have htasks := congrArg List.length (@decided_map_fst world.disk.captures .empty tasks)
    rw [List.length_map] at htasks
    rw [← hpending.length_eq, hresolved, hfirsts, hduplicates, hconflicts, hdecided, htasks,
      hlength]
  have hids : pending.map (fun row => row.2.captureId) =
      ((decided world.disk.captures .empty tasks).filterMap firstOf).map
        fun task => task.2.captureId := by
    rw [← hfirsts]
    exact hpending.map_eq fun _ _ hlocates => hlocates.captureId
  have hnew : ∀ row ∈ pending, resolved.disk.captures.get? row.2.captureId = none := by
    intro row hrow
    obtain ⟨task, htask, hlocates⟩ := hpending.exists_left hrow
    rw [hfirsts] at htask
    rw [hsame.captures, hlocates.captureId]
    exact (firsts_new htask).1
  have hentered := @countersFromTables_commit resolved.disk now
    (sortBatch world.disk.captures tasks) pending duplicates resolved.active.metadata
    resolved.nextAttemptId batch.length hnext.fresh hpending.length_eq.symm hattempts
    (List.length_pos_iff.mpr hbatch) (by rw [hids]; exact nodup_firsts _ _) hnew hnext.state
    hnext.hold
  have hworking : Working { resolved.disk with
      captures := resolved.disk.captures.insertAll
        (pending.map fun row : Nat × CaptureLocator => (row.2.captureId, row.2))
      attempts := resolved.disk.attempts.insertAll (numberRows resolved.nextAttemptId
        (attemptRows now (sortBatch world.disk.captures tasks) pending duplicates))
      segments := resolved.disk.segments.insert resolved.active.metadata.segmentId
        resolved.active.metadata
      counters := some (counters.addBatch batch.length pending.length duplicates.length
        (sortBatch world.disk.captures tasks).conflicts.length now) } resolved.active
      (resolved.nextAttemptId +
        (attemptRows now (sortBatch world.disk.captures tasks) pending duplicates).length) := by
    refine ⟨⟨⟨⟨?_, segmentIds_insert hnext.toSound _⟩, ?_⟩, rfl, ?_⟩, hnext.state,
      ⟨_, Table.get?_insert_self _ _ _, hnext.state⟩⟩
    · have haccepted := congrArg LedgerCounters.acceptedAttempts hentered
      have hcaptures := congrArg LedgerCounters.captures hentered
      have hbefore := hnext.accepted
      simp only [LedgerCounters.addBatch] at haccepted hcaptures
      exact (hcaptures.trans (by rw [← hbefore]; rfl)).trans haccepted.symm
    · intro entered hentered'
      cases hentered'
      rw [hnext.counters counters hcounters]
      exact hentered.symm
    · intro id hid
      obtain ⟨attempt, hattempt⟩ := Option.isSome_iff_exists.mp hid
      rcases Table.mem_or_of_get?_insertAll hattempt with hrow | hold
      · exact (le_of_mem_numberRows hrow).2
      · have hlt := hnext.fresh id (Option.isSome_iff_exists.mpr ⟨_, hold⟩)
        omega
  rw [Eff.wp_bind]
  apply (counts_batchResults ?_).mono _ fun _ _ h => h
  · exact hworking.toBalanced
  rintro results _ rfl
  refine counts_rotateIfFull hworking rfl ?_
  rw [hnext.counters counters hcounters]
  exact hentered.symm

/-- What a flush reports are the counters that the tables imply. -/
theorem counts_sealAndRotate (h : Working world.disk world.active world.nextAttemptId) :
    Eff.Wp (sealAndRotate sha256 config)
      (fun flushed next => Working next.disk next.active next.nextAttemptId ∧
        SameEntries world.disk next.disk ∧
        ∀ counters, flushed.2 = some counters → counters = next.disk.countersFromTables)
      (fun _ next => Halted world.disk next) world := by
  have hhalted : ∀ environment, Halted world.disk { world with environment } :=
    fun _ => ⟨h.toReady, SameEntries.refl _, fun _ => h⟩
  rw [sealAndRotate, Eff.wp_bind, Eff.wp_get, Eff.wp_ite]
  constructor
  · intro _
    rw [Eff.wp_bind]
    apply wp_sync
    · exact fun _ environment _ _ => hhalted environment
    intro environment _
    exact ⟨h, SameEntries.refl _, fun _ hnone => by cases hnone⟩
  · intro hrecords
    rw [Eff.wp_bind]
    apply (counts_rotate h hrecords).mono _ fun _ _ h => h
    rintro finished next ⟨hnext, hsame⟩
    rw [Eff.wp_bind]
    apply wp_readCounters
    · exact fun _ _ => ⟨hnext.toReady, hsame, fun _ => hnext⟩
    intro counters hcounters
    refine ⟨hnext, hsame, fun reported hreported => ?_⟩
    cases hreported
    exact hnext.counters counters hcounters

theorem counts_shutdownActive (h : Working world.disk world.active world.nextAttemptId) :
    Eff.Wp (shutdownActive sha256 config) (fun _ next => Balanced next.disk)
      (fun _ next => Balanced next.disk) world := by
  rw [shutdownActive, Eff.wp_bind, Eff.wp_get, Eff.wp_ite]
  constructor
  · intro _
    apply wp_sync
    · exact fun _ _ _ _ => h.toBalanced
    · exact fun _ _ => h.toBalanced
  · intro hrecords
    rw [Eff.wp_bind]
    apply (counts_sealActive h hrecords).mono
    · exact fun _ _ hsealed => hsealed.1.toBalanced
    · exact fun _ _ hhalted => hhalted.ready.toBalanced

end Commands

end ChipTrace.CaptureStore
