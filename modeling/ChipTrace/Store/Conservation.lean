/-
The counters along whole runs: an opening that is not cut off between what it
enters and its count, and a flush that does not fail half way, keep the counters
equal to the tables, and with them the audit of the running shards.
-/
import ChipTrace.Store.Accounts
import ChipTrace.Lib.Decimal

namespace ChipTrace.CaptureStore

section Recovery

variable {sha256 : Bytes → String} {config : StoreConfig} {world : World}

/-- What recovery has entered is sound, and until something was entered the counters are those
that the tables imply. -/
structure Tracks (summary : Recovered) (disk : Disk) : Prop extends Sound disk where
  present : disk.counters.isSome
  fresh : ∀ id, (disk.attempts.get? id).isSome → id < summary.nextAttemptId
  exact : summary.ledgerChanged = false → disk.counters = some disk.countersFromTables

/-- An opening up to the count of what it entered. -/
def recover (sha256 : Bytes → String) : StoreM Nat := do
  initializeDatabase
  recoverSegments sha256

theorem openWriter_eq : openWriter sha256 config = (do
    let recovered ← recover sha256
    let (active, nextAttemptId) ← openActiveSegment config
    Eff.modify fun world => { world with active, nextAttemptId }
    let counters ← readCounters
    pure (recovered, counters)) := by
  funext world
  rw [openWriter, recover]
  simp only [Eff.bind_apply]
  cases initializeDatabase world with
  | mk result next => cases result <;> rfl

/-- The same tables, with counters that they imply. -/
theorem Balanced.of_same {before after : Disk} (h : Balanced before)
    (hsame : after.captures = before.captures ∧ after.attempts = before.attempts ∧
      after.segments = before.segments)
    (hcounters : ∀ counters, after.counters = some counters →
      counters = before.countersFromTables) : Balanced after := by
  have htables : after.countersFromTables = before.countersFromTables := by
    rw [Disk.countersFromTables, Disk.countersFromTables, hsame.1, hsame.2.1, hsame.2.2]
  refine ⟨⟨?_, ?_⟩, ?_⟩
  · rw [htables, hsame.1]
    exact h.accepted
  · rw [hsame.2.2]
    exact h.segmentIds
  · rw [htables]
    exact hcounters

theorem counts_initializeDatabase (h : Balanced world.disk) :
    Eff.Wp initializeDatabase
      (fun _ next => Balanced next.disk ∧ next.disk.counters.isSome ∧
        next.disk.captures = world.disk.captures ∧ next.disk.attempts = world.disk.attempts ∧
        next.disk.segments = world.disk.segments)
      (fun _ next => Balanced next.disk) world := by
  rw [initializeDatabase, Eff.wp_bind, Eff.wp_get]
  dsimp only
  rw [Eff.wp_ite]
  constructor
  · exact fun _ => h
  · intro _
    apply wp_effect
    · exact fun _ _ _ _ => h
    intro environment _
    refine ⟨h.of_same ⟨rfl, rfl, rfl⟩ ?_, rfl, rfl, rfl, rfl⟩
    intro counters hcounters
    cases hbefore : world.disk.counters with
    | none =>
        simp only [hbefore, Option.getD_none] at hcounters
        exact (Option.some.inj hcounters).symm
    | some before =>
        simp only [hbefore, Option.getD_some] at hcounters
        rw [← Option.some.inj hcounters]
        exact h.counters before hbefore

/-- A recovered capture is entered with an attempt that counts as accepted. -/
theorem sound_enter {disk : Disk} {locator : CaptureLocator} {attempt : Attempt} {id : Nat}
    (h : Sound disk) (hcapture : disk.captures.get? locator.captureId = none)
    (hattempt : disk.attempts.get? id = none) (hstate : attempt.state = .recovered) :
    Sound { disk with
      captures := disk.captures.insert locator.captureId locator
      attempts := disk.attempts.insert id attempt } := by
  refine ⟨?_, h.segmentIds⟩
  have hbefore := h.accepted
  rw [Table.len_eq_weigh] at hbefore
  change (disk.captures.insert locator.captureId locator).len =
    (disk.attempts.insert id attempt).weigh fun _ attempt =>
      if attempt.state == .accepted || attempt.state == .recovered then 1 else 0
  rw [Table.len_eq_weigh, Table.weigh_insert_of_none _ _ hcapture,
    Table.weigh_insert_of_none _ _ hattempt, hbefore, hstate]
  rfl

/-- The rows that are entered keep the ledger sound, and nothing changes where nothing is
entered. -/
structure Enters (before after : Recovered) : Prop where
  sound : Sound after.disk
  fresh : ∀ id, (after.disk.attempts.get? id).isSome → id < after.nextAttemptId
  counters : after.disk.counters = before.disk.counters
  segments : after.disk.segments = before.disk.segments
  unchanged : after.ledgerChanged = false → after.disk = before.disk ∧
    before.ledgerChanged = false

theorem counts_recoverRows (recovered : Recovered) (rows : List CaptureLocator)
    (hsound : Sound recovered.disk)
    (hfresh : ∀ id, (recovered.disk.attempts.get? id).isSome → id < recovered.nextAttemptId) :
    Eff.Wp (recoverRows recovered rows)
      (fun entered next => next.disk = world.disk ∧ Enters recovered entered)
      (fun _ next => next.disk = world.disk) world := by
  induction rows generalizing recovered world with
  | nil => exact ⟨rfl, hsound, hfresh, rfl, rfl, fun h => ⟨rfl, h⟩⟩
  | cons locator rest ih =>
      rw [recoverRows, Eff.wp_bind, recoverRow]
      cases hcapture : recovered.disk.captures.get? locator.captureId with
      | some existing =>
          dsimp only
          rw [Eff.wp_ite]
          constructor
          · exact fun _ => rfl
          · exact fun _ => ih recovered hsound hfresh
      | none =>
          dsimp only
          rw [Eff.wp_bind]
          apply wp_utcNow
          intro committedAt environment _
          rw [Eff.wp_pure]
          have hattempt : recovered.disk.attempts.get? recovered.nextAttemptId = none := by
            by_contra hsome
            exact absurd (hfresh _ (Option.isSome_iff_ne_none.mpr hsome)) (Nat.lt_irrefl _)
          apply (ih _ (sound_enter hsound hcapture hattempt rfl) _).mono
          · rintro entered next ⟨hnext, henters⟩
            refine ⟨hnext, henters.sound, henters.fresh, henters.counters, henters.segments, ?_⟩
            intro hchanged
            cases (henters.unchanged hchanged).2
          · exact fun _ _ h => h
          · intro id hid
            dsimp only at hid
            rw [Table.get?_insert] at hid
            split_ifs at hid with hsame
            · rw [hsame]
              exact Nat.lt_succ_self _
            · exact Nat.lt_succ_of_lt (hfresh id hid)

theorem counts_cutTail {file : SegmentFile} {content tail : Bytes} :
    Eff.Wp (cutTail file content tail)
      (fun _ next => ∃ files, next.disk = { world.disk with files })
      (fun _ next => next.disk = world.disk) world := by
  rw [cutTail, Eff.wp_ite]
  refine ⟨fun _ => ⟨_, rfl⟩, fun _ => ?_⟩
  rw [Eff.wp_ite]
  refine ⟨fun _ => rfl, fun _ => ?_⟩
  apply wp_effect
  · exact fun _ _ _ _ => rfl
  · exact fun _ _ => ⟨_, rfl⟩

/-- Recovering a file keeps track: what is entered is sound, and whatever changes the tables is
remembered. -/
theorem counts_recoverSegment (summary : Recovered) (file : SegmentFile)
    (h : Tracks summary world.disk) :
    Eff.Wp (recoverSegment sha256 summary file)
      (fun entered next => Tracks entered next.disk ∧ next.disk.counters = world.disk.counters)
      (fun _ next => next.disk.counters = world.disk.counters) world := by
  rw [recoverSegment, Eff.wp_bind, Eff.wp_get]
  dsimp only
  rw [Eff.wp_ite]
  refine ⟨fun _ => ⟨h, rfl⟩, fun _ => ?_⟩
  rw [Eff.wp_bind, Eff.wp_lift]
  refine ⟨fun rows _ => ?_, fun _ _ => rfl⟩
  rw [Eff.wp_bind]
  apply counts_cutTail.mono _ fun _ _ hsame => by rw [hsame]
  rintro _ cut ⟨files, hcut⟩
  rw [Eff.wp_bind]
  apply wp_utcNow
  intro createdAt _ _
  rw [Eff.wp_bind]
  apply wp_utcNow
  intro sealedAt _ _
  rw [Eff.wp_bind, Eff.wp_get, Eff.wp_bind]
  dsimp only
  rw [hcut]
  apply (counts_recoverRows _ rows ⟨h.accepted, h.segmentIds⟩ h.fresh).mono
  · rintro entered next ⟨hnext, henters⟩
    dsimp only at hnext henters
    rw [Eff.wp_bind]
    apply wp_effect
    · intro _ _ _ _
      dsimp only
      rw [hnext]
    intro environment _
    rw [Eff.wp_pure]
    refine ⟨⟨⟨henters.sound.accepted, ?_⟩, ?_, henters.fresh, ?_⟩, henters.counters⟩
    · exact segmentIds_insert henters.sound
        (recoveredMetadata sha256 file _ _ _ createdAt sealedAt)
    · dsimp only
      rw [henters.counters]
      exact h.present
    · intro hchanged
      obtain ⟨hentered, hsettled⟩ := Bool.or_eq_false_iff.mp hchanged
      obtain ⟨hdisk, hbefore⟩ := henters.unchanged hentered
      have hrow := bne_eq_false_iff_eq.mp hsettled
      dsimp only
      rw [hdisk]
      dsimp only
      rw [Table.insert_eq_self _ hrow]
      exact h.exact hbefore
  · intro _ next hnext
    rw [hnext]

theorem counts_recoverFiles (summary : Recovered) (files : List SegmentFile)
    (h : Tracks summary world.disk) :
    Eff.Wp (recoverFiles sha256 summary files)
      (fun entered next => Tracks entered next.disk ∧ next.disk.counters = world.disk.counters)
      (fun _ next => next.disk.counters = world.disk.counters) world := by
  induction files generalizing summary world with
  | nil => exact ⟨h, rfl⟩
  | cons file rest ih =>
      rw [recoverFiles, Eff.wp_bind]
      apply (counts_recoverSegment summary file h).mono _ fun _ _ h => h
      rintro entered next ⟨hnext, hsame⟩
      rw [← hsame]
      exact ih entered hnext

/-- An opening that goes through has counted whatever it entered; one that does not has left the
counters. -/
theorem counts_recoverSegments (h : Balanced world.disk) (hpresent : world.disk.counters.isSome) :
    Eff.Wp (recoverSegments sha256)
      (fun _ next => Balanced next.disk ∧ next.disk.counters.isSome)
      (fun _ next => next.disk.counters = world.disk.counters) world := by
  obtain ⟨counters, hcounters⟩ := Option.isSome_iff_exists.mp hpresent
  have htracks : Tracks ⟨world.disk, Disk.nextKey world.disk.attempts, 0, false⟩ world.disk := by
    refine ⟨h.toSound, hpresent, fun id hid => lt_nextKey hid, fun _ => ?_⟩
    rw [hcounters, ← h.counters counters hcounters]
  rw [recoverSegments, Eff.wp_bind, Eff.wp_get]
  dsimp only
  rw [Eff.wp_bind]
  apply (counts_recoverFiles _ world.disk.files.keys htracks).mono _ fun _ _ h => h
  rintro summary next ⟨hnext, hsame⟩
  rw [Eff.wp_bind, rebuildIf, Eff.wp_ite]
  constructor
  · intro _
    apply wp_effect
    · exact fun _ _ _ _ => hsame
    intro _ _
    refine ⟨⟨⟨hnext.accepted, hnext.segmentIds⟩, ?_⟩, rfl⟩
    intro rebuilt hrebuilt
    cases hrebuilt
    rfl
  · intro hunchanged
    have hexact := hnext.exact (Bool.eq_false_iff.mpr hunchanged)
    refine ⟨⟨hnext.toSound, fun counters hcounters => ?_⟩, hnext.present⟩
    rw [hexact] at hcounters
    exact (Option.some.inj hcounters).symm

/-- Recovery is cut off without anything entered. -/
def EnteredNothing (before after : Disk) : Prop :=
  after.captures = before.captures ∧ after.attempts = before.attempts ∧
    after.segments = before.segments

theorem counts_recover (h : Balanced world.disk) :
    Eff.Wp (recover sha256) (fun _ next => Balanced next.disk ∧ next.disk.counters.isSome)
      (fun _ next => EnteredNothing world.disk next.disk → Balanced next.disk) world := by
  rw [recover, Eff.wp_bind]
  apply (counts_initializeDatabase h).mono
  · rintro _ initialized ⟨hbalanced, hpresent, hcaptures, hattempts, hsegments⟩
    apply (counts_recoverSegments hbalanced hpresent).mono
    · exact fun _ _ h => h
    · intro _ next hcounters hnothing
      apply hbalanced.of_same
      · rw [hcaptures, hattempts, hsegments]
        exact hnothing
      · rw [hcounters]
        exact hbalanced.counters
  · exact fun _ _ hbalanced _ => hbalanced

theorem counts_openActiveSegment (h : Balanced world.disk)
    (hpresent : world.disk.counters.isSome) :
    Eff.Wp (openActiveSegment config)
      (fun opened next => Working next.disk opened.1 opened.2)
      (fun _ next => Balanced next.disk) world := by
  have hready : Ready world.disk (Disk.nextKey world.disk.attempts) :=
    ⟨h, hpresent, fun id hid => lt_nextKey hid⟩
  rw [openActiveSegment, Eff.wp_bind, Eff.wp_get]
  dsimp only
  split
  · rw [Eff.wp_bind]
    apply (counts_createActiveSegment hready).mono
    · exact fun _ _ hcreated => hcreated.1
    · exact fun _ _ hstopped => hstopped.1.toBalanced
  · rename_i id metadata hrows
    have hmem : (id, metadata) ∈ world.disk.segments.entries ∧ metadata.state = .open := by
      have hfilter := List.mem_filter.mp (hrows.symm ▸ List.mem_singleton_self (id, metadata))
      exact ⟨hfilter.1, of_decide_eq_true hfilter.2⟩
    have hrow := (world.disk.segments.mem_entries id metadata).mp hmem.1
    cases hcontent : world.disk.files.get? metadata.path with
    | none => exact h
    | some content =>
        refine ⟨hready, hmem.2, metadata, ?_, hmem.2⟩
        dsimp only
        rw [h.segmentIds id metadata hrow]
        exact hrow
  · exact h

/-- After an opening the writer works with counters that the tables imply, and so does the disk
after one that was cut off, where it had not entered anything. -/
theorem counts_openWriter (h : Balanced world.disk) :
    Eff.Wp (openWriter sha256 config)
      (fun opened next => Working next.disk next.active next.nextAttemptId ∧
        opened.2 = next.disk.countersFromTables)
      (fun _ next => (∀ stop cut, recover sha256 world = (.error stop, cut) →
        EnteredNothing world.disk cut.disk) → Balanced next.disk) world := by
  rw [openWriter_eq, Eff.wp_bind, Eff.Wp]
  have hrecover := @counts_recover sha256 world h
  cases hrun : recover sha256 world with
  | mk result next =>
      cases result with
      | error stop => exact fun hnothing => hrecover.error hrun (hnothing stop next rfl)
      | ok recovered =>
          obtain ⟨hbalanced, hpresent⟩ := hrecover.ok hrun
          dsimp only
          rw [Eff.wp_bind]
          apply (counts_openActiveSegment hbalanced hpresent).mono
          · intro opened last hworking
            rw [Eff.wp_bind, Eff.wp_modify, Eff.wp_bind]
            apply wp_readCounters
            · exact fun _ _ _ => hworking.toBalanced
            intro counters hcounters
            exact ⟨hworking, hworking.counters counters hcounters⟩
          · exact fun _ _ hstopped _ => hstopped

end Recovery

section Audit

/-- Attempts of every kind add up to all attempts, and a capture was accepted once. -/
def LedgerCounters.conserved (counters : LedgerCounters) : Bool :=
  counters.attempts == counters.acceptedAttempts + counters.duplicateAttempts +
      counters.conflictAttempts + counters.rejectedAttempts &&
    counters.captures == counters.acceptedAttempts

/-- What a shard shows of its counters; before anything was reported all are zero. -/
def Store.shown (store : Store) : LedgerCounters :=
  (store.runtime.map RuntimeState.counters).getD ⟨0, 0, 0, 0, 0, 0, 0, 0, none⟩

/-- The shards whose shown counters are not conserved. -/
def runtimeAudit (shards : List Store) : List String :=
  shards.zipIdx.filterMap fun shard =>
    if shard.1.shown.conserved then none
    else some s!"attempt_conservation:shard-{String.ofList (Decimal.padded 5 shard.2)}"

theorem attempts_eq (disk : Disk) : disk.countersFromTables.attempts =
    disk.countersFromTables.acceptedAttempts + disk.countersFromTables.duplicateAttempts +
      disk.countersFromTables.conflictAttempts + disk.countersFromTables.rejectedAttempts := by
  simp only [Disk.countersFromTables]
  rw [Table.len_eq_weigh, ← Table.weigh_add, ← Table.weigh_add, ← Table.weigh_add]
  congr 1
  funext _ attempt
  cases attempt.state <;> rfl

theorem Sound.conserved {disk : Disk} (h : Sound disk) :
    disk.countersFromTables.conserved = true := by
  have hcaptures : disk.countersFromTables.captures =
      disk.countersFromTables.acceptedAttempts := h.accepted
  rw [LedgerCounters.conserved, attempts_eq, hcaptures, beq_self_eq_true, beq_self_eq_true]
  rfl

end Audit

section Runs

variable (sha256 : Bytes → String) (config : StoreConfig)

/-- What the audit of the shards reads. -/
def LedgerCounters.entries (counters : LedgerCounters) : List Nat :=
  [counters.captures, counters.attempts, counters.acceptedAttempts, counters.duplicateAttempts,
    counters.conflictAttempts, counters.rejectedAttempts]

/-- The counters are those that the tables imply, they are conserved, and a writer that serves
shows them. -/
structure CountersExact (store : Store) : Prop where
  counters : ∀ counters, store.disk.counters = some counters →
    counters = store.disk.countersFromTables
  present : store.writer.isSome → store.disk.counters.isSome
  conserved : store.disk.countersFromTables.conserved
  shown : store.writer.isSome → store.shown.entries = store.disk.countersFromTables.entries

/-- An opening that is cut off during recovery has entered nothing, and a flush that fails has
left the segment open. -/
def Careful (store : Store) (event : Event) : Prop :=
  match event.1 with
  | .open => store.writer = none → ∀ stop cut,
      store.runOn event.2 (recover sha256) = (.error stop, cut) →
      EnteredNothing store.disk cut.disk
  | .flush => store.writer.isSome → ∀ message world,
      store.runOn event.2 (sealAndRotate sha256 config) = (.error (.failed message), world) →
      world.active.metadata.state = .open
  | _ => True

/-- Events at the shards of a store, in any order. -/
def stepShard (shards : List Store) (event : Nat × Event) : List Store :=
  shards.modify event.1 fun store => store.step sha256 config event.2

/-- The disk is balanced, and a writer that serves works and shows the counters. -/
structure Accounted (store : Store) : Prop where
  disk : Balanced store.disk
  writer : ∀ writer, store.writer = some writer →
    Working store.disk writer.active writer.nextAttemptId ∧
      store.shown.entries = store.disk.countersFromTables.entries
  shown : store.shown.conserved

variable {sha256 config} {store : Store}

theorem Accounted.countersExact (h : Accounted store) : CountersExact store := by
  refine ⟨h.disk.counters, fun hwriter => ?_, h.disk.conserved, fun hwriter => ?_⟩
  · obtain ⟨writer, hwriter⟩ := Option.isSome_iff_exists.mp hwriter
    exact (h.writer writer hwriter).1.present
  · obtain ⟨writer, hwriter⟩ := Option.isSome_iff_exists.mp hwriter
    exact (h.writer writer hwriter).2

theorem SameEntries.entries {before after : Disk} (h : SameEntries before after) :
    after.countersFromTables.entries = before.countersFromTables.entries := by
  simp only [LedgerCounters.entries, Disk.countersFromTables, h.captures, h.attempts]

theorem Accounted.crashed {disk : Disk} (h : Balanced disk) : Accounted (Store.crashed disk) :=
  ⟨h, nofun, rfl⟩

theorem Accounted.stops (h : Accounted store) {disk : Disk} (hdisk : Balanced disk)
    (error : Option String) : Accounted (store.stops disk error) := by
  refine ⟨hdisk, nofun, ?_⟩
  have hshown := h.shown
  rw [Store.shown] at hshown ⊢
  rw [Store.stops, Option.map_map]
  exact hshown

/-- A writer that goes on and reports the counters that the tables imply. -/
theorem Accounted.goesOn {world : World}
    (hworking : Working world.disk world.active world.nextAttemptId)
    {counters : LedgerCounters} (hcounters : counters = world.disk.countersFromTables)
    (active : ActiveSegment) (recovered : Nat) :
    Accounted (store.goesOn world (some (Store.reported active counters recovered))) := by
  refine ⟨hworking.toBalanced, ?_, ?_⟩
  · intro writer hwriter
    cases hwriter
    refine ⟨hworking, ?_⟩
    change counters.entries = world.disk.countersFromTables.entries
    rw [hcounters]
  · change counters.conserved = true
    rw [hcounters]
    exact hworking.toSound.conserved

/-- A writer that goes on without a report, the entries as they were. -/
theorem Accounted.goesOn_same (h : Accounted store) {writer : Writer}
    (hwriter : store.writer = some writer) {world : World}
    (hworking : Working world.disk world.active world.nextAttemptId)
    (hsame : SameEntries store.disk world.disk) :
    Accounted (store.goesOn world store.runtime) := by
  refine ⟨hworking.toBalanced, ?_, h.shown⟩
  intro other hother
  cases hother
  refine ⟨hworking, ?_⟩
  rw [Store.goesOn, hsame.entries]
  exact (h.writer writer hwriter).2

theorem accounted_open (environment : Environment) (h : Accounted store)
    (hcareful : Careful sha256 config store (.open, environment)) :
    Accounted (store.stepOpen sha256 config environment) := by
  rw [Store.stepOpen]
  split_ifs with hserving
  · exact h
  · have hnone : store.writer = none := Option.not_isSome_iff_eq_none.mp hserving
    have hopen := @counts_openWriter sha256 config
      ⟨store.disk, Store.inactive, 1, environment⟩ h.disk
    have hcut := hcareful hnone
    cases hrun : store.runOn environment (openWriter sha256 config) with
    | mk result world =>
        rw [Store.runOn, hnone] at hrun hcut
        cases result with
        | error stop => exact Accounted.crashed (hopen.error hrun hcut)
        | ok opened =>
            obtain ⟨hworking, hcounters⟩ := hopen.ok hrun
            exact Accounted.goesOn hworking hcounters _ _

theorem accounted_commit (environment : Environment) (batch : List CaptureRecord)
    (h : Accounted store) : Accounted (store.stepCommit sha256 config environment batch) := by
  rw [Store.stepCommit]
  split_ifs with hidle
  · exact h
  · obtain ⟨hserving, hbatch⟩ := not_or.mp (fun hor => hidle ((Bool.or_eq_true _ _).mpr hor))
    cases hwriter : store.writer with
    | none =>
        rw [hwriter] at hserving
        exact absurd rfl hserving
    | some writer =>
        have hcommit := @counts_commitBatchInner sha256 config
          ⟨store.disk, writer.active, writer.nextAttemptId, environment⟩ (h.writer writer hwriter).1
          batch (fun hnil => hbatch (by rw [hnil]; rfl))
        cases hrun : store.runOn environment (commitBatchInner sha256 config batch) with
        | mk result world =>
            rw [Store.runOn, hwriter] at hrun
            cases result with
            | ok commit =>
                obtain ⟨hworking, hcounters⟩ := hcommit.ok hrun
                exact Accounted.goesOn hworking hcounters _ _
            | error stop =>
                have hbalanced : Balanced world.disk := hcommit.error hrun
                cases stop with
                | failed message => exact h.stops hbalanced _
                | crashed => exact Accounted.crashed hbalanced

theorem accounted_flush (environment : Environment) (h : Accounted store)
    (hcareful : Careful sha256 config store (.flush, environment)) :
    Accounted (store.stepFlush sha256 config environment) := by
  rw [Store.stepFlush]
  split_ifs with hidle
  · exact h
  · cases hwriter : store.writer with
    | none =>
        rw [hwriter] at hidle
        exact absurd rfl hidle
    | some writer =>
        have hflush := @counts_sealAndRotate sha256 config
          ⟨store.disk, writer.active, writer.nextAttemptId, environment⟩ (h.writer writer hwriter).1
        have hopen := hcareful (by rw [hwriter]; rfl)
        cases hrun : store.runOn environment (sealAndRotate sha256 config) with
        | mk result world =>
            rw [Store.runOn, hwriter] at hrun hopen
            cases result with
            | ok flushed =>
                obtain ⟨finished, counters⟩ := flushed
                obtain ⟨hworking, hsame, hcounters⟩ := hflush.ok hrun
                cases counters with
                | none => exact h.goesOn_same hwriter hworking hsame
                | some counters =>
                    exact Accounted.goesOn hworking (hcounters counters rfl) _ _
            | error stop =>
                have hhalted : Halted store.disk world := hflush.error hrun
                cases stop with
                | failed message =>
                    exact h.goesOn_same hwriter (hhalted.working (hopen message world hrun))
                      hhalted.same
                | crashed => exact Accounted.crashed hhalted.ready.toBalanced

theorem accounted_shutdown (environment : Environment) (h : Accounted store) :
    Accounted (store.stepShutdown sha256 config environment) := by
  rw [Store.stepShutdown]
  split_ifs with hidle
  · exact h
  · cases hwriter : store.writer with
    | none =>
        rw [hwriter] at hidle
        exact absurd rfl hidle
    | some writer =>
        have hshutdown := @counts_shutdownActive sha256 config
          ⟨store.disk, writer.active, writer.nextAttemptId, environment⟩ (h.writer writer hwriter).1
        cases hrun : store.runOn environment (shutdownActive sha256 config) with
        | mk result world =>
            rw [Store.runOn, hwriter] at hrun
            cases result with
            | ok _ => exact h.stops (hshutdown.ok hrun) _
            | error stop =>
                have hbalanced : Balanced world.disk := hshutdown.error hrun
                cases stop with
                | failed message => exact h.stops hbalanced _
                | crashed => exact Accounted.crashed hbalanced

/-- Every careful step of a shard keeps its counters. -/
theorem accounted_step (event : Event) (h : Accounted store)
    (hcareful : Careful sha256 config store event) :
    Accounted (store.step sha256 config event) := by
  obtain ⟨command, environment⟩ := event
  cases command with
  | «open» => exact accounted_open environment h hcareful
  | commit batch => exact accounted_commit environment batch h
  | flush => exact accounted_flush environment h hcareful
  | shutdown => exact accounted_shutdown environment h
  | kill => exact Accounted.crashed h.disk

theorem accounted_initial : Accounted Store.initial :=
  ⟨⟨⟨rfl, nofun⟩, nofun⟩, nofun, rfl⟩

theorem runtimeAudit_eq_nil {shards : List Store}
    (h : ∀ store ∈ shards, store.shown.conserved = true) : runtimeAudit shards = [] := by
  apply List.filterMap_eq_nil_iff.mpr
  rintro ⟨store, shard⟩ hshard
  rw [if_pos (h store (List.fst_mem_of_mem_zipIdx hshard))]

/-- In every run of a sharded store whose openings are not cut off half way and whose flushes do
not fail half way, the counters of every shard are at all times those that its tables imply, and
the audit of the running shards finds no failure. -/
theorem counters_exact (count : Nat) (events : List (Nat × Event))
    (hcareful : Machine.Along (stepShard sha256 config)
      (fun shards event => ∀ store, shards[event.1]? = some store →
        Careful sha256 config store event.2)
      (List.replicate count Store.initial) events) :
    Machine.Always (stepShard sha256 config)
      (fun shards => (∀ store ∈ shards, CountersExact store) ∧ runtimeAudit shards = [])
      (List.replicate count Store.initial) events := by
  refine @Machine.always_of_preserves_along _ _ _
    (fun shards => ∀ store ∈ shards, Accounted store) _ _ ?_ ?_ _ ?_ _ hcareful
  · intro shards event hshards hcondition store hstore
    obtain ⟨index, hindex⟩ := List.mem_iff_getElem?.mp hstore
    rw [stepShard, List.getElem?_modify] at hindex
    obtain ⟨before, hbefore, hafter⟩ := Option.map_eq_some_iff.mp hindex
    have haccounted := hshards before (List.mem_of_getElem? hbefore)
    split_ifs at hafter with hsame
    · rw [← hafter]
      rw [← hsame] at hbefore
      exact accounted_step event.2 haccounted (hcondition before hbefore)
    · rwa [← hafter]
  · intro shards hshards
    exact ⟨fun store hstore => (hshards store hstore).countersExact,
      runtimeAudit_eq_nil fun store hstore => (hshards store hstore).shown⟩
  · intro store hstore
    rw [(List.mem_replicate.mp hstore).2]
    exact accounted_initial

end Runs

namespace CutOff

def digest (_ : Bytes) : String := "digest"

def config : StoreConfig := ⟨4096, false⟩

def calm : Environment := ⟨[], [], []⟩

/-- The third effect is the last before a crash. -/
def thirdCrashes : Environment := ⟨[.done, .done, .crashes 0], [], []⟩

def record : CaptureRecord :=
  { captureId := "cap-1", canonical := textBytes "\x7b\"captureId\":\"cap-1\"\x7d"
    sha256 := "digest", legacyRawSha256 := none, receivedAt := none, model := none
    wireEvidence := ⟨false, false, false⟩ }

/-- A commit crashes before its transaction, the opening after it crashes between the recovered
rows and their count, and the next opening finds nothing to enter. -/
def events : List (Nat × Event) :=
  [(0, .open, calm), (0, .commit [record], thirdCrashes), (0, .open, thirdCrashes),
    (0, .open, calm)]

/-- A capture that is committed, a flush, a crash and an opening after it. -/
def careful : List (Nat × Event) :=
  [(0, .open, calm), (0, .commit [record], calm), (0, .flush, calm), (0, .kill, calm),
    (0, .open, calm)]

/-- An opening and a flush that go through. -/
def goesThrough (store : Store) (event : Event) : Bool :=
  match event.1 with
  | .open => (store.runOn event.2 (recover digest)).1.isOk
  | .flush => (store.runOn event.2 (sealAndRotate digest config)).1.isOk
  | _ => true

theorem careful_of_goesThrough {store : Store} {event : Event}
    (h : goesThrough store event = true) : Careful digest config store event := by
  obtain ⟨command, environment⟩ := event
  cases command with
  | «open» =>
      intro _ stop cut hrun
      rw [goesThrough, hrun] at h
      cases h
  | flush =>
      intro _ message world hrun
      rw [goesThrough, hrun] at h
      cases h
  | commit batch => trivial
  | shutdown => trivial
  | kill => trivial

theorem stale : (Machine.run (stepShard digest config) [Store.initial] events).map (fun store =>
    store.disk.counters.any (· != store.disk.countersFromTables)) = [true] := by
  decide +kernel

end CutOff
/-- Nothing is cut off and no flush fails in this run. -/
theorem counters_exact_careful :
    Machine.Always (stepShard CutOff.digest CutOff.config)
      (fun shards => (∀ store ∈ shards, CountersExact store) ∧ runtimeAudit shards = [])
      [Store.initial] CutOff.careful := by
  apply counters_exact 1
  refine ⟨?_, ?_, ?_, ?_, ?_, trivial⟩
  all_goals
    intro store hstore
    cases hstore
    apply CutOff.careful_of_goesThrough
    decide +kernel

/-- Not every run keeps the counters equal to the tables. -/
theorem not_counters_exact :
    ¬ ∀ (sha256 : Bytes → String) (config : StoreConfig) (count : Nat)
        (events : List (Nat × Event)),
      Machine.Always (stepShard sha256 config)
        (fun shards => (∀ store ∈ shards, CountersExact store) ∧ runtimeAudit shards = [])
        (List.replicate count Store.initial) events := by
  intro h
  have hexact := (h CutOff.digest CutOff.config 1 CutOff.events).run.1
  have hstale := CutOff.stale
  obtain ⟨store, hstore, hany⟩ := List.map_eq_singleton_iff.mp hstale
  have hcounts := (hexact store (hstore ▸ List.mem_singleton_self store)).counters
  cases hcounters : store.disk.counters with
  | none =>
      rw [hcounters] at hany
      cases hany
  | some counters =>
      rw [hcounters, hcounts counters hcounters, Option.any_some, bne_self_eq_false] at hany
      cases hany

end ChipTrace.CaptureStore
