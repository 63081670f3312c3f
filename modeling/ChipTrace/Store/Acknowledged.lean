/-
What a commit's answers promise: the row that an answer names is in the ledger under the
record's capture, and the line in front of it is the record's own where it was accepted.
-/
import ChipTrace.Store.Batching
import ChipTrace.Store.Serving

namespace ChipTrace.CaptureStore

section Originals

variable {captures : Table String CaptureLocator} {primaryById : Table String (Nat × CaptureRecord)}
  {tasks : List (Nat × CaptureRecord)} {task : Nat × CaptureRecord} {index : Nat}
  {locator : CaptureLocator}

theorem decideTask_existing
    (h : decideTask captures primaryById task = .duplicate (.existing locator)) :
    captures.get? task.2.captureId = some locator := by
  rw [decideTask] at h
  cases hledger : captures.get? task.2.captureId with
  | some found =>
      rw [hledger] at h
      dsimp only at h
      split_ifs at h
      cases h
      rfl
  | none =>
      rw [hledger] at h
      dsimp only at h
      cases hbatch : primaryById.get? task.2.captureId with
      | some primary =>
          rw [hbatch] at h
          dsimp only at h
          split_ifs at h
          cases h
      | none =>
          rw [hbatch] at h
          cases h

theorem decideTask_batch (h : decideTask captures primaryById task = .duplicate (.batch index)) :
    ∃ primary, primaryById.get? task.2.captureId = some primary ∧ primary.1 = index := by
  rw [decideTask] at h
  cases hledger : captures.get? task.2.captureId with
  | some found =>
      rw [hledger] at h
      dsimp only at h
      split_ifs at h
      cases h
  | none =>
      rw [hledger] at h
      dsimp only at h
      cases hbatch : primaryById.get? task.2.captureId with
      | some primary =>
          rw [hbatch] at h
          dsimp only at h
          split_ifs at h
          cases h
          exact ⟨primary, rfl, rfl⟩
      | none =>
          rw [hbatch] at h
          cases h

/-- A duplicate of a stored capture is found under its own id. -/
theorem existing_of_decided
    (h : (task, Decision.duplicate (.existing locator)) ∈ decided captures primaryById tasks) :
    captures.get? task.2.captureId = some locator := by
  induction tasks generalizing primaryById with
  | nil => cases h
  | cons head rest ih =>
      rw [decided] at h
      apply Or.elim (List.mem_cons.mp h)
      · intro hhead
        obtain ⟨rfl, hdecision⟩ := Prod.mk.inj hhead
        exact decideTask_existing hdecision.symm
      · exact ih

/-- So is the first record of a duplicate inside the batch. -/
theorem original_of_decided
    (hkeys : ∀ id primary, primaryById.get? id = some primary → primary.2.captureId = id)
    (h : (task, Decision.duplicate (.batch index)) ∈ decided captures primaryById tasks) :
    (∃ primary, primaryById.get? task.2.captureId = some primary ∧ primary.1 = index) ∨
      ∃ record, ((index, record), Decision.first) ∈ decided captures primaryById tasks ∧
        record.captureId = task.2.captureId := by
  induction tasks generalizing primaryById with
  | nil => cases h
  | cons head rest ih =>
      rw [decided] at h ⊢
      apply Or.elim (List.mem_cons.mp h)
      · intro hhead
        obtain ⟨rfl, hdecision⟩ := Prod.mk.inj hhead
        exact Or.inl (decideTask_batch hdecision.symm)
      · intro hrest
        cases hdecision : decideTask captures primaryById head with
        | first =>
            have hentered : ∀ id primary, (enterFirst primaryById head .first).get? id =
                some primary → primary.2.captureId = id := by
              intro id primary hprimary
              rw [enterFirst, Table.get?_insert] at hprimary
              split_ifs at hprimary with hid
              · cases hprimary
                exact hid.symm
              · exact hkeys id primary hprimary
            rw [hdecision] at hrest
            apply Or.elim (ih hentered hrest)
            · rintro ⟨primary, hprimary, hindex⟩
              rw [enterFirst, Table.get?_insert] at hprimary
              split_ifs at hprimary with hid
              · cases hprimary
                refine Or.inr ⟨head.2, List.mem_cons.mpr (Or.inl ?_), hid.symm⟩
                rw [← hindex]
              · exact Or.inl ⟨primary, hprimary, hindex⟩
            · rintro ⟨record, hmem, hid⟩
              exact Or.inr ⟨record, List.mem_cons_of_mem _ hmem, hid⟩
        | duplicate source =>
            rw [hdecision] at hrest
            apply Or.imp_right _ (ih hkeys hrest)
            rintro ⟨record, hmem, hid⟩
            exact ⟨record, List.mem_cons_of_mem _ hmem, hid⟩
        | conflict =>
            rw [hdecision] at hrest
            apply Or.imp_right _ (ih hkeys hrest)
            rintro ⟨record, hmem, hid⟩
            exact ⟨record, List.mem_cons_of_mem _ hmem, hid⟩

end Originals

section Entering

variable {captures : Table String CaptureLocator} {tasks : List (Nat × CaptureRecord)}
  {pending : List (Nat × CaptureLocator)}

/-- The captures of the ledger with the written records. -/
def enterCaptures (captures : Table String CaptureLocator) (pending : List (Nat × CaptureLocator)) :
    Table String CaptureLocator :=
  captures.insertAll (pending.map fun row => (row.2.captureId, row.2))

theorem get?_enterCaptures_pending
    (hpending : List.Forall₂ Locates ((decided captures .empty tasks).filterMap firstOf) pending)
    {row : Nat × CaptureLocator} (hrow : row ∈ pending) :
    (enterCaptures captures pending).get? row.2.captureId = some row.2 := by
  apply Table.get?_insertAll_of_mem
  · rw [List.map_map]
    have hkeys : pending.map (Prod.fst ∘ fun row => (row.2.captureId, row.2)) =
        ((decided captures .empty tasks).filterMap firstOf).map fun task => task.2.captureId :=
      hpending.map_eq fun _ _ hlocates => hlocates.captureId
    rw [hkeys]
    exact nodup_firsts .empty tasks
  · exact List.mem_map.mpr ⟨row, hrow, rfl⟩

/-- What the ledger had stays. -/
theorem get?_enterCaptures_kept
    (hpending : List.Forall₂ Locates ((decided captures .empty tasks).filterMap firstOf) pending)
    {id : String} {row : CaptureLocator} (hrow : captures.get? id = some row) :
    (enterCaptures captures pending).get? id = some row := by
  rw [enterCaptures, Table.get?_insertAll_of_not_mem, hrow]
  intro hmem
  rw [List.map_map] at hmem
  obtain ⟨written, hwritten, hid⟩ := List.mem_map.mp hmem
  obtain ⟨task, htask, hlocates⟩ := hpending.exists_left hwritten
  have hnone := (firsts_new htask).1
  rw [← hlocates.captureId] at hnone
  dsimp only [Function.comp_apply] at hid
  rw [hid, hrow] at hnone
  cases hnone

/-- The original of a duplicate is entered under the id of the duplicate. -/
structure Original (captures : Table String CaptureLocator)
    (duplicate : (Nat × CaptureRecord) × DuplicateSource)
    (row : (Nat × CaptureRecord) × CaptureLocator) : Prop where
  task : row.1 = duplicate.1
  entered : captures.get? duplicate.1.2.captureId = some row.2

theorem wp_originals {world : World} {stopped : Stop → World → Prop}
    (hnodup : ((decided captures .empty tasks).map fun entry => entry.1.1).Nodup)
    (hpending :
      List.Forall₂ Locates ((decided captures .empty tasks).filterMap firstOf) pending) :
    Eff.Wp (Eff.forEach ((decided captures .empty tasks).filterMap duplicateOf)
        (resolveDuplicate (Table.empty.insertAll pending)))
      (fun duplicates next => List.Forall₂ (Original (enterCaptures captures pending))
        ((decided captures .empty tasks).filterMap duplicateOf) duplicates ∧ next = world)
      stopped world := by
  apply Eff.wp_forEach
  · rintro ⟨task, source⟩ hduplicate next rfl
    have hdecided := mem_filterMap_duplicateOf.mp hduplicate
    rw [resolveDuplicate]
    cases source with
    | existing locator =>
        exact ⟨⟨rfl, get?_enterCaptures_kept hpending (existing_of_decided hdecided)⟩, rfl⟩
    | batch index =>
        have horiginal := original_of_decided (by simp) hdecided
        obtain ⟨record, hfirst, hid⟩ := horiginal.resolve_left (by simp)
        obtain ⟨row, hrow, hlocates⟩ := hpending.exists_right (mem_filterMap_firstOf.mpr hfirst)
        have hget := (get?_pending_iff hnodup hpending).mpr hrow
        rw [hlocates.index] at hget
        dsimp only at hget ⊢
        rw [hget]
        refine ⟨⟨rfl, ?_⟩, rfl⟩
        dsimp only
        rw [← hid, ← hlocates.captureId]
        exact get?_enterCaptures_pending hpending hrow
  · rfl

end Entering

section Answers

/-- What an answer to a record promises of the disk. -/
def Answered (sha256 : Bytes → String) (disk : Disk) (record : CaptureRecord)
    (result : Except SubmitError SubmitAck) : Prop :=
  ∀ answer, result = .ok answer → ∃ row line,
    disk.captures.get? record.captureId = some row ∧
    answer = ack row answer.duplicate answer.state ∧
    Placed disk row line ∧ sha256 line = row.rawSha256 ∧
    (answer.duplicate = false → line = record.canonical)

variable {sha256 : Bytes → String} {config : StoreConfig} {calm : Prop} {before : Disk}
  {world : World}

theorem Answered.mono {disk after : Disk} {record : CaptureRecord}
    {result : Except SubmitError SubmitAck} (h : Answered sha256 disk record result)
    (hretains : Retains calm disk after) : Answered sha256 after record result := by
  intro answer hanswer
  obtain ⟨row, line, hrow, hack, hplaced, hsha, hown⟩ := h answer hanswer
  exact ⟨row, line, hretains.captures _ _ hrow, hack, hplaced.mono hretains, hsha, hown⟩

/-- A record that was written, and where. -/
structure Written (disk : Disk) (task : Nat × CaptureRecord) (row : Nat × CaptureLocator) : Prop
    extends Locates task row where
  placed : Placed disk row.2 task.2.canonical

theorem keeps_batchResults {entries : List ((Nat × CaptureRecord) × Decision)}
    {pending : List (Nat × CaptureLocator)}
    {duplicates : List ((Nat × CaptureRecord) × CaptureLocator)} {conflicts : List Nat}
    (houtcomes : Outcomes entries pending duplicates)
    (hpending : List.Forall₂ (Written world.disk) (entries.filterMap firstOf) pending)
    (hduplicates : List.Forall₂ (Original world.disk.captures) (entries.filterMap duplicateOf)
      duplicates)
    (hentered : ∀ row ∈ pending, world.disk.captures.get? row.2.captureId = some row.2)
    (hsafe : Safe sha256 calm world.disk)
    (hnormal : ∀ entry ∈ entries, Normal sha256 entry.1.2) :
    Eff.Wp (batchResults (entries.map Prod.fst) (Table.empty.insertAll pending)
        (Table.empty.insertAll (duplicates.map fun row => (row.1.1, row.2))) conflicts)
      (fun results next => List.Forall₂ (fun entry => Answered sha256 world.disk entry.1.2) entries
        results ∧ next = world) (fun _ next => next = world) world := by
  rw [batchResults, Eff.forEach_map]
  apply Eff.wp_forEach
  · rintro entry hentry next rfl
    split
    · rename_i locator hfound
      obtain ⟨task, htask, hwritten⟩ := hpending.exists_left
        ((get?_pending_iff houtcomes.nodup houtcomes.pending).mp hfound)
      have hsame : entry = (task, .first) :=
        entry_unique houtcomes.nodup hentry (mem_filterMap_firstOf.mp htask) hwritten.index
      refine ⟨?_, rfl⟩
      intro answer hanswer
      obtain rfl := Except.ok.inj hanswer
      refine ⟨locator, entry.1.2.canonical, ?_, rfl, ?_, ?_, fun _ => rfl⟩
      · have hid := hwritten.captureId
        rw [hsame]
        dsimp only at hid ⊢
        rw [← hid]
        exact hentered _ ((get?_pending_iff houtcomes.nodup houtcomes.pending).mp hfound)
      · rw [hsame]
        exact hwritten.placed
      · rw [← (hnormal entry hentry).digest, hsame]
        exact hwritten.rawSha256.symm
    · split
      · rename_i locator hfound
        obtain ⟨row, hrow, hindex, rfl⟩ := houtcomes.get?_duplicates_iff.mp hfound
        obtain ⟨⟨task, source⟩, hduplicate, horiginal⟩ := hduplicates.exists_left hrow
        have htask : row.1 = task := horiginal.task
        have hsame : entry = (task, .duplicate source) := by
          apply entry_unique houtcomes.nodup hentry (mem_filterMap_duplicateOf.mp hduplicate)
          rw [← hindex, htask]
        have hget : next.disk.captures.get? task.2.captureId = some row.2 := horiginal.entered
        refine ⟨?_, rfl⟩
        intro answer hanswer
        obtain rfl := Except.ok.inj hanswer
        obtain ⟨_, line, hplaced, hsha⟩ := hsafe.placed _ _ hget
        refine ⟨row.2, line, ?_, rfl, hplaced, hsha, fun hnew => by cases hnew⟩
        rw [hsame]
        exact hget
      · rw [Eff.wp_ite]
        exact ⟨fun _ => ⟨(fun answer hanswer => by cases hanswer), rfl⟩, fun _ => rfl⟩
  · rfl

/-- The rotation after a commit leaves its answers true. -/
theorem keeps_rotateIfFull (h : Running sha256 calm before world) {batch : List CaptureRecord}
    {results : List (Except SubmitError SubmitAck)} {counters : LedgerCounters}
    {metadata : SegmentMetadata}
    (hresults : List.Forall₂ (Answered sha256 world.disk) batch results) :
    Eff.Wp
      (if 0 < metadata.records then do
        let aged ← isAged
        if config.segmentMaxBytes ≤ metadata.bytes ∨ aged = true then do
          let _ ← rotate sha256 config
          let counters ← readCounters
          pure (BatchCommit.mk results counters)
        else pure (BatchCommit.mk results counters)
      else pure (BatchCommit.mk results counters))
      (fun commit next => List.Forall₂ (Answered sha256 next.disk) batch commit.results ∧
        Running sha256 calm before next)
      (fun _ next => Secured sha256 calm before next.disk) world := by
  rw [Eff.wp_ite]
  refine ⟨fun _ => ?_, fun _ => ⟨hresults, h⟩⟩
  rw [Eff.wp_bind]
  apply wp_isAged
  intro aged environment _
  rw [Eff.wp_ite]
  refine ⟨fun _ => ?_, fun _ => ⟨hresults, h.toSecured, h.toWrites⟩⟩
  have hnow : Running sha256 calm world.disk { world with environment } :=
    ⟨Secured.start h.toSafe, h.toWrites⟩
  rw [Eff.wp_bind]
  apply (keeps_rotate hnow).mono
  · intro _ rotated hrotated
    have hsince := hrotated.since h.retains
    rw [Eff.wp_bind]
    apply wp_readCounters
    · exact fun _ _ => hsince.toSecured
    intro counters _
    exact ⟨hresults.imp fun _ _ hanswered => hanswered.mono hrotated.retains, hsince⟩
  · exact fun _ _ hrotated => hrotated.toSecured.since h.retains

/-- The records of a batch are written one after the other, and all stay where they are. -/
theorem keeps_writeRecords (h : Running sha256 calm before world)
    {tasks : List (Nat × CaptureRecord)} (hnormal : ∀ task ∈ tasks, Normal sha256 task.2) :
    Eff.Wp (Eff.forEach tasks (writeRecord sha256 config))
      (fun pending next => List.Forall₂ (Written next.disk) tasks pending ∧
        Running sha256 calm before next ∧ next.disk.captures = world.disk.captures)
      (fun _ next => Secured sha256 calm before next.disk) world := by
  have hloop : Eff.Wp (Eff.forEach tasks (writeRecord sha256 config))
      (fun pending next => List.Forall₂ (fun task row => Written next.disk task row) tasks
        pending ∧ (Running sha256 calm before next ∧
          next.disk.captures = world.disk.captures) ∧ Retains calm world.disk next.disk)
      (fun _ next => Secured sha256 calm before next.disk) world := by
    apply @Eff.wp_forEach_grows World Stop _ _ world _ _ tasks
      (fun task row next => Written next.disk task row)
      (fun next => Running sha256 calm before next ∧ next.disk.captures = world.disk.captures)
      (fun first second => Retains calm first.disk second.disk)
      (fun _ => Retains.refl _) (fun _ _ _ => Retains.trans)
      (fun _ _ _ _ hwritten hretains => ⟨hwritten.toLocates, hwritten.placed.mono hretains⟩)
    · rintro task htask next ⟨hnext, hsame⟩
      have hkeeps := @keeps_writeRecord sha256 config calm next.disk next task hnext.restart
        (hnormal task htask)
      have hledger := @wp_writeRecord sha256 config next False (fun _ => True) False.elim task
      apply (hkeeps.and hledger).mono
      · rintro row last ⟨⟨hplaced, hlast⟩, hlocates, _, hcaptures⟩
        exact ⟨⟨hlocates, hplaced⟩, ⟨hlast.since hnext.retains, hcaptures.captures.trans hsame⟩,
          hlast.retains⟩
      · rintro stop last ⟨hlast, _⟩
        exact hlast.since hnext.retains
    · exact ⟨h, rfl⟩
  exact hloop.mono (fun _ _ h => ⟨h.1, h.2.1⟩) fun _ _ h => h

/-- A commit's answers hold on the disk it leaves, and nothing that was there is lost; where it
stops, nothing is lost either. -/
theorem keeps_commitBatchInner (h : Running sha256 calm before world)
    {batch : List CaptureRecord} (hnormal : ∀ record ∈ batch, Normal sha256 record) :
    Eff.Wp (commitBatchInner sha256 config batch)
      (fun commit next => List.Forall₂ (Answered sha256 next.disk) batch commit.results ∧
        Running sha256 calm before next)
      (fun _ next => Secured sha256 calm before next.disk) world := by
  have htasks : (batch.zipIdx.map fun task => (task.2, task.1)).map Prod.snd = batch := by
    rw [List.map_map]
    exact List.zipIdx_map_fst 0 batch
  have hindexes : ((batch.zipIdx.map fun task => (task.2, task.1)).map Prod.fst).Nodup := by
    rw [List.map_map]
    have hrange : batch.zipIdx.map (Prod.fst ∘ fun task => (task.2, task.1)) =
        List.range' 0 batch.length := List.zipIdx_map_snd 0 batch
    rw [hrange]
    exact List.nodup_range'
  rw [commitBatchInner, Eff.wp_bind, Eff.wp_get]
  generalize batch.zipIdx.map (fun task => (task.2, task.1)) = tasks at *
  obtain ⟨hfirsts, hduplicates, hconflicts⟩ := sortBatch_eq world.disk.captures tasks
  have hmap := @decided_map_fst world.disk.captures .empty tasks
  have hnodup : ((decided world.disk.captures .empty tasks).map fun entry => entry.1.1).Nodup := by
    rw [← hmap, List.map_map] at hindexes
    exact hindexes
  have hrecords : ∀ entry ∈ decided world.disk.captures .empty tasks,
      Normal sha256 entry.1.2 := by
    intro entry hentry
    apply hnormal
    rw [← htasks, ← hmap]
    exact List.mem_map_of_mem (List.mem_map_of_mem hentry)
  dsimp only
  rw [hfirsts, hduplicates, hconflicts, Eff.wp_bind]
  apply (keeps_writeRecords h fun task htask =>
    hrecords _ (mem_filterMap_firstOf.mp htask)).mono _ fun _ _ h => h
  rintro pending next ⟨hpending, hnext, hcaptures⟩
  have hlocated := hpending.imp fun _ _ hwritten => hwritten.toLocates
  rw [Eff.wp_bind]
  have hsynced : Eff.Wp (syncWritten config pending)
      (fun _ synced => ∃ environment, synced = { next with environment })
      (fun _ synced => Secured sha256 calm before synced.disk) next := by
    rw [syncWritten, Eff.wp_ite]
    refine ⟨fun _ => ⟨next.environment, rfl⟩, fun _ => ?_⟩
    apply wp_sync
    · exact fun _ _ _ _ => hnext.toSecured
    · exact fun environment _ => ⟨environment, rfl⟩
  apply hsynced.mono _ fun _ _ h => h
  rintro _ _ ⟨environment, rfl⟩
  rw [Eff.wp_bind]
  have horiginals := @wp_originals _ _ _ { next with environment }
    (fun _ last => Secured sha256 calm before last.disk) hnodup hlocated
  have hresolves := @wp_resolveDuplicates { next with environment } _ _ _ (fun _ _ => True) hnodup
    hlocated
  apply (horiginals.and hresolves).mono _ fun _ _ h => h.1
  rintro duplicates resolved ⟨⟨horiginals, rfl⟩, hresolved, _⟩
  rw [Eff.wp_bind]
  apply wp_utcNow
  intro now environment _
  rw [Eff.wp_bind]
  apply wp_readCounters
  · exact fun _ _ => hnext.toSecured
  intro counters _
  rw [Eff.wp_bind, Eff.wp_get, Eff.wp_bind, Eff.wp_modify, Eff.wp_bind]
  apply wp_effect
  · exact fun _ _ _ _ => hnext.toSecured
  intro environment _
  rw [hcaptures]
  have hkept : Secured sha256 calm before { next.disk with
      captures := enterCaptures world.disk.captures pending } := by
    apply hnext.toSecured.enterCaptures
    · intro id row hrow
      rw [hcaptures] at hrow
      exact get?_enterCaptures_kept hlocated hrow
    · intro id row hrow
      rw [hcaptures]
      apply (Table.mem_or_of_get?_insertAll hrow).symm.imp_right
      intro hmem
      obtain ⟨written, hwritten, heq⟩ := List.mem_map.mp hmem
      obtain ⟨rfl, rfl⟩ := Prod.mk.inj heq
      obtain ⟨task, htask, hplaced⟩ := hpending.exists_left hwritten
      refine ⟨rfl, task.2.canonical, hplaced.placed, ?_⟩
      rw [hplaced.rawSha256, (hrecords _ (mem_filterMap_firstOf.mp htask)).digest]
  have hentered := (hkept.enterSegment next.active.metadata hnext.toWrites.held hnext.openPath
    (fun hcalm hsealed => ?_) (fun hcalm _ hrow => (hnext.orderly hcalm).unsealed hrow)
    none).of_same (next.disk.attempts.insertAll (numberRows next.nextAttemptId
      (attemptRows now (sortBatch world.disk.captures tasks) pending duplicates)))
    (some (counters.addBatch batch.length pending.length duplicates.length
      ((decided world.disk.captures .empty tasks).filterMap conflictOf).length now))
    next.disk.schemaVersion
  rotate_left
  · rw [(hnext.orderly hcalm).state] at hsealed
    cases hsealed
  have hpendings := fun row hrow => @get?_enterCaptures_pending world.disk.captures tasks pending
    hlocated row hrow
  have houtcomes : Outcomes (decided world.disk.captures .empty tasks) pending duplicates :=
    ⟨hnodup, hlocated, hresolved⟩
  rw [Eff.wp_bind]
  generalize decided world.disk.captures .empty tasks = entries at *
  obtain rfl := hmap
  have hbatch : ∀ disk results,
      List.Forall₂ (fun entry => Answered sha256 disk entry.1.2) entries results →
        List.Forall₂ (Answered sha256 disk) batch results := by
    intro disk results hresults
    rw [← htasks, List.forall₂_map_left_iff, List.forall₂_map_left_iff]
    exact hresults
  refine (keeps_batchResults houtcomes (hpending.imp ?_) horiginals hpendings hentered.toSafe
    hrecords).mono ?_ fun _ last hlast => ?_
  · rintro task row hwritten
    exact ⟨hwritten.toLocates, isSome_get?_insert hwritten.placed.segment,
      hwritten.placed.length, hwritten.placed.plain, hwritten.placed.content⟩
  · rintro results last ⟨hresults, rfl⟩
    apply keeps_rotateIfFull
    · refine ⟨hentered, isSome_get?_insert hnext.row, hnext.path, hnext.handle, hnext.content,
        hnext.bytes, hnext.openPath, fun hcalm => ?_⟩
      have horderly := hnext.orderly hcalm
      refine ⟨horderly.path, horderly.handle, horderly.state, ?_⟩
      intro id row hrow
      dsimp only at hrow
      rw [Table.get?_insert] at hrow
      split_ifs at hrow with hid
      · cases hrow
        exact ⟨fun _ => hid, fun _ => horderly.state⟩
      · exact horderly.only id row hrow
    · exact hbatch _ _ hresults
  · rw [hlast]
    exact hentered

end Answers

end ChipTrace.CaptureStore
