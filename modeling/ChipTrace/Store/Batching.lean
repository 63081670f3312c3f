/-
Committing a list of records as one batch and one at a time: what each commit
decides and enters, and when the two agree.
-/
import ChipTrace.Store.Steady
import ChipTrace.Store.Decisions
import ChipTrace.Lib.Pairing
import Mathlib.Algebra.Group.Prod

namespace ChipTrace.CaptureStore

section Results

/-- What an answer says. -/
def verdictOf : Except SubmitError SubmitAck → Verdict
  | .ok ack => if ack.duplicate then .duplicate ack.rawSha256 else .accepted ack.rawSha256
  | .error _ => .conflict

def verdictOfEntry (entry : (Nat × CaptureRecord) × Decision) : Verdict :=
  entry.2.verdict entry.1.2

/-- The resolved row of a duplicate. -/
structure Resolves (duplicate : (Nat × CaptureRecord) × DuplicateSource)
    (row : (Nat × CaptureRecord) × CaptureLocator) : Prop where
  task : row.1 = duplicate.1
  rawSha256 : Verdict.duplicate row.2.rawSha256 =
    Decision.verdict duplicate.1.2 (.duplicate duplicate.2)

variable {entries : List ((Nat × CaptureRecord) × Decision)}

theorem mem_filterMap_firstOf {task : Nat × CaptureRecord} :
    task ∈ entries.filterMap firstOf ↔ (task, Decision.first) ∈ entries := by
  rw [List.mem_filterMap]
  constructor
  · rintro ⟨⟨other, decision⟩, hmem, hsame⟩
    cases decision with
    | first => cases hsame; exact hmem
    | duplicate source => cases hsame
    | conflict => cases hsame
  · exact fun hmem => ⟨_, hmem, rfl⟩

theorem mem_filterMap_duplicateOf {task : Nat × CaptureRecord} {source : DuplicateSource} :
    (task, source) ∈ entries.filterMap duplicateOf ↔
      (task, Decision.duplicate source) ∈ entries := by
  rw [List.mem_filterMap]
  constructor
  · rintro ⟨⟨other, decision⟩, hmem, hsame⟩
    cases decision with
    | first => cases hsame
    | duplicate source => cases hsame; exact hmem
    | conflict => cases hsame
  · exact fun hmem => ⟨_, hmem, rfl⟩

theorem mem_filterMap_conflictOf {task : Nat × CaptureRecord} :
    task ∈ entries.filterMap conflictOf ↔ (task, Decision.conflict) ∈ entries := by
  rw [List.mem_filterMap]
  constructor
  · rintro ⟨⟨other, decision⟩, hmem, hsame⟩
    cases decision with
    | first => cases hsame
    | duplicate source => cases hsame
    | conflict => cases hsame; exact hmem
  · exact fun hmem => ⟨_, hmem, rfl⟩

/-- An index belongs to one entry. -/
theorem entry_unique (hnodup : (entries.map fun entry => entry.1.1).Nodup)
    {first second : (Nat × CaptureRecord) × Decision} (hfirst : first ∈ entries)
    (hsecond : second ∈ entries) (hindex : first.1.1 = second.1.1) : first = second :=
  List.inj_on_of_nodup_map hnodup hfirst hsecond hindex

theorem firstOf_index {entry : (Nat × CaptureRecord) × Decision} {task : Nat × CaptureRecord}
    (h : firstOf entry = some task) : task.1 = entry.1.1 := by
  obtain ⟨other, decision⟩ := entry
  cases decision with
  | first => cases h; rfl
  | duplicate source => cases h
  | conflict => cases h

theorem duplicateOf_index {entry : (Nat × CaptureRecord) × Decision}
    {duplicate : (Nat × CaptureRecord) × DuplicateSource}
    (h : duplicateOf entry = some duplicate) : duplicate.1.1 = entry.1.1 := by
  obtain ⟨other, decision⟩ := entry
  cases decision with
  | first => cases h
  | duplicate source => cases h; rfl
  | conflict => cases h

/-- The outcomes of a batch, by index. -/
structure Outcomes (entries : List ((Nat × CaptureRecord) × Decision))
    (pending : List (Nat × CaptureLocator))
    (duplicates : List ((Nat × CaptureRecord) × CaptureLocator)) : Prop where
  nodup : (entries.map fun entry => entry.1.1).Nodup
  pending : List.Forall₂ Locates (entries.filterMap firstOf) pending
  duplicates : List.Forall₂ Resolves (entries.filterMap duplicateOf) duplicates

variable {pending : List (Nat × CaptureLocator)}
  {duplicates : List ((Nat × CaptureRecord) × CaptureLocator)} {index : Nat}
  {locator : CaptureLocator}

/-- The locators of a batch, as the table that finds them by index. -/
theorem get?_pending_iff (hnodup : (entries.map fun entry => entry.1.1).Nodup)
    (hpending : List.Forall₂ Locates (entries.filterMap firstOf) pending) :
    ((Table.empty : Table Nat CaptureLocator).insertAll pending).get? index = some locator ↔
      (index, locator) ∈ pending := by
  apply Table.get?_insertAll_of_nodup
  rw [hpending.map_eq fun _ _ hlocates => hlocates.index]
  exact hnodup.sublist (List.sublist_map_filterMap (fun _ _ => firstOf_index) entries)

theorem Outcomes.get?_duplicates_iff (h : Outcomes entries pending duplicates) :
    ((Table.empty : Table Nat CaptureLocator).insertAll
        (duplicates.map fun row => (row.1.1, row.2))).get? index = some locator ↔
      ∃ row ∈ duplicates, row.1.1 = index ∧ row.2 = locator := by
  rw [Table.get?_insertAll_of_nodup, List.mem_map]
  · simp only [Prod.mk.injEq]
  · rw [List.map_map]
    have hkeys : duplicates.map (Prod.fst ∘ fun row => (row.1.1, row.2)) =
        (entries.filterMap duplicateOf).map fun duplicate => duplicate.1.1 :=
      h.duplicates.map_eq fun _ _ hresolves => by rw [Function.comp_apply, hresolves.task]
    rw [hkeys]
    exact h.nodup.sublist (List.sublist_map_filterMap (fun _ _ => duplicateOf_index) entries)

/-- A written record is found by its index, and no other record is. -/
theorem Outcomes.get?_pending (h : Outcomes entries pending duplicates)
    {entry : (Nat × CaptureRecord) × Decision} (hentry : entry ∈ entries)
    (hfound : ((Table.empty : Table Nat CaptureLocator).insertAll pending).get? entry.1.1 =
      some locator) :
    entry.2 = .first ∧ locator.rawSha256 = entry.1.2.sha256 := by
  obtain ⟨task, htask, hlocates⟩ :=
    h.pending.exists_left ((get?_pending_iff h.nodup h.pending).mp hfound)
  have hsame : entry = (task, .first) :=
    entry_unique h.nodup hentry (mem_filterMap_firstOf.mp htask) hlocates.index
  rw [hsame]
  exact ⟨rfl, hlocates.rawSha256⟩

theorem Outcomes.isSome_pending (h : Outcomes entries pending duplicates)
    {task : Nat × CaptureRecord} (htask : (task, Decision.first) ∈ entries) :
    (((Table.empty : Table Nat CaptureLocator).insertAll pending).get? task.1).isSome := by
  obtain ⟨row, hrow, hlocates⟩ := h.pending.exists_right (mem_filterMap_firstOf.mpr htask)
  rw [← hlocates.index]
  exact Option.isSome_iff_exists.mpr ⟨row.2, (get?_pending_iff h.nodup h.pending).mpr hrow⟩

/-- So is a duplicate among the duplicates. -/
theorem Outcomes.get?_duplicates (h : Outcomes entries pending duplicates)
    {entry : (Nat × CaptureRecord) × Decision} (hentry : entry ∈ entries)
    (hfound : ((Table.empty : Table Nat CaptureLocator).insertAll
      (duplicates.map fun row => (row.1.1, row.2))).get? entry.1.1 = some locator) :
    Verdict.duplicate locator.rawSha256 = verdictOfEntry entry := by
  obtain ⟨row, hrow, hindex, rfl⟩ := h.get?_duplicates_iff.mp hfound
  obtain ⟨⟨task, source⟩, hduplicate, hresolves⟩ := h.duplicates.exists_left hrow
  rw [hresolves.task] at hindex
  have hsame : entry = (task, .duplicate source) :=
    entry_unique h.nodup hentry (mem_filterMap_duplicateOf.mp hduplicate) hindex.symm
  rw [hsame]
  exact hresolves.rawSha256

theorem Outcomes.isSome_duplicates (h : Outcomes entries pending duplicates)
    {task : Nat × CaptureRecord} {source : DuplicateSource}
    (htask : (task, Decision.duplicate source) ∈ entries) :
    (((Table.empty : Table Nat CaptureLocator).insertAll
      (duplicates.map fun row => (row.1.1, row.2))).get? task.1).isSome := by
  obtain ⟨row, hrow, hresolves⟩ :=
    h.duplicates.exists_right (mem_filterMap_duplicateOf.mpr htask)
  apply Option.isSome_iff_exists.mpr
  refine ⟨row.2, h.get?_duplicates_iff.mpr ⟨row, hrow, ?_, rfl⟩⟩
  rw [hresolves.task]

/-- The answers say what was decided, in the order of the batch. -/
theorem wp_batchResults (h : Outcomes entries pending duplicates) {world : World}
    {stopped : Stop → World → Prop} :
    Eff.Wp (batchResults (entries.map Prod.fst) (Table.empty.insertAll pending)
        (Table.empty.insertAll (duplicates.map fun row => (row.1.1, row.2)))
        ((entries.filterMap conflictOf).map Prod.fst))
      (fun results next => results.map verdictOf = entries.map verdictOfEntry ∧ next = world)
      stopped world := by
  rw [batchResults, Eff.forEach_map]
  refine Eff.Wp.mono (@Eff.wp_forEach World Stop _ stopped world _ _ entries
    (fun entry result => verdictOf result = verdictOfEntry entry) (· = world) ?_ rfl) ?_
    fun _ _ h => h
  rotate_left
  · rintro results next ⟨hresults, hnext⟩
    exact ⟨hresults.map_eq fun _ _ hsame => hsame, hnext⟩
  rintro ⟨task, decision⟩ hentry next rfl
  dsimp only
  split
  · rename_i locator hfound
    obtain ⟨hfirst, hsha⟩ := h.get?_pending hentry hfound
    dsimp only at hfirst
    subst hfirst
    refine ⟨?_, rfl⟩
    rw [verdictOf, ack, hsha]
    rfl
  · rename_i hnotFirst
    split
    · rename_i locator hfound
      refine ⟨?_, rfl⟩
      rw [← h.get?_duplicates hentry hfound]
      rfl
    · rename_i hnotDuplicate
      cases decision with
      | first =>
          have hsome := h.isSome_pending hentry
          rw [hnotFirst] at hsome
          cases hsome
      | duplicate source =>
          have hsome := h.isSome_duplicates hentry
          rw [hnotDuplicate] at hsome
          cases hsome
      | conflict =>
          have hcontains : ((entries.filterMap conflictOf).map Prod.fst).contains task.1 = true :=
            List.contains_iff_mem.mpr
              (List.mem_map.mpr ⟨task, mem_filterMap_conflictOf.mpr hentry, rfl⟩)
          rw [if_pos hcontains]
          exact ⟨rfl, rfl⟩

end Results

section Commit

def Verdict.isAccepted : Verdict → Bool
  | .accepted _ => true
  | _ => false

def Verdict.isDuplicate : Verdict → Bool
  | .duplicate _ => true
  | _ => false

/-- How many records are accepted, are duplicates and are conflicts. -/
def tally (verdicts : List Verdict) : Nat × Nat × Nat :=
  (verdicts.countP Verdict.isAccepted, verdicts.countP Verdict.isDuplicate,
    verdicts.countP (· == .conflict))

theorem tally_append (first second : List Verdict) :
    tally (first ++ second) = tally first + tally second := by
  simp only [tally, List.countP_append, Prod.mk_add_mk]

/-- What a commit did to the ledger and what it answered. -/
structure Committed (batch : List CaptureRecord) (before : Disk)
    (results : List (Except SubmitError SubmitAck)) (after : Disk) : Prop where
  verdicts : results.map verdictOf = judgeBatch (knownOf before.captures) (fun _ => none) batch
  known : knownOf after.captures = batch.foldl learn (knownOf before.captures)
  counts : counts after = (counts before).map (· + tally (results.map verdictOf))

/-- The captures with the written records entered. -/
theorem knownOf_insertAll {captures : Table String CaptureLocator}
    {firsts : List (Nat × CaptureRecord)} {pending : List (Nat × CaptureLocator)}
    (h : List.Forall₂ Locates firsts pending) :
    knownOf (captures.insertAll (pending.map fun row => (row.2.captureId, row.2))) =
      firsts.foldl bring (knownOf captures) := by
  induction h generalizing captures with
  | nil => rfl
  | @cons task row firsts pending hhead _ ih =>
      rw [List.map_cons, List.foldl_cons]
      have hbring : knownOf (captures.insert row.2.captureId row.2) =
          bring (knownOf captures) task := by
        funext id
        rw [knownOf, Table.get?_insert, bring, Function.update_apply, hhead.captureId, knownOf]
        split_ifs
        · rw [Option.map_some, hhead.rawSha256]
        · rfl
      rw [← hbring]
      exact ih

theorem both_empty (captures : Table String CaptureLocator) :
    both (knownOf captures) (broughtOf .empty) = knownOf captures := by
  funext id
  exact Option.or_none

theorem tally_entries (entries : List ((Nat × CaptureRecord) × Decision)) :
    tally (entries.map verdictOfEntry) = ((entries.filterMap firstOf).length,
      (entries.filterMap duplicateOf).length, (entries.filterMap conflictOf).length) := by
  simp only [tally, List.countP_map, List.length_filterMap_eq_countP]
  refine congrArg₂ Prod.mk ?_ (congrArg₂ Prod.mk ?_ ?_)
  all_goals
    congr 1
    funext ⟨task, decision⟩
    cases decision with
    | first => rfl
    | duplicate source => cases source <;> rfl
    | conflict => rfl

variable {sha256 : Bytes → String} {config : StoreConfig} {world : World}
  {start : Prop} {allowed : Stop → Prop}

theorem wp_syncWritten (h : start → InOrder allowed world)
    (pending : List (Nat × CaptureLocator)) :
    Eff.Wp (syncWritten config pending)
      (fun _ next => (start → InOrder allowed next) ∧ SameLedger world.disk next.disk)
      (fun stop _ => start → allowed stop) world := by
  rw [syncWritten, Eff.wp_ite]
  constructor
  · intro _
    exact ⟨h, SameLedger.refl _⟩
  · intro _
    apply wp_sync
    · exact fun stop _ hallows _ hstart => (h hstart).stops stop hallows
    intro environment hwithin
    exact ⟨fun hstart => ⟨(h hstart).steady, (h hstart).stops.within hwithin⟩,
      SameLedger.refl _⟩

/-- The originals of the duplicates are found, in the ledger or among the written records. -/
theorem wp_resolveDuplicates {captures : Table String CaptureLocator}
    {tasks : List (Nat × CaptureRecord)} {pending : List (Nat × CaptureLocator)}
    {stopped : Stop → World → Prop}
    (hnodup : ((decided captures .empty tasks).map fun entry => entry.1.1).Nodup)
    (hpending :
      List.Forall₂ Locates ((decided captures .empty tasks).filterMap firstOf) pending) :
    Eff.Wp (Eff.forEach ((decided captures .empty tasks).filterMap duplicateOf)
        (resolveDuplicate (Table.empty.insertAll pending)))
      (fun duplicates next => List.Forall₂ Resolves
        ((decided captures .empty tasks).filterMap duplicateOf) duplicates ∧ next = world)
      stopped world := by
  apply Eff.wp_forEach
  · rintro ⟨task, source⟩ hduplicate next rfl
    rw [resolveDuplicate]
    cases source with
    | existing locator => exact ⟨⟨rfl, rfl⟩, rfl⟩
    | batch index =>
        rcases mem_decided_of_batch (mem_filterMap_duplicateOf.mp hduplicate) with
          ⟨id, primary, hget, _⟩ | ⟨record, hfirst, hsame⟩
        · cases hget
        · obtain ⟨⟨at_, locator⟩, hrow, hlocates⟩ :=
            hpending.exists_right (mem_filterMap_firstOf.mpr hfirst)
          have hat : at_ = index := hlocates.index
          subst hat
          have hsha : locator.rawSha256 = record.sha256 := hlocates.rawSha256
          dsimp only
          rw [(get?_pending_iff hnodup hpending).mpr hrow]
          refine ⟨⟨rfl, ?_⟩, rfl⟩
          change Verdict.duplicate locator.rawSha256 = Verdict.duplicate task.2.sha256
          rw [hsha, hsame]
  · rfl

theorem Committed.sameLedger {batch : List CaptureRecord} {before after last : Disk}
    {results : List (Except SubmitError SubmitAck)} (h : Committed batch before results after)
    (hsame : SameLedger after last) : Committed batch before results last := by
  refine ⟨h.verdicts, ?_, ?_⟩
  · rw [hsame.captures]
    exact h.known
  · rw [hsame.counts]
    exact h.counts

/-- The rotation after a commit leaves what the commit did. -/
theorem wp_rotateIfFull (h : start → InOrder allowed world) {batch : List CaptureRecord}
    {before : Disk} {results : List (Except SubmitError SubmitAck)} {counters : LedgerCounters}
    {metadata : SegmentMetadata} (hmetadata : world.active.metadata = metadata)
    (hcommitted : Committed batch before results world.disk) :
    Eff.Wp
      (if 0 < metadata.records then do
        let aged ← isAged
        if config.segmentMaxBytes ≤ metadata.bytes ∨ aged = true then do
          let _ ← rotate sha256 config
          let counters ← readCounters
          pure (BatchCommit.mk results counters)
        else pure (BatchCommit.mk results counters)
      else pure (BatchCommit.mk results counters))
      (fun commit next => (start → InOrder allowed next) ∧
        Committed batch before commit.results next.disk)
      (fun stop _ => start → allowed stop) world := by
  subst hmetadata
  rw [Eff.wp_ite]
  constructor
  · intro hrecords
    rw [Eff.wp_bind]
    apply wp_isAged
    intro aged environment hwithin
    have hnext : start → InOrder allowed { world with environment } :=
      fun hstart => ⟨(h hstart).steady, (h hstart).stops.within hwithin⟩
    rw [Eff.wp_ite]
    constructor
    · intro _
      rw [Eff.wp_bind]
      apply (wp_rotate hnext (Nat.ne_of_gt hrecords)).mono _ fun _ _ h => h
      rintro _ rotated ⟨hrotated, hsame⟩
      rw [Eff.wp_bind]
      apply wp_readCounters
      · intro message hnone hstart
        have hsome := (hrotated hstart).steady.counters
        rw [hnone] at hsome
        cases hsome
      intro counters _
      exact ⟨hrotated, hcommitted.sameLedger hsame⟩
    · intro _
      exact ⟨hnext, hcommitted⟩
  · intro _
    exact ⟨h, hcommitted⟩

/-- A commit decides its records as a batch is meant to, and enters what it decided. -/
theorem wp_commitBatchInner (h : start → InOrder allowed world) (batch : List CaptureRecord) :
    Eff.Wp (commitBatchInner sha256 config batch)
      (fun commit next => (start → InOrder allowed next) ∧
        Committed batch world.disk commit.results next.disk)
      (fun stop _ => start → allowed stop) world := by
  have htasks : (batch.zipIdx.map fun task => (task.2, task.1)).map Prod.snd = batch := by
    rw [List.map_map]
    exact List.zipIdx_map_fst 0 batch
  have hindexes : ((batch.zipIdx.map fun task => (task.2, task.1)).map Prod.fst).Nodup := by
    rw [List.map_map]
    have hrange : batch.zipIdx.map (Prod.fst ∘ fun task => (task.2, task.1)) =
        List.range' 0 batch.length := List.zipIdx_map_snd 0 batch
    rw [hrange]
    exact List.nodup_range'
  rw [commitBatchInner, Eff.wp_bind, Eff.wp_get]
  generalize batch.zipIdx.map (fun task => (task.2, task.1)) = tasks at *
  obtain ⟨hfirsts, hduplicates, hconflicts⟩ := sortBatch_eq world.disk.captures tasks
  have hnodup : ((decided world.disk.captures .empty tasks).map fun entry => entry.1.1).Nodup := by
    have hmap := @decided_map_fst world.disk.captures .empty tasks
    rw [← hmap, List.map_map] at hindexes
    exact hindexes
  dsimp only
  rw [hfirsts, hduplicates, hconflicts, Eff.wp_bind]
  have hwrite := @Eff.wp_forEach World Stop (Nat × CaptureLocator)
    (fun stop _ => start → allowed stop) world (Nat × CaptureRecord)
    (writeRecord sha256 config) ((decided world.disk.captures .empty tasks).filterMap firstOf)
    Locates
    (fun next => (start → InOrder allowed next) ∧ SameLedger world.disk next.disk)
    (fun task _ next hnext => (wp_writeRecord hnext.1 task).mono
      (fun _ _ hafter => ⟨hafter.1, hafter.2.1, hnext.2.trans hafter.2.2⟩) fun _ _ h => h)
    ⟨h, SameLedger.refl _⟩
  apply hwrite.mono _ fun _ _ h => h
  rintro pending next ⟨hpending, hnext, hsame⟩
  rw [Eff.wp_bind]
  apply (wp_syncWritten hnext pending).mono _ fun _ _ h => h
  rintro _ synced ⟨hsynced, hsame'⟩
  replace hsame := hsame.trans hsame'
  rw [Eff.wp_bind]
  apply (wp_resolveDuplicates hnodup hpending).mono _ fun _ _ h => h
  rintro duplicates resolved ⟨hresolved, rfl⟩
  rw [Eff.wp_bind]
  apply wp_utcNow
  intro now environment hwithin
  rw [Eff.wp_bind]
  apply wp_readCounters
  · intro message hnone hstart
    have hsome := (hsynced hstart).steady.counters
    rw [show resolved.disk.counters = none from hnone] at hsome
    cases hsome
  intro counters hcounters
  rw [Eff.wp_bind, Eff.wp_get, Eff.wp_bind, Eff.wp_modify, Eff.wp_bind]
  apply wp_effect
  · exact fun stop _ hallows _ hstart => ((hsynced hstart).stops.within hwithin) stop hallows
  intro environment hwithin'
  rw [Eff.wp_bind]
  have houtcomes : Outcomes (decided world.disk.captures .empty tasks) pending duplicates :=
    ⟨hnodup, hpending, hresolved⟩
  have hanswer := @wp_batchResults _ _ _ houtcomes
  rw [decided_map_fst] at hanswer
  apply hanswer.mono _ fun _ _ h => h
  rintro results entered ⟨hresults, rfl⟩
  refine wp_rotateIfFull ?_ rfl ?_
  · intro hstart
    have hsteady := (hsynced hstart).steady
    refine ⟨⟨⟨rfl, ?_⟩, hsteady.path, ?_⟩, ?_⟩
    · intro file hfile
      exact Nat.lt_of_lt_of_le (hsteady.files file hfile) (nextKey_le_insert _ _)
    · exact Nat.lt_of_lt_of_le hsteady.handle (nextKey_le_insert _ _)
    · exact ((hsynced hstart).stops.within hwithin).within hwithin'
  have hverdicts : results.map verdictOf =
      judgeBatch (knownOf world.disk.captures) (fun _ => none) batch := by
    rw [hresults, ← htasks]
    exact decided_verdicts .empty tasks
  refine ⟨hverdicts, ?_, ?_⟩
  · dsimp only
    rw [hsame.captures, knownOf_insertAll hpending, ← htasks]
    have hlearn := @learn_decided world.disk.captures .empty tasks
    rw [both_empty] at hlearn
    exact hlearn.symm
  · rw [hresults, tally_entries, ← hsame.counts, counts, counts,
      show resolved.disk.counters = some counters from hcounters, hpending.length_eq,
      hresolved.length_eq]
    rfl

/-- Commit the records one at a time. -/
def commitEach (sha256 : Bytes → String) (config : StoreConfig) (records : List CaptureRecord) :
    StoreM (List BatchCommit) :=
  Eff.forEach records fun record => commitBatchInner sha256 config [record]

def answers (commits : List BatchCommit) : List (Except SubmitError SubmitAck) :=
  commits.flatMap BatchCommit.results

theorem judgeBatch_singleton (known : Known) (record : CaptureRecord) :
    judgeBatch known (fun _ => none) [record] = [judge known record] := by
  rw [judgeBatch, judgeBatch, judgeInBatch, judge]

theorem wp_commitEach (h : start → InOrder allowed world) (records : List CaptureRecord) :
    Eff.Wp (commitEach sha256 config records)
      (fun commits next => (start → InOrder allowed next) ∧
        (answers commits).map verdictOf = judgeEach (knownOf world.disk.captures) records ∧
        knownOf next.disk.captures = records.foldl learn (knownOf world.disk.captures) ∧
        counts next.disk =
          (counts world.disk).map (· + tally ((answers commits).map verdictOf)))
      (fun stop _ => start → allowed stop) world := by
  induction records generalizing world with
  | nil =>
      refine ⟨h, rfl, rfl, ?_⟩
      cases counts world.disk <;> rfl
  | cons record rest ih =>
      rw [commitEach, Eff.forEach, Eff.wp_bind]
      apply (wp_commitBatchInner h [record]).mono _ fun _ _ h => h
      rintro commit next ⟨hnext, hcommitted⟩
      rw [Eff.wp_bind]
      apply (ih hnext).mono _ fun _ _ h => h
      rintro commits last ⟨hlast, hverdicts, hknown, hcounts⟩
      have hanswers : (answers (commit :: commits)).map verdictOf =
          commit.results.map verdictOf ++ (answers commits).map verdictOf := by
        rw [answers, List.flatMap_cons, List.map_append, answers]
      have hlearned : knownOf next.disk.captures = learn (knownOf world.disk.captures) record :=
        hcommitted.known
      refine ⟨hlast, ?_, ?_, ?_⟩
      · rw [hanswers, hcommitted.verdicts, judgeBatch_singleton, hverdicts, hlearned]
        rfl
      · rw [hknown, hlearned, List.foldl_cons]
      · rw [hcounts, hcommitted.counts, hanswers, tally_append, Option.map_map]
        congr 1
        funext before
        exact add_assoc before _ _

/-- A batch and its records one at a time got the same answers and left the same captures and
the same counts. -/
structure Agrees (whole : BatchCommit) (next : World) (each : List BatchCommit) (last : World) :
    Prop where
  verdicts : whole.results.map verdictOf = (answers each).map verdictOf
  known : knownOf next.disk.captures = knownOf last.disk.captures
  counts : counts next.disk = counts last.disk

/-- Whatever the disk and the writer are, commits that return agree exactly when the batch holds
no legacy retry of one of its own records. -/
theorem agrees_iff {other next last : World} {records : List CaptureRecord} {whole : BatchCommit}
    {each : List BatchCommit} (hdisk : other.disk = world.disk)
    (hwhole : commitBatchInner sha256 config records world = (.ok whole, next))
    (heach : commitEach sha256 config records other = (.ok each, last)) :
    Agrees whole next each last ↔ NoLegacyRetry (knownOf world.disk.captures) records := by
  have hcommit := @wp_commitBatchInner sha256 config world False (fun _ => True)
    (fun hfalse => hfalse.elim) records
  obtain ⟨_, hcommitted⟩ := hcommit.ok hwhole
  have hcommits := @wp_commitEach sha256 config other False (fun _ => True)
    (fun hfalse => hfalse.elim) records
  obtain ⟨_, hverdicts, hknown, hcounts⟩ := hcommits.ok heach
  rw [hdisk] at hverdicts hknown hcounts
  rw [← judgeBatch_eq_iff, ← hcommitted.verdicts, ← hverdicts]
  constructor
  · exact fun hagrees => hagrees.verdicts
  · intro hsame
    refine ⟨hsame, ?_, ?_⟩
    · rw [hcommitted.known, hknown]
    · rw [hcommitted.counts, hcounts, hsame]

end Commit

section Service

variable {sha256 : Bytes → String} {config : StoreConfig}

theorem wp_sealAndRotate {world : World} {start : Prop} {allowed : Stop → Prop}
    (h : start → InOrder allowed world) :
    Eff.Wp (sealAndRotate sha256 config) (fun _ next => start → InOrder allowed next)
      (fun stop _ => start → allowed stop) world := by
  rw [sealAndRotate, Eff.wp_bind, Eff.wp_get, Eff.wp_ite]
  constructor
  · intro _
    rw [Eff.wp_bind]
    apply wp_sync
    · exact fun stop _ hallows _ hstart => (h hstart).stops stop hallows
    intro environment hwithin hstart
    exact ⟨(h hstart).steady, (h hstart).stops.within hwithin⟩
  · intro hrecords
    rw [Eff.wp_bind]
    apply (wp_rotate h hrecords).mono _ fun _ _ h => h
    rintro finished next ⟨hnext, _⟩
    rw [Eff.wp_bind]
    apply wp_readCounters
    · intro message hnone hstart
      have hsome := (hnext hstart).steady.counters
      rw [hnone] at hsome
      cases hsome
    · exact fun _ _ => hnext

/-- A writer that serves is in order. -/
def InService (store : Store) : Prop :=
  ∀ writer, store.writer = some writer → Steady store.disk writer.active

/-- No effect of a flush fails; it may crash. -/
def FlushHolds (event : Event) : Prop :=
  event.1 = .flush → ∀ message, ¬ Allows event.2 (.failed message)

theorem inService_of_none {store : Store} (h : store.writer = none) : InService store := by
  intro writer hwriter
  rw [h] at hwriter
  cases hwriter

theorem inService_open (store : Store) (environment : Environment) (h : InService store) :
    InService (store.stepOpen sha256 config environment) := by
  rw [Store.stepOpen]
  split_ifs
  · exact h
  · cases hrun : store.runOn environment (openWriter sha256 config) with
    | mk result world =>
        cases result with
        | error stop => exact inService_of_none rfl
        | ok opened =>
            have hopened : Steady world.disk world.active := wp_openWriter.ok hrun
            intro writer hwriter
            cases hwriter
            exact hopened

theorem inService_commit (store : Store) (environment : Environment)
    (batch : List CaptureRecord) (h : InService store) :
    InService (store.stepCommit sha256 config environment batch) := by
  rw [Store.stepCommit]
  split_ifs with hidle
  · exact h
  · cases hwriter : store.writer with
    | none =>
        rw [hwriter] at hidle
        exact absurd rfl hidle
    | some writer =>
        cases hrun : store.runOn environment (commitBatchInner sha256 config batch) with
        | mk result world =>
            cases result with
            | error stop => cases stop <;> exact inService_of_none rfl
            | ok commit =>
                rw [Store.runOn, hwriter] at hrun
                have hcommit := @wp_commitBatchInner sha256 config
                  ⟨store.disk, writer.active, writer.nextAttemptId, environment⟩ True
                  (fun _ => True) (fun _ => ⟨h writer hwriter, fun _ _ => trivial⟩) batch
                have hsteady := ((hcommit.ok hrun).1 trivial).steady
                intro other hother
                cases hother
                exact hsteady

theorem inService_flush (store : Store) (environment : Environment)
    (hholds : ∀ message, ¬ Allows environment (.failed message)) (h : InService store) :
    InService (store.stepFlush sha256 config environment) := by
  rw [Store.stepFlush]
  split_ifs with hidle
  · exact h
  · cases hwriter : store.writer with
    | none =>
        rw [hwriter] at hidle
        exact absurd rfl hidle
    | some writer =>
        have hstops : StopsOnly (· = .crashed) environment := by
          intro stop hallows
          cases stop with
          | failed message => exact absurd hallows (hholds message)
          | crashed => rfl
        have hflush := @wp_sealAndRotate sha256 config
          ⟨store.disk, writer.active, writer.nextAttemptId, environment⟩ True (· = .crashed)
          (fun _ => ⟨h writer hwriter, hstops⟩)
        cases hrun : store.runOn environment (sealAndRotate sha256 config) with
        | mk result world =>
            rw [Store.runOn, hwriter] at hrun
            cases result with
            | error stop =>
                have hcrashed : stop = .crashed := hflush.error hrun trivial
                subst hcrashed
                exact inService_of_none rfl
            | ok flushed =>
                have hsteady := (hflush.ok hrun trivial).steady
                intro other hother
                cases hother
                exact hsteady

/-- Every step keeps the writer in order, unless an effect of a flush fails. -/
theorem inService_step (store : Store) (event : Event) (h : InService store)
    (hholds : FlushHolds event) : InService (store.step sha256 config event) := by
  obtain ⟨command, environment⟩ := event
  cases command with
  | «open» => exact inService_open store environment h
  | commit batch => exact inService_commit store environment batch h
  | flush => exact inService_flush store environment (hholds rfl) h
  | shutdown =>
      change InService (store.stepShutdown sha256 config environment)
      rw [Store.stepShutdown]
      split_ifs
      · exact h
      · cases store.runOn environment (shutdownActive sha256 config) with
        | mk result world =>
            cases result with
            | ok _ => exact inService_of_none rfl
            | error stop => cases stop <;> exact inService_of_none rfl
  | kill => exact inService_of_none rfl

/-- A store that serves after some run in which no effect of a flush failed. -/
def Serves (sha256 : Bytes → String) (config : StoreConfig) (store : Store) : Prop :=
  store.writer.isSome ∧ ∃ events, (∀ event ∈ events, FlushHolds event) ∧
    Machine.run (Store.step sha256 config) .initial events = store

theorem Serves.inService {store : Store} (h : Serves sha256 config store) : InService store := by
  obtain ⟨_, events, hevents, rfl⟩ := h
  have halong : Machine.Along (Store.step sha256 config) (fun _ event => FlushHolds event) .initial
      events := Machine.along_of_forall fun _ event hevent => hevents event hevent
  exact Machine.run_preserves_along
    (fun store event hstore hholds => inService_step store event hstore hholds)
    (inService_of_none rfl) halong

/-- No effect ends other than done. -/
def Faultless (environment : Environment) : Prop := ∀ stop, ¬ Allows environment stop

theorem Serves.inOrder {store : Store} (h : Serves sha256 config store)
    {environment : Environment} (hfaultless : Faultless environment) :
    InOrder (fun _ => False) ⟨store.disk, (store.writer.getD ⟨Store.inactive, 1⟩).active,
      (store.writer.getD ⟨Store.inactive, 1⟩).nextAttemptId, environment⟩ := by
  obtain ⟨writer, hwriter⟩ := Option.isSome_iff_exists.mp h.1
  rw [hwriter]
  exact ⟨h.inService writer hwriter, hfaultless⟩

namespace LegacyRetry

/-- A stored record of an old version, and its retry as it is normalized today: it knows the
digest of the old bytes. -/
def stored : CaptureRecord :=
  { captureId := "cap-legacy", canonical := [123, 125], sha256 := "raw", legacyRawSha256 := none
    receivedAt := none, model := none, wireEvidence := ⟨false, false, false⟩ }

def retry : CaptureRecord :=
  { stored with
    canonical := [123, 32, 125], sha256 := "normalized", legacyRawSha256 := some "raw" }

def calm : Environment := ⟨[], [], []⟩

def opened : Store :=
  Store.initial.step (fun _ => "digest") ⟨4096, true⟩ (.open, calm)

theorem calm_faultless : Faultless calm := by
  intro stop hallows
  cases stop with
  | failed message => exact List.not_mem_nil hallows.choose_spec
  | crashed => exact List.not_mem_nil hallows.choose_spec

theorem opened_serves : Serves (fun _ => "digest") ⟨4096, true⟩ opened := by
  refine ⟨by decide, [(.open, calm)], ?_, rfl⟩
  intro event hevent hflush
  rw [List.mem_singleton.mp hevent] at hflush
  cases hflush

end LegacyRetry

end Service

end ChipTrace.CaptureStore
