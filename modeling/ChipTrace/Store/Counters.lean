/-
The counters of the ledger against its tables: what the counters say while the
writer seals, rotates and commits.
-/
import ChipTrace.Store.Steady
import ChipTrace.Store.Decisions
import ChipTrace.Lib.Pairing

namespace ChipTrace.CaptureStore

section Tables

variable {disk : Disk}

/-- Entering an open segment, in place of an open one if of any, counts nothing. -/
theorem countersFromTables_open {metadata : SegmentMetadata} (hstate : metadata.state = .open)
    (hold : ∀ row, disk.segments.get? metadata.segmentId = some row → row.state = .open) :
    { disk with segments := disk.segments.insert metadata.segmentId metadata }.countersFromTables =
      disk.countersFromTables := by
  have hweigh : ∀ weight : SegmentMetadata → Nat,
      (disk.segments.insert metadata.segmentId metadata).weigh
          (fun _ segment => if segment.state = .sealed then weight segment else 0) =
        disk.segments.weigh fun _ segment =>
          if segment.state = .sealed then weight segment else 0 := by
    intro weight
    have hinsert := disk.segments.weigh_insert
      (fun _ segment => if segment.state = .sealed then weight segment else 0)
      metadata.segmentId metadata
    cases hrow : disk.segments.get? metadata.segmentId with
    | none => simpa [hrow, hstate] using hinsert
    | some row => simpa [hrow, hold row hrow, hstate] using hinsert
  simp only [Disk.countersFromTables, hweigh fun _ => 1, hweigh SegmentMetadata.bytes]

/-- Entering a sealed segment in place of an open one counts it and its bytes. -/
theorem countersFromTables_seal {metadata row : SegmentMetadata}
    (hstate : metadata.state = .sealed)
    (hrow : disk.segments.get? metadata.segmentId = some row) (hopen : row.state = .open) :
    { disk with segments := disk.segments.insert metadata.segmentId metadata }.countersFromTables =
      disk.countersFromTables.addSealed metadata.bytes := by
  have hweigh : ∀ weight : SegmentMetadata → Nat,
      (disk.segments.insert metadata.segmentId metadata).weigh
          (fun _ segment => if segment.state = .sealed then weight segment else 0) =
        disk.segments.weigh (fun _ segment =>
          if segment.state = .sealed then weight segment else 0) + weight metadata := by
    intro weight
    have hinsert := disk.segments.weigh_insert
      (fun _ segment => if segment.state = .sealed then weight segment else 0)
      metadata.segmentId metadata
    simpa [hrow, hopen, hstate] using hinsert
  simp only [Disk.countersFromTables, hweigh fun _ => 1, hweigh SegmentMetadata.bytes,
    LedgerCounters.addSealed]

theorem numberRows_nil (first : Nat) : numberRows first [] = [] := rfl

theorem numberRows_cons (first : Nat) (row : Nat → Attempt) (rest : List (Nat → Attempt)) :
    numberRows first (row :: rest) = (first, row first) :: numberRows (first + 1) rest := by
  rw [numberRows, List.zipIdx_cons, List.map_cons, numberRows, List.zipIdx_succ, List.map_map]
  congr 1
  apply List.map_congr_left
  rintro ⟨row, index⟩ _
  simp only [Function.comp_apply, Nat.add_assoc, Nat.add_comm 1]

theorem le_of_mem_numberRows {first : Nat} {rows : List (Nat → Attempt)} {row : Nat × Attempt}
    (h : row ∈ numberRows first rows) : first ≤ row.1 ∧ row.1 < first + rows.length := by
  induction rows generalizing first with
  | nil => cases h
  | cons head rest ih =>
      rw [numberRows_cons] at h
      rw [List.length_cons]
      rcases List.mem_cons.mp h with rfl | hrest
      · exact ⟨Nat.le_refl _, by omega⟩
      · have hbounds := ih hrest
        omega

theorem nodup_numberRows (first : Nat) (rows : List (Nat → Attempt)) :
    ((numberRows first rows).map Prod.fst).Nodup := by
  induction rows generalizing first with
  | nil => exact List.nodup_nil
  | cons head rest ih =>
      rw [numberRows_cons, List.map_cons, List.nodup_cons]
      refine ⟨?_, ih (first + 1)⟩
      intro hmem
      obtain ⟨row, hrow, hsame⟩ := List.mem_map.mp hmem
      have hbounds := le_of_mem_numberRows hrow
      omega

theorem numberRows_append (first : Nat) (rows more : List (Nat → Attempt)) :
    numberRows first (rows ++ more) =
      numberRows first rows ++ numberRows (first + rows.length) more := by
  induction rows generalizing first with
  | nil => rfl
  | cons head rest ih =>
      rw [List.cons_append, numberRows_cons, numberRows_cons, ih, List.cons_append,
        List.length_cons, Nat.add_assoc, Nat.add_comm 1]

/-- Rows of one state weigh alike. -/
theorem sum_numberRows {first : Nat} {rows : List (Nat → Attempt)} {state : AttemptState}
    (weight : AttemptState → Nat) (h : ∀ row ∈ rows, ∀ id, (row id).state = state) :
    ((numberRows first rows).map fun row => weight row.2.state).sum =
      rows.length * weight state := by
  induction rows generalizing first with
  | nil => rw [numberRows_nil, List.map_nil, List.sum_nil, List.length_nil, Nat.zero_mul]
  | cons head rest ih =>
      rw [numberRows_cons, List.map_cons, List.sum_cons, h head List.mem_cons_self,
        ih fun row hrow => h row (List.mem_cons_of_mem _ hrow), List.length_cons, Nat.succ_mul,
        Nat.add_comm]

variable {now : String} {sorted : Sorted} {pending : List (Nat × CaptureLocator)}
  {duplicates : List ((Nat × CaptureRecord) × CaptureLocator)}

theorem length_attemptRows (hpending : pending.length = sorted.pending.length) :
    (attemptRows now sorted pending duplicates).length =
      pending.length + duplicates.length + sorted.conflicts.length := by
  rw [attemptRows, List.length_append, List.length_append, List.length_map, List.length_map,
    List.length_map, List.length_zip, hpending, Nat.min_self]

/-- The attempts of a batch weigh as its first captures, duplicates and conflicts do. -/
theorem sum_attemptRows {first : Nat} (weight : AttemptState → Nat)
    (hpending : pending.length = sorted.pending.length) :
    ((numberRows first (attemptRows now sorted pending duplicates)).map fun row =>
        weight row.2.state).sum =
      pending.length * weight .accepted + duplicates.length * weight .duplicate +
        sorted.conflicts.length * weight .conflict := by
  have hconst : ∀ {A : Type} (items : List A) (row : A → Nat → Attempt) (state : AttemptState),
      (∀ item id, (row item id).state = state) → ∀ first,
      ((numberRows first (items.map row)).map fun entry : Nat × Attempt =>
          weight entry.2.state).sum = items.length * weight state := by
    intro A items row state hstate first
    have hrows : ∀ other ∈ items.map row, ∀ id, (other id).state = state := by
      intro other hother id
      obtain ⟨item, _, rfl⟩ := List.mem_map.mp hother
      exact hstate item id
    rw [sum_numberRows weight hrows, List.length_map]
  rw [attemptRows, numberRows_append, numberRows_append, List.map_append, List.map_append,
    List.sum_append, List.sum_append, hconst _ _ .accepted fun _ _ => rfl,
    hconst _ _ .duplicate fun _ _ => rfl, hconst _ _ .conflict fun _ _ => rfl, List.length_zip,
    hpending, Nat.min_self]

theorem committedAt_of_mem {first : Nat} {row : Nat × Attempt}
    (h : row ∈ numberRows first (attemptRows now sorted pending duplicates)) :
    row.2.committedAt = some now := by
  obtain ⟨⟨make, index⟩, hmem, rfl⟩ := List.mem_map.mp h
  have hmake := List.fst_mem_of_mem_zipIdx hmem
  rw [attemptRows, List.mem_append, List.mem_append] at hmake
  rcases hmake with (hmake | hmake) | hmake
  all_goals
    obtain ⟨item, _, rfl⟩ := List.mem_map.mp hmake
    rfl

/-- The counters of a batch are those of the tables after it. -/
theorem countersFromTables_commit {active : SegmentMetadata} {next : Nat} {attempts : Nat}
    (hfresh : ∀ id, (disk.attempts.get? id).isSome → id < next)
    (hpending : pending.length = sorted.pending.length)
    (hattempts : attempts = pending.length + duplicates.length + sorted.conflicts.length)
    (hpositive : 0 < attempts)
    (hnodup : (pending.map fun row : Nat × CaptureLocator => row.2.captureId).Nodup)
    (hnew : ∀ row ∈ pending, disk.captures.get? row.2.captureId = none)
    (hactive : active.state = .open)
    (hold : ∀ row, disk.segments.get? active.segmentId = some row → row.state = .open) :
    { disk with
      captures := disk.captures.insertAll
        (pending.map fun row : Nat × CaptureLocator => (row.2.captureId, row.2))
      attempts := disk.attempts.insertAll
        (numberRows next (attemptRows now sorted pending duplicates))
      segments := disk.segments.insert active.segmentId active }.countersFromTables =
      disk.countersFromTables.addBatch attempts pending.length duplicates.length
        sorted.conflicts.length now := by
  have hrows : ∀ row ∈ numberRows next (attemptRows now sorted pending duplicates),
      disk.attempts.get? row.1 = none := by
    intro row hrow
    by_contra hsome
    have hlt := hfresh row.1 (Option.isSome_iff_ne_none.mpr hsome)
    exact absurd (le_of_mem_numberRows hrow).1 (Nat.not_le_of_gt hlt)
  have hweigh : ∀ weight : AttemptState → Nat,
      (disk.attempts.insertAll (numberRows next (attemptRows now sorted pending duplicates))).weigh
          (fun _ attempt => weight attempt.state) =
        disk.attempts.weigh (fun _ attempt => weight attempt.state) +
          (pending.length * weight .accepted + duplicates.length * weight .duplicate +
            sorted.conflicts.length * weight .conflict) := by
    intro weight
    rw [Table.weigh_insertAll _ _ (nodup_numberRows next _) hrows]
    exact congrArg _ (sum_attemptRows weight hpending)
  have hcaptures : (disk.captures.insertAll
      (pending.map fun row => (row.2.captureId, row.2))).len =
        disk.captures.len + pending.length := by
    rw [Table.len_eq_weigh, Table.weigh_insertAll, Table.len_eq_weigh, List.map_map]
    · simp [Function.comp_def]
    · rwa [List.map_map]
    · intro row hrow
      obtain ⟨item, hitem, rfl⟩ := List.mem_map.mp hrow
      exact hnew item hitem
  have hsome : numberRows next (attemptRows now sorted pending duplicates) ≠ [] := by
    intro hnil
    have hlength := congrArg List.length hnil
    rw [numberRows, List.length_map, List.length_zipIdx, length_attemptRows hpending,
      ← hattempts] at hlength
    exact absurd hlength (Nat.ne_of_gt hpositive)
  obtain ⟨last, hlast, hlast'⟩ := Table.last?_insertAll hsome fun row hrow id hid =>
    Nat.lt_of_lt_of_le (hfresh id hid) (le_of_mem_numberRows hrow).1
  have hsegments := congrArg (fun counters => (counters.sealedSegments, counters.sealedBytes))
    (countersFromTables_open hactive hold)
  have haccepted := hweigh fun state => if state == .accepted || state == .recovered then 1 else 0
  have hduplicate := hweigh fun state => if state == .duplicate then 1 else 0
  have hconflict := hweigh fun state => if state == .conflict then 1 else 0
  have hrejected := hweigh fun state => if state == .rejected then 1 else 0
  have hlen := hweigh fun _ => 1
  rw [← Table.len_eq_weigh, ← Table.len_eq_weigh] at hlen
  simp only [Disk.countersFromTables, Prod.mk.injEq] at hsegments
  simp only [Disk.countersFromTables, LedgerCounters.addBatch, LedgerCounters.mk.injEq,
    hcaptures, hlen, haccepted, hduplicate, hconflict, hrejected, hsegments.1, hsegments.2,
    hlast', Option.bind_some, committedAt_of_mem hlast, hattempts]
  refine ⟨trivial, ?_, ?_, ?_, ?_, ?_, trivial, trivial, trivial⟩ <;> simp <;> omega

end Tables

end ChipTrace.CaptureStore
