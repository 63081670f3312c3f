/-
How a batch is sorted: what becomes of each record, that these decisions are the
verdicts a batch is meant to give, and what the first records of a batch bring.
-/
import ChipTrace.Store.Writer
import ChipTrace.Store.Verdicts

namespace ChipTrace.CaptureStore

section Decisions

/-- What becomes of a record of a batch. -/
inductive Decision where
  | first
  | duplicate (source : DuplicateSource)
  | conflict

def decideTask (captures : Table String CaptureLocator)
    (primaryById : Table String (Nat × CaptureRecord)) (task : Nat × CaptureRecord) : Decision :=
  match captures.get? task.2.captureId with
  | some locator =>
      if task.2.matchesPersistedSha256 locator.rawSha256 then .duplicate (.existing locator)
      else .conflict
  | none =>
      match primaryById.get? task.2.captureId with
      | some primary =>
          if primary.2.sha256 = task.2.sha256 then .duplicate (.batch primary.1) else .conflict
      | none => .first

def Decision.verdict (record : CaptureRecord) : Decision → Verdict
  | .first => .accepted record.sha256
  | .duplicate (.existing locator) => .duplicate locator.rawSha256
  | .duplicate (.batch _) => .duplicate record.sha256
  | .conflict => .conflict

def enterFirst (primaryById : Table String (Nat × CaptureRecord)) (task : Nat × CaptureRecord) :
    Decision → Table String (Nat × CaptureRecord)
  | .first => primaryById.insert task.2.captureId task
  | _ => primaryById

/-- The tasks with what becomes of each. -/
def decided (captures : Table String CaptureLocator) :
    Table String (Nat × CaptureRecord) → List (Nat × CaptureRecord) →
      List ((Nat × CaptureRecord) × Decision)
  | _, [] => []
  | primaryById, task :: rest =>
      let decision := decideTask captures primaryById task
      (task, decision) :: decided captures (enterFirst primaryById task decision) rest

def firstOf (entry : (Nat × CaptureRecord) × Decision) : Option (Nat × CaptureRecord) :=
  match entry.2 with
  | .first => some entry.1
  | _ => none

def duplicateOf (entry : (Nat × CaptureRecord) × Decision) :
    Option ((Nat × CaptureRecord) × DuplicateSource) :=
  match entry.2 with
  | .duplicate source => some (entry.1, source)
  | _ => none

def conflictOf (entry : (Nat × CaptureRecord) × Decision) : Option (Nat × CaptureRecord) :=
  match entry.2 with
  | .conflict => some entry.1
  | _ => none

variable {captures : Table String CaptureLocator}

theorem decided_map_fst (primaryById : Table String (Nat × CaptureRecord))
    (tasks : List (Nat × CaptureRecord)) :
    (decided captures primaryById tasks).map Prod.fst = tasks := by
  induction tasks generalizing primaryById with
  | nil => rfl
  | cons task rest ih => rw [decided, List.map_cons, ih]

def Sorted.enter (sorted : Sorted) (task : Nat × CaptureRecord) (decision : Decision) : Sorted :=
  { primaryById := enterFirst sorted.primaryById task decision
    pending := sorted.pending ++ (firstOf (task, decision)).toList
    duplicates := sorted.duplicates ++ (duplicateOf (task, decision)).toList
    conflicts := sorted.conflicts ++ (conflictOf (task, decision)).toList }

theorem Sorted.add_eq (sorted : Sorted) (task : Nat × CaptureRecord) :
    Sorted.add captures sorted task =
      sorted.enter task (decideTask captures sorted.primaryById task) := by
  rw [Sorted.add, decideTask]
  cases captures.get? task.2.captureId with
  | some locator =>
      dsimp only
      split_ifs <;> simp [Sorted.enter, enterFirst, firstOf, duplicateOf, conflictOf]
  | none =>
      cases sorted.primaryById.get? task.2.captureId with
      | some primary =>
          dsimp only
          split_ifs <;> simp [Sorted.enter, enterFirst, firstOf, duplicateOf, conflictOf]
      | none => simp [Sorted.enter, enterFirst, firstOf, duplicateOf, conflictOf]

/-- The batch is sorted by the decisions, each list in the order of the batch. -/
theorem foldl_add (sorted : Sorted) (tasks : List (Nat × CaptureRecord)) :
    (tasks.foldl (Sorted.add captures) sorted).pending =
        sorted.pending ++ (decided captures sorted.primaryById tasks).filterMap firstOf ∧
      (tasks.foldl (Sorted.add captures) sorted).duplicates =
        sorted.duplicates ++ (decided captures sorted.primaryById tasks).filterMap duplicateOf ∧
      (tasks.foldl (Sorted.add captures) sorted).conflicts =
        sorted.conflicts ++ (decided captures sorted.primaryById tasks).filterMap conflictOf := by
  induction tasks generalizing sorted with
  | nil => simp [decided]
  | cons task rest ih =>
      rw [List.foldl_cons, decided]
      rw [Sorted.add_eq]
      obtain ⟨hpending, hduplicates, hconflicts⟩ :=
        ih (sorted.enter task (decideTask captures sorted.primaryById task))
      have hcons : ∀ {B : Type} (f : (Nat × CaptureRecord) × Decision → Option B) entry entries,
          (entry :: entries).filterMap f = (f entry).toList ++ entries.filterMap f := by
        intro B f entry entries
        rw [List.filterMap_cons]
        cases f entry <;> rfl
      rw [hpending, hduplicates, hconflicts, hcons, hcons, hcons]
      simp only [Sorted.enter, List.append_assoc, and_self]

theorem sortBatch_eq (captures : Table String CaptureLocator)
    (tasks : List (Nat × CaptureRecord)) :
    (sortBatch captures tasks).pending = (decided captures .empty tasks).filterMap firstOf ∧
      (sortBatch captures tasks).duplicates =
        (decided captures .empty tasks).filterMap duplicateOf ∧
      (sortBatch captures tasks).conflicts =
        (decided captures .empty tasks).filterMap conflictOf := by
  have hfold := @foldl_add captures .empty tasks
  simp only [Sorted.empty, List.nil_append] at hfold
  exact hfold

/-- The digest under which the ledger knows each capture. -/
def knownOf (captures : Table String CaptureLocator) : Known := fun id =>
  (captures.get? id).map CaptureLocator.rawSha256

def broughtOf (primaryById : Table String (Nat × CaptureRecord)) : Known := fun id =>
  (primaryById.get? id).map fun task => task.2.sha256

/-- The decisions are the verdicts that a batch is meant to give. -/
theorem decided_verdicts (primaryById : Table String (Nat × CaptureRecord))
    (tasks : List (Nat × CaptureRecord)) :
    (decided captures primaryById tasks).map (fun entry => entry.2.verdict entry.1.2) =
      judgeBatch (knownOf captures) (broughtOf primaryById) (tasks.map Prod.snd) := by
  induction tasks generalizing primaryById with
  | nil => rfl
  | cons task rest ih =>
      rw [decided, List.map_cons, List.map_cons, judgeBatch, ih]
      have hlearn : broughtOf (enterFirst primaryById task
          (decideTask captures primaryById task)) =
            learnInBatch (knownOf captures) (broughtOf primaryById) task.2 := by
        rw [learnInBatch, learn, decideTask, knownOf, broughtOf]
        cases captures.get? task.2.captureId with
        | some locator =>
            rw [Option.map_some, Option.isSome_some, if_pos rfl]
            dsimp only
            split_ifs <;> rfl
        | none =>
            rw [Option.map_none, Option.isSome_none, if_neg Bool.false_ne_true]
            cases primaryById.get? task.2.captureId with
            | some primary =>
                rw [Option.map_some, Option.isSome_some, if_pos rfl]
                dsimp only
                split_ifs <;> rfl
            | none =>
                rw [Option.map_none, Option.isSome_none, if_neg Bool.false_ne_true]
                funext id
                simp only [enterFirst, broughtOf, Table.get?_insert, Function.update_apply]
                split_ifs <;> rfl
      rw [hlearn]
      congr 1
      rw [judgeInBatch, decideTask, knownOf, broughtOf]
      cases captures.get? task.2.captureId with
      | some locator =>
          dsimp only [Option.map_some]
          rw [againstKnown]
          split_ifs <;> rfl
      | none =>
          cases primaryById.get? task.2.captureId with
          | some primary =>
              dsimp only [Option.map_none, Option.map_some]
              rw [againstKnown]
              split_ifs <;> simp_all [Decision.verdict]
          | none => rfl

/-- What is known after a first record. -/
def bring (known : Known) (task : Nat × CaptureRecord) : Known :=
  Function.update known task.2.captureId (some task.2.sha256)

/-- What a batch teaches is what its first records bring. -/
theorem learn_decided (primaryById : Table String (Nat × CaptureRecord))
    (tasks : List (Nat × CaptureRecord)) :
    (tasks.map Prod.snd).foldl learn (both (knownOf captures) (broughtOf primaryById)) =
      ((decided captures primaryById tasks).filterMap firstOf).foldl bring
        (both (knownOf captures) (broughtOf primaryById)) := by
  induction tasks generalizing primaryById with
  | nil => rfl
  | cons task rest ih =>
      rw [List.map_cons, List.foldl_cons, decided, List.filterMap_cons, decideTask, learn, both,
        knownOf, broughtOf]
      cases hledger : captures.get? task.2.captureId with
      | some locator =>
          dsimp only [Option.map_some, Option.some_or, Option.isSome_some]
          simp only [if_true]
          split_ifs <;> exact ih primaryById
      | none =>
          cases hbatch : primaryById.get? task.2.captureId with
          | some primary =>
              dsimp only [Option.map_some, Option.map_none, Option.none_or, Option.isSome_some]
              simp only [if_true]
              split_ifs <;> exact ih primaryById
          | none =>
              dsimp only [Option.map_none, Option.none_or, Option.isSome_none]
              simp only [Bool.false_eq_true, if_false]
              have hnext : bring (both (knownOf captures) (broughtOf primaryById)) task =
                  both (knownOf captures) (broughtOf (enterFirst primaryById task .first)) := by
                funext id
                rw [bring, Function.update_apply, both, both, enterFirst, broughtOf, broughtOf,
                  Table.get?_insert]
                split_ifs with hid
                · subst hid
                  rw [knownOf, hledger]
                  rfl
                · rfl
              change (rest.map Prod.snd).foldl learn
                (bring (both (knownOf captures) (broughtOf primaryById)) task) = _
              rw [hnext, ih]
              change _ = (task :: (decided captures (enterFirst primaryById task .first)
                rest).filterMap firstOf).foldl _ _
              rw [List.foldl_cons, hnext]

/-- A duplicate inside the batch has the digest of a first record of the batch. -/
theorem mem_decided_of_batch {primaryById : Table String (Nat × CaptureRecord)}
    {tasks : List (Nat × CaptureRecord)} {task : Nat × CaptureRecord} {index : Nat}
    (h : (task, .duplicate (.batch index)) ∈ decided captures primaryById tasks) :
    (∃ id primary, primaryById.get? id = some primary ∧ primary.1 = index ∧
        primary.2.sha256 = task.2.sha256) ∨
      ∃ record, ((index, record), Decision.first) ∈ decided captures primaryById tasks ∧
        record.sha256 = task.2.sha256 := by
  induction tasks generalizing primaryById with
  | nil => cases h
  | cons head rest ih =>
      rw [decided] at h ⊢
      rcases List.mem_cons.mp h with hhead | hrest
      · obtain ⟨rfl, hdecision⟩ := Prod.mk.inj hhead
        left
        rw [decideTask] at hdecision
        cases hledger : captures.get? task.2.captureId with
        | some locator =>
            rw [hledger] at hdecision
            dsimp only at hdecision
            split_ifs at hdecision <;> cases hdecision
        | none =>
            rw [hledger] at hdecision
            cases hbatch : primaryById.get? task.2.captureId with
            | none =>
                rw [hbatch] at hdecision
                cases hdecision
            | some primary =>
                rw [hbatch] at hdecision
                dsimp only at hdecision
                split_ifs at hdecision with hsame
                cases hdecision
                exact ⟨task.2.captureId, primary, hbatch, rfl, hsame⟩
      · rcases ih hrest with ⟨id, primary, hget, hindex, hsame⟩ | ⟨record, hmem, hsame⟩
        · cases hdecision : decideTask captures primaryById head with
          | first =>
              rw [hdecision, enterFirst, Table.get?_insert] at hget
              split_ifs at hget
              · cases hget
                right
                refine ⟨head.2, List.mem_cons.mpr (Or.inl ?_), hsame⟩
                rw [← hindex]
              · exact Or.inl ⟨id, primary, hget, hindex, hsame⟩
          | duplicate source =>
              rw [hdecision] at hget
              exact Or.inl ⟨id, primary, hget, hindex, hsame⟩
          | conflict =>
              rw [hdecision] at hget
              exact Or.inl ⟨id, primary, hget, hindex, hsame⟩
        · exact Or.inr ⟨record, List.mem_cons_of_mem _ hmem, hsame⟩

/-- A first record's capture is known neither to the ledger nor to the batch before it. -/
theorem firsts_new {primaryById : Table String (Nat × CaptureRecord)}
    {tasks : List (Nat × CaptureRecord)} {task : Nat × CaptureRecord}
    (h : task ∈ (decided captures primaryById tasks).filterMap firstOf) :
    captures.get? task.2.captureId = none ∧ primaryById.get? task.2.captureId = none := by
  induction tasks generalizing primaryById with
  | nil => cases h
  | cons head rest ih =>
      rw [decided, List.filterMap_cons] at h
      cases hdecision : decideTask captures primaryById head with
      | first =>
          rw [hdecision] at h
          rcases List.mem_cons.mp h with rfl | hrest
          · rw [decideTask] at hdecision
            cases hledger : captures.get? task.2.captureId with
            | some locator =>
                rw [hledger] at hdecision
                dsimp only at hdecision
                split_ifs at hdecision
            | none =>
                rw [hledger] at hdecision
                cases hbatch : primaryById.get? task.2.captureId with
                | none => exact ⟨rfl, rfl⟩
                | some primary =>
                    rw [hbatch] at hdecision
                    dsimp only at hdecision
                    split_ifs at hdecision
          · obtain ⟨hledger, hbatch⟩ := ih hrest
            rw [enterFirst, Table.get?_insert] at hbatch
            split_ifs at hbatch
            exact ⟨hledger, hbatch⟩
      | duplicate source =>
          rw [hdecision] at h
          exact ih h
      | conflict =>
          rw [hdecision] at h
          exact ih h

/-- No two first records are of the same capture. -/
theorem nodup_firsts (primaryById : Table String (Nat × CaptureRecord))
    (tasks : List (Nat × CaptureRecord)) :
    (((decided captures primaryById tasks).filterMap firstOf).map
      fun task => task.2.captureId).Nodup := by
  induction tasks generalizing primaryById with
  | nil => exact List.nodup_nil
  | cons head rest ih =>
      rw [decided, List.filterMap_cons]
      cases hdecision : decideTask captures primaryById head with
      | first =>
          apply List.nodup_cons.mpr
          refine ⟨?_, ih _⟩
          intro hmem
          obtain ⟨task, htask, hsame⟩ := List.mem_map.mp hmem
          have hbatch := (firsts_new htask).2
          rw [hsame, enterFirst, Table.get?_insert_self] at hbatch
          cases hbatch
      | duplicate source => exact ih _
      | conflict => exact ih _

/-- Every record is a first one, a duplicate or a conflict. -/
theorem length_decided (entries : List ((Nat × CaptureRecord) × Decision)) :
    (entries.filterMap firstOf).length + (entries.filterMap duplicateOf).length +
      (entries.filterMap conflictOf).length = entries.length := by
  induction entries with
  | nil => rfl
  | cons entry rest ih =>
      obtain ⟨task, decision⟩ := entry
      rw [List.filterMap_cons, List.filterMap_cons, List.filterMap_cons, List.length_cons]
      cases decision with
      | first =>
          simp only [firstOf, duplicateOf, conflictOf, List.length_cons]
          omega
      | duplicate source =>
          simp only [firstOf, duplicateOf, conflictOf, List.length_cons]
          omega
      | conflict =>
          simp only [firstOf, duplicateOf, conflictOf, List.length_cons]
          omega

end Decisions

end ChipTrace.CaptureStore
