/-
The limits that the platform meets while it runs: the size of a job when it is saved, the
size of its file when it is read back, and the turns inside an engine's output.
-/
import ChipTrace.CloudPlatform.Handover

namespace ChipTrace.CloudPlatform

open Machine

section Statements

def Loads (files : Table String Job) : Prop :=
  ∀ id file, files.get? id = some file →
    ∃ job, loadJob (id ++ ".json") file.fileBytes = .ok job

/-- Every job file can be read back, and no instance is degraded by the size of a job. -/
structure Unhindered (platform : Platform) : Prop where
  loads : Loads platform.files
  within : ∀ index, (platform.instances index).failure ≠ some .limitExceeded

/-- A job whose file can be read back. -/
def Job.Fits (job : Job) : Prop :=
  job.fileBytes.length ≤ maxJobBytes ∧ job.attempt ≤ maxSafeInteger

instance (job : Job) : Decidable job.Fits := inferInstanceAs (Decidable (_ ∧ _))

def turnsFit (options : Options) (ran : Ran) : Bool :=
  ran.turns.all fun turns => ! turns.inline || turns.bytes ≤ options.maxTurnBytes

/-- The event does not reach a limit: a job that is saved by an instance that is not degraded
is at most 1 MiB long, its file is no longer when it takes its name, and turns inside a
result are within their own limit. -/
def View.Within (options : Options) (view : View) : Event → Prop
  | .save thread _ => ∀ job, view.inst.save? thread = some ⟨job, .called⟩ →
      view.inst.failure = none → job.text.length ≤ maxJobBytes
  | .land thread _ => ∀ job, view.inst.save? thread = some ⟨job, .writing⟩ →
      (thread = .submission → view.files.get? job.id = none) → job.Fits
  | .ran place (.ok ran) _ => ∀ job, view.inst.running[place]? = some ⟨job, .working⟩ →
      view.inst.failure = none → turnsFit options ran = true
  | _ => True

def WithinLimits (options : Options) (platform : Platform) (action : Nat × Event) : Prop :=
  (platform.view action.1).Within options action.2

end Statements

section Failures

variable {options : Options} {self : Nat} {view : View} {inst : Instance} {now : String}

theorem degrade_limit {failure : Failure} :
    (inst.degrade failure).failure = some .limitExceeded ↔
      inst.failure = some .limitExceeded ∨ inst.failure = none ∧ failure = .limitExceeded := by
  rw [Instance.degrade]
  cases inst.failure <;> simp

@[simp] theorem finish_failure (index : Nat) (execution : Execution) :
    (inst.finish options index execution now).failure = inst.failure := pump_failure

theorem setStage_failure (stage : Stage) (thread : Thread) :
    (inst.setStage stage thread).failure = inst.failure := by
  cases thread with
  | loader index =>
      rw [Instance.setStage]
      cases inst.loaders[index]? <;> rfl
  | submission => rfl
  | execution index =>
      rw [Instance.setStage]
      cases inst.running[index]? <;> rfl

/-- A save that fails degrades its instance and changes no file. -/
theorem saveFailed_failure (failure : Failure) {thread : Thread} {save : Save}
    (hsave : view.inst.save? thread = some save) :
    (view.saveFailed options self failure thread now).inst.failure =
        (view.inst.degrade failure).failure ∧
      (view.saveFailed options self failure thread now).files = view.files := by
  cases thread with
  | loader index => exact ⟨rfl, rfl⟩
  | submission => exact ⟨rfl, rfl⟩
  | execution index =>
      obtain ⟨job, stage⟩ := save
      obtain ⟨execution, hget, _, hpoint⟩ := Sound.save?_execution hsave
      have hdegraded : (view.inst.degrade failure).running[index]? = some execution := hget
      simp only [View.saveFailed, hdegraded]
      rcases hpoint with hphase | hfinal
      · rw [hphase]
        exact ⟨rfl, rfl⟩
      · rw [hfinal]
        exact ⟨finish_failure _ _, rfl⟩

theorem turnsFit_eq (ran : Ran) : (ran.turns.any fun turns =>
    turns.inline && decide (options.maxTurnBytes < turns.bytes)) = ! turnsFit options ran := by
  rw [turnsFit]
  cases ran.turns with
  | none => rfl
  | some turns =>
      simp only [Option.any_some, Option.all_some, Bool.not_or, Bool.not_not]
      congr 1
      rw [← decide_not]
      simp only [not_le]

theorem ran_failure (index : Nat) (execution : Execution) (outcome : Except EngineError Ran) :
    (inst.ran options index execution outcome now).failure = some .limitExceeded ↔
      inst.failure = some .limitExceeded ∨
        inst.failure = none ∧ ∃ ran, outcome = .ok ran ∧ turnsFit options ran = false := by
  cases outcome with
  | error error => simp [Instance.ran, Instance.stop, Instance.setExecution]
  | ok ran =>
      rw [Instance.ran, turnsFit_eq]
      cases hturns : turnsFit options ran with
      | false => simp [Instance.stop, Instance.setExecution, degrade_limit, hturns]
      | true =>
          simp only [Bool.not_true, Bool.false_eq_true, if_false]
          split_ifs <;> simp [Instance.stop, Instance.setExecution, hturns]

theorem loads_insert {files : Table String Job} (h : Loads files) (job : Job) :
    Loads (files.insert job.id job) ↔ job.Fits := by
  constructor
  · intro hloads
    obtain ⟨loaded, hloaded⟩ := hloads job.id job (Table.get?_insert_self _ _ _)
    exact (loadJob_fileBytes.mp hloaded).2
  · intro hfits id file hfile
    rw [Table.get?_insert] at hfile
    split_ifs at hfile with hid
    · cases hfile
      exact ⟨job, hid ▸ loadJob_fileBytes.mpr ⟨rfl, hfits⟩⟩
    · exact h id file hfile

/-- Nothing that an instance has to do with files or failures happens. -/
theorem unhindered_of_frame {next : View} (hloads : Loads view.files)
    (hwithin : view.inst.failure ≠ some .limitExceeded) (hfiles : next.files = view.files)
    (hfailure : next.inst.failure = some .limitExceeded →
      view.inst.failure = some .limitExceeded) :
    Loads next.files ∧ next.inst.failure ≠ some .limitExceeded :=
  ⟨hfiles ▸ hloads, fun hlimit => hwithin (hfailure hlimit)⟩

variable (hloads : Loads view.files) (hwithin : view.inst.failure ≠ some .limitExceeded)

include hloads hwithin

theorem save_unhindered (thread : Thread) :
    (Loads (view.save options self thread now).files ∧
      (view.save options self thread now).inst.failure ≠ some .limitExceeded) ↔
        view.Within options (.save thread now) := by
  rw [View.save, View.Within]
  split
  · rename_i job hsave
    split_ifs with hlong
    · obtain ⟨hfailure, hfiles⟩ :=
        @saveFailed_failure options self view now .limitExceeded _ _ hsave
      rw [hfailure, hfiles, Ne, degrade_limit]
      constructor
      · rintro ⟨_, hnot⟩ other hother hnone
        exact absurd (Or.inr ⟨hnone, rfl⟩) hnot
      · intro hcondition
        refine ⟨hloads, ?_⟩
        rintro (hlimit | ⟨hnone, _⟩)
        · exact hwithin hlimit
        · exact absurd (hcondition job hsave hnone) (Nat.not_le.mpr hlong)
    · refine iff_of_true ?_ ?_
      · exact unhindered_of_frame hloads hwithin rfl fun hlimit => by
          rwa [← setStage_failure .writing thread]
      · intro other hother _
        cases hsave.symm.trans hother
        exact Nat.not_lt.mp hlong
  · rename_i hnone
    refine iff_of_true ⟨hloads, hwithin⟩ fun job hsave => absurd hsave (hnone job)

theorem land_unhindered (thread : Thread) :
    (Loads (view.land options self thread now).files ∧
      (view.land options self thread now).inst.failure ≠ some .limitExceeded) ↔
        view.Within options (.land thread now) := by
  rw [View.land, View.Within]
  split
  · rename_i job hsave
    split_ifs with htaken
    · obtain ⟨hfailure, hfiles⟩ :=
        @saveFailed_failure options self view now .ioError _ _ hsave
      refine iff_of_true ?_ ?_
      · refine unhindered_of_frame hloads hwithin hfiles fun hlimit => ?_
        rw [hfailure, degrade_limit] at hlimit
        exact hlimit.resolve_right (by simp)
      · intro other hother hfree
        cases hsave.symm.trans hother
        rw [hfree htaken.1] at htaken
        cases htaken.2
    · have hstage : (view.inst.setStage .written thread).failure = view.inst.failure :=
        setStage_failure _ _
      simp only [hstage, loads_insert hloads]
      constructor
      · intro hfits other hother _
        cases hsave.symm.trans hother
        exact hfits.1
      · intro hcondition
        refine ⟨hcondition job hsave fun hthread => ?_, hwithin⟩
        simpa [hthread] using htaken
  · rename_i hnone
    refine iff_of_true ⟨hloads, hwithin⟩ fun job hsave => absurd hsave (hnone job)

theorem ran_unhindered (place : Nat) (outcome : Except EngineError Ran) :
    (Loads (view.ran options place outcome now).files ∧
      (view.ran options place outcome now).inst.failure ≠ some .limitExceeded) ↔
        view.Within options (.ran place outcome now) := by
  rw [View.ran]
  split
  · rename_i job hget
    have hfailure := @ran_failure options view.inst now place ⟨job, .working⟩ outcome
    cases outcome with
    | error error =>
        refine iff_of_true ?_ trivial
        exact unhindered_of_frame hloads hwithin rfl fun hlimit => (hfailure.mp hlimit).resolve_right
          (by simp)
    | ok ran =>
        constructor
        · rintro ⟨_, hnot⟩ other _ hnone
          by_contra hturns
          exact hnot (hfailure.mpr (Or.inr ⟨hnone, ran, rfl, by simpa using hturns⟩))
        · intro hcondition
          refine unhindered_of_frame hloads hwithin rfl fun hlimit => ?_
          rcases hfailure.mp hlimit with hlimit | ⟨hnone, other, hother, hturns⟩
          · exact hlimit
          · cases hother
            rw [hcondition job hget hnone] at hturns
            cases hturns
  · rename_i hnone
    refine iff_of_true ⟨hloads, hwithin⟩ ?_
    cases outcome with
    | error error => trivial
    | ok ran => exact fun job hget => absurd hget (hnone job)

theorem load_unhindered (index : Nat) :
    Loads (view.load self index).files ∧
      (view.load self index).inst.failure ≠ some .limitExceeded := by
  rw [View.load]
  split
  · split
    · exact ⟨hloads, hwithin⟩
    · split
      · exact ⟨hloads, hwithin⟩
      · split_ifs <;> exact ⟨hloads, hwithin⟩
  · exact ⟨hloads, hwithin⟩

theorem saved_unhindered (thread : Thread) :
    Loads (view.saved options thread now).files ∧
      (view.saved options thread now).inst.failure ≠ some .limitExceeded := by
  rw [View.saved]
  split
  · cases thread with
    | loader index =>
        cases hget : view.inst.loaders[index]? <;> simp only [hget] <;> exact ⟨hloads, hwithin⟩
    | submission =>
        refine ⟨hloads, ?_⟩
        simpa using hwithin
    | execution index =>
        cases hget : view.inst.running[index]? with
        | none =>
            simp only [hget]
            exact ⟨hloads, hwithin⟩
        | some execution =>
            simp only [hget]
            split
            · exact ⟨hloads, hwithin⟩
            · refine ⟨hloads, ?_⟩
              simpa [View.withInst] using hwithin
            · exact ⟨hloads, hwithin⟩
  · exact ⟨hloads, hwithin⟩

theorem degrade_unhindered {failure : Failure} (hfailure : failure ≠ .limitExceeded) :
    Loads view.files ∧ (view.inst.degrade failure).failure ≠ some .limitExceeded := by
  refine ⟨hloads, fun hlimit => ?_⟩
  rcases degrade_limit.mp hlimit with hlimit | ⟨_, hsame⟩
  · exact hwithin hlimit
  · exact hfailure hsame

theorem ioError_unhindered (thread : Thread) :
    Loads (view.ioError options self thread now).files ∧
      (view.ioError options self thread now).inst.failure ≠ some .limitExceeded := by
  have hfailed : ∀ save, view.inst.save? thread = some save →
      Loads (view.saveFailed options self .ioError thread now).files ∧
        (view.saveFailed options self .ioError thread now).inst.failure ≠
          some .limitExceeded := by
    intro save hsave
    obtain ⟨hfailure, hfiles⟩ :=
      @saveFailed_failure options self view now .ioError _ _ hsave
    rw [hfailure, hfiles]
    exact degrade_unhindered hloads hwithin (by simp)
  rw [View.ioError]
  split
  · exact hfailed _ ‹_›
  · exact hfailed _ ‹_›
  · exact ⟨hloads, hwithin⟩

/-- An event leaves all files readable and its instance not degraded by a limit exactly when
it stays within the limits. -/
theorem apply_unhindered (event : Event) :
    (Loads (view.apply options self event).files ∧
      (view.apply options self event).inst.failure ≠ some .limitExceeded) ↔
        view.Within options event := by
  cases event with
  | save thread now => exact save_unhindered hloads hwithin thread
  | land thread now => exact land_unhindered hloads hwithin thread
  | ran place outcome now => exact ran_unhindered hloads hwithin place outcome
  | start =>
      refine iff_of_true ?_ trivial
      rw [View.apply, View.start]
      split_ifs <;> simp [View.withInst, hloads, hwithin]
  | load index => exact iff_of_true (load_unhindered hloads hwithin index) trivial
  | loadError index =>
      refine iff_of_true ?_ trivial
      rw [View.apply, View.loadError]
      split_ifs <;> exact ⟨hloads, hwithin⟩
  | opened index now =>
      refine iff_of_true ?_ trivial
      rw [View.apply, View.opened]
      split
      · split_ifs
        · exact ⟨hloads, hwithin⟩
        · refine ⟨hloads, ?_⟩
          simpa [View.withInst] using hwithin
      · exact ⟨hloads, hwithin⟩
  | submit request registered now =>
      refine iff_of_true ?_ trivial
      rw [View.apply, View.submit]
      split
      · exact ⟨hloads, hwithin⟩
      · split
        · split_ifs <;> exact ⟨hloads, hwithin⟩
        · split_ifs <;> exact ⟨hloads, hwithin⟩
  | saved thread now => exact iff_of_true (saved_unhindered hloads hwithin thread) trivial
  | ioError thread now => exact iff_of_true (ioError_unhindered hloads hwithin thread) trivial
  | storageFailure => exact iff_of_true (degrade_unhindered hloads hwithin (by simp)) trivial
  | phase index phase now =>
      refine iff_of_true ?_ trivial
      rw [View.apply, View.phase]
      split <;> exact ⟨hloads, hwithin⟩
  | loseLock => exact iff_of_true ⟨hloads, hwithin⟩ trivial
  | noticeLoss =>
      refine iff_of_true ?_ trivial
      rw [View.apply, View.noticeLoss]
      split_ifs
      · exact degrade_unhindered hloads hwithin (by simp)
      · exact ⟨hloads, hwithin⟩
  | close => exact iff_of_true ⟨hloads, hwithin⟩ trivial
  | closed =>
      refine iff_of_true ?_ trivial
      rw [View.apply, View.closed]
      split_ifs <;> exact ⟨hloads, hwithin⟩
  | crash => exact iff_of_true ⟨hloads, fun hlimit => by cases hlimit⟩ trivial

end Failures

section Runs

variable {options : Options}

theorem step_unhindered {platform : Platform} (h : Unhindered platform) (action : Nat × Event) :
    Unhindered (platform.step options action) ↔ WithinLimits options platform action := by
  have happly := @apply_unhindered options action.1 (platform.view action.1) h.loads
    (h.within action.1) action.2
  rw [WithinLimits, ← happly]
  constructor
  · intro hnext
    refine ⟨hnext.loads, ?_⟩
    rw [← step_self]
    exact hnext.within action.1
  · rintro ⟨hloads, hwithin⟩
    refine ⟨hloads, fun index => ?_⟩
    by_cases hindex : index = action.1
    · rw [hindex, step_self]
      exact hwithin
    · rw [step_other hindex]
      exact h.within index

theorem unhindered_initial : Unhindered .initial :=
  ⟨fun _ _ h => (by cases h), fun _ h => by cases h⟩

/-- The engine is done with a job; the job is saved for the last time. -/
def endingEvents (index place : Nat) (outcome : Except EngineError Ran) (now : String) :
    List (Nat × Event) :=
  [(index, .ran place outcome now), (index, .save (.execution place) now),
    (index, .land (.execution place) now)]

theorem ran_settled {inst : Instance} {place : Nat} {job : Job}
    {outcome : Except EngineError Ran} {now : String} (hok : inst.ok = true)
    (hfits : ∀ ran, outcome = .ok ran → turnsFit options ran = true) :
    ∃ done : Job, done.request = job.request ∧ done.status.isSettled = true ∧
      inst.ran options place ⟨job, .working⟩ outcome now =
        inst.setExecution place ⟨done, .final .called⟩ := by
  have hserving : (inst.closing || inst.failure.isSome) = false := by
    rw [Instance.ok, Bool.and_eq_true, Bool.and_eq_true] at hok
    obtain ⟨⟨_, hclosing⟩, hfailure⟩ := hok
    rw [Option.isNone_iff_eq_none.mp hfailure]
    simpa using hclosing
  cases outcome with
  | error error =>
      refine ⟨job.stopped options false error now, rfl, rfl, ?_⟩
      rw [Instance.ran, Instance.stop, hserving]
  | ok ran =>
      refine ⟨job.completed ran now, rfl, rfl, ?_⟩
      rw [Instance.ran, turnsFit_eq, hfits ran rfl]
      simp [hok]

theorem step_ran {platform : Platform} {index place : Nat} {job : Job}
    {outcome : Except EngineError Ran} {now : String}
    (hget : (platform.instances index).running[place]? = some ⟨job, .working⟩) :
    (platform.step options (index, .ran place outcome now)).instances index =
      (platform.instances index).ran options place ⟨job, .working⟩ outcome now := by
  have happly : ((platform.view index).ran options place outcome now).inst =
      (platform.instances index).ran options place ⟨job, .working⟩ outcome now := by
    rw [View.ran]
    simp only [Platform.view, hget, View.withInst]
  exact (@step_self options platform (index, .ran place outcome now)).trans happly

/-- A save whose job is short enough puts it in its file. -/
theorem save_land {platform : Platform} {index place : Nat} {done : Job} {now : String}
    (hget : (platform.instances index).running[place]? = some ⟨done, .final .called⟩)
    (hlength : done.text.length ≤ maxJobBytes) :
    (run (Platform.step options) platform [(index, .save (.execution place) now),
      (index, .land (.execution place) now)]).files.get? done.id = some done := by
  have hcalled : (platform.instances index).save? (.execution place) = some ⟨done, .called⟩ := by
    rw [Instance.save?, hget]
    rfl
  have hlt : place < (platform.instances index).running.length :=
    (List.getElem?_eq_some_iff.mp hget).1
  have hinst : (platform.step options (index, .save (.execution place) now)).instances index =
      (platform.instances index).setExecution place ⟨done, .final .writing⟩ := by
    have happly : ((platform.view index).save options index (.execution place) now).inst =
        (platform.instances index).setStage .writing (.execution place) := by
      rw [View.save]
      simp only [Platform.view, hcalled, Nat.not_lt.mpr hlength, if_false, View.withInst]
    rw [Instance.setStage, hget] at happly
    exact (@step_self options platform (index, .save (.execution place) now)).trans happly
  have hwriting : ((platform.step options (index, .save (.execution place) now)).instances
      index).save? (.execution place) = some ⟨done, .writing⟩ := by
    rw [hinst, Instance.save?, Instance.setExecution]
    simp only [List.getElem?_set_self hlt]
    rfl
  rw [run_cons, run_cons, run_nil]
  have hland : ∀ next : Platform, (next.instances index).save? (.execution place) =
      some ⟨done, .writing⟩ →
        (next.step options (index, .land (.execution place) now)).files =
          next.files.insert done.id done := by
    intro next hnext
    change ((next.view index).land options index (.execution place) now).files = _
    rw [View.land]
    simp only [Platform.view, hnext, reduceCtorEq, false_and, if_false]
  rw [hland _ hwriting]
  exact Table.get?_insert_self _ _ _

/-- What the engine ends with is in the file of the job. -/
theorem ending_settles {platform : Platform} {index place : Nat} {job : Job}
    {outcome : Except EngineError Ran} {now : String}
    (hok : (platform.instances index).ok = true)
    (hget : (platform.instances index).running[place]? = some ⟨job, .working⟩)
    (hwithin : Along (Platform.step options) (WithinLimits options) platform
      (endingEvents index place outcome now)) :
    ∃ done : Job, done.request = job.request ∧ done.status.isSettled = true ∧
      (run (Platform.step options) platform (endingEvents index place outcome now)).files.get?
        job.id = some done := by
  obtain ⟨hran, hsave, _⟩ := hwithin
  have hfailure : (platform.instances index).failure = none := by
    rw [Instance.ok, Bool.and_eq_true] at hok
    exact Option.isNone_iff_eq_none.mp hok.2
  have hfits : ∀ ran, outcome = .ok ran → turnsFit options ran = true := by
    rintro ran rfl
    exact hran job hget hfailure
  obtain ⟨done, hrequest, hsettled, hnext⟩ :=
    @ran_settled options _ place job outcome now hok hfits
  have hid : done.id = job.id := congrArg (fun request => request.id.text) hrequest
  have hinst := (@step_ran options platform index place job outcome now hget).trans hnext
  have hlt : place < (platform.instances index).running.length :=
    (List.getElem?_eq_some_iff.mp hget).1
  have hplace : ((platform.step options (index, .ran place outcome now)).instances
      index).running[place]? = some ⟨done, .final .called⟩ := by
    rw [hinst, Instance.setExecution]
    exact List.getElem?_set_self hlt
  have hnone : ((platform.step options (index, .ran place outcome now)).instances index).failure =
      none := by
    rw [hinst]
    exact hfailure
  have hcalled : ((platform.step options (index, .ran place outcome now)).instances index).save?
      (.execution place) = some ⟨done, .called⟩ := by
    rw [Instance.save?, hplace]
    rfl
  refine ⟨done, hrequest, hsettled, ?_⟩
  rw [endingEvents, run_cons, ← hid]
  exact save_land hplace (hsave done hcalled hnone)

end Runs

section Examples

variable {options : Options}

theorem size_lookup {fields : JsonMap} {key : String} {value : Json}
    (h : fields.get key = some value) : Json.size value ≤ Json.size (.obj fields) := by
  have hfields : Json.size value ≤ Json.sizeFields fields := by
    induction fields with
    | nil => cases h
    | cons field rest ih =>
        obtain ⟨name, stored⟩ := field
        rw [JsonMap.get, OrdMap.lookup] at h
        rw [Json.sizeFields]
        split_ifs at h
        · cases h
          omega
        · have hrest := ih h
          omega
  exact hfields.trans (Nat.le_succ _)

theorem size_rows (n : Nat) : Json.size (.arr (List.replicate n .null)) = 2 * n + 1 := by
  have hitems : Json.sizeItems (List.replicate n .null) = 2 * n := by
    induction n with
    | zero => rfl
    | succ n ih =>
        rw [List.replicate_succ, Json.sizeItems, ih]
        simp only [Json.size]
        omega
  rw [Json.size, hitems]

/-- A report of the engine about a restored archive, with this many rows. -/
def longReport (rows : Nat) : Value where
  json := Json.mkObj [("archive_id", .str "archive"), ("completeness", .str "complete"),
    ("ok", .bool true), ("rows", .arr (List.replicate rows .null))]
  wellFormed := by
    apply Json.mkObj_wellFormed
    have hrows : (Json.arr (List.replicate rows .null)).WellFormed :=
      Json.wellFormedItems_iff.mpr fun item hitem => by
        rw [(List.mem_replicate.mp hitem).2]
        trivial
    have hstr : ∀ text, (Json.str text).WellFormed := fun _ => trivial
    have hbool : (Json.bool true).WellFormed := trivial
    simp [hrows, hstr, hbool]

theorem length_le_encode (text : List Char) : text.length ≤ (Bytes.encode text).length := by
  induction text with
  | nil => exact Nat.le_refl _
  | cons c rest ih =>
      have hchar : 0 < (String.utf8EncodeChar c).length := by
        rw [String.length_utf8EncodeChar]
        exact c.utf8Size_pos
      rw [Bytes.encode, List.flatMap_cons, List.length_append, List.length_cons]
      change rest.length ≤ (rest.flatMap String.utf8EncodeChar).length at ih
      omega

/-- A job is longer than its result has rows. -/
theorem rows_lt_text (job : Job) (rows : Nat) (now : String) :
    rows < (job.completed ⟨longReport rows, none, none⟩ now).text.length := by
  have hrows : (longReport rows).json.get? "rows" = some (.arr (List.replicate rows .null)) := by
    rw [longReport, Json.get?_mkObj (by simp)]
    simp [OrdMap.lookup]
  have hresult : (job.completed ⟨longReport rows, none, none⟩ now).object.get "result" =
      some (longReport rows).json := by
    rw [Job.get_object]
    simp [Job.ownFields, OrdMap.lookup, Job.completed, Details.set, Details.drop, Detail.key,
      optional, OrdMap.lookup_insert, OrdMap.lookup_erase_of_ne]
  have hreport : Json.size (.arr (List.replicate rows .null)) ≤ Json.size (longReport rows).json :=
    size_lookup hrows
  have hjob := size_lookup hresult
  have hprint := Json.size_le_print (job.completed ⟨longReport rows, none, none⟩ now).toJson
  have htext := length_le_encode (Json.print (job.completed ⟨longReport rows, none, none⟩ now).toJson)
  rw [size_rows] at hreport
  change Json.size (job.completed ⟨longReport rows, none, none⟩ now).toJson ≤ _ at hprint
  rw [Job.text, jsonBytes]
  change _ ≤ Json.size (job.completed ⟨longReport rows, none, none⟩ now).toJson at hjob
  omega

/-- An engine whose report about an archive is longer than 1 MiB. -/
def longReportEvents : List (Nat × Event) :=
  [(0, .ran 0 (.ok ⟨longReport maxJobBytes, none, none⟩) exampleTime),
    (0, .save (.execution 0) exampleTime)]

/-- No instance gets a long report into a file. -/
theorem longReport_hindered {platform : Platform} {job : Job}
    (hok : (platform.instances 0).ok = true)
    (hget : (platform.instances 0).running[0]? = some ⟨job, .working⟩) :
    ¬ Along (Platform.step options) (WithinLimits options) platform longReportEvents := by
  rintro ⟨_, hsave, _⟩
  have hdone : (platform.instances 0).ran options 0 ⟨job, .working⟩
      (.ok ⟨longReport maxJobBytes, none, none⟩) exampleTime =
        (platform.instances 0).setExecution 0
          ⟨job.completed ⟨longReport maxJobBytes, none, none⟩ exampleTime, .final .called⟩ := by
    rw [Instance.ran, if_neg (by simp), if_pos hok]
  have hinst := (@step_ran options _ _ _ _ _ _ hget).trans hdone
  have hlt : 0 < (platform.instances 0).running.length := (List.getElem?_eq_some_iff.mp hget).1
  rw [WithinLimits, Platform.view, View.Within] at hsave
  simp only [hinst] at hsave
  refine absurd (hsave _ ?_ ?_) (Nat.not_le.mpr (rows_lt_text job maxJobBytes exampleTime))
  · rw [Instance.save?, Instance.setExecution]
    simp only [List.getElem?_set_self hlt]
    rfl
  · rw [Instance.ok, Bool.and_eq_true] at hok
    exact Option.isNone_iff_eq_none.mp hok.2

def accepted : Platform := run (Platform.step exampleOptions) .initial acceptEvents

set_option maxRecDepth 10000 in
theorem accepted_evaluates : (accepted.instances 0).ok = true ∧
    (accepted.instances 0).running[0]? = some ⟨runningJob, .working⟩ := by
  refine ⟨by decide, by decide⟩

/-- The job that an event saves is short, and no turns come with it. -/
def modest (view : View) : Event → Bool
  | .save thread _ | .land thread _ =>
      (view.inst.save? thread).all fun save => decide save.job.Fits
  | .ran _ (.ok ran) _ => ran.turns.isNone
  | _ => true

def allModest (options : Options) : Platform → List (Nat × Event) → Bool
  | _, [] => true
  | platform, action :: rest =>
      modest (platform.view action.1) action.2 && allModest options (platform.step options action) rest

theorem within_of_modest {view : View} {event : Event} (h : modest view event = true) :
    view.Within options event := by
  cases event with
  | save thread now =>
      intro job hsave _
      rw [modest, hsave, Option.all_some, decide_eq_true_eq] at h
      have hlength : job.fileBytes.length = job.text.length + 1 := by
        rw [Job.fileBytes, List.length_append, List.length_singleton]
      have hfits := h.1
      rw [hlength] at hfits
      exact (Nat.le_succ _).trans hfits
  | land thread now =>
      intro job hsave _
      rwa [modest, hsave, Option.all_some, decide_eq_true_eq] at h
  | ran place outcome now =>
      cases outcome with
      | error error => trivial
      | ok ran =>
          intro job _ _
          rw [turnsFit, Option.isNone_iff_eq_none.mp h]
          rfl
  | _ => trivial

theorem along_of_modest {platform : Platform} {trace : List (Nat × Event)}
    (h : allModest options platform trace = true) :
    Along (Platform.step options) (WithinLimits options) platform trace := by
  induction trace generalizing platform with
  | nil => trivial
  | cons action rest ih =>
      rw [allModest, Bool.and_eq_true] at h
      exact ⟨within_of_modest h.1, ih h.2⟩

set_option maxRecDepth 10000 in
theorem completed_modest :
    allModest exampleOptions .initial (acceptEvents ++ completeEvents) = true := by
  decide

end Examples

end ChipTrace.CloudPlatform
