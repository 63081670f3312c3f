/-
Runs of several instances over one directory of jobs.  The writer lock keeps two instances
from starting at once, but nothing stops an instance that has lost it: as long as an
instance only takes the lock once everybody else is done, no job is lost, begun twice or
changed after it was done.
-/
import ChipTrace.Lib.Machine
import ChipTrace.CloudPlatform.Ordered

namespace ChipTrace.CloudPlatform

open Machine

section Statements

/-- Where an accepted job is in an instance that serves: once in the queue or in an
execution, or done with the same content in its file. -/
def Tracked (files : Table String Job) (inst : Instance) (request : Request) : Prop :=
  ∃ job, inst.jobs.get? request.id.text = some job ∧ job.request = request ∧
    (inst.pending.count request.id.text = 1 ∨
      inst.pending.count request.id.text = 0 ∧ job.status.isSettled = true ∧
        files.get? request.id.text = some job)

/-- The executions of the platform, each with its instance and its place there. -/
def Executes (platform : Platform) (index place : Nat) (archive : Component) : Prop :=
  ∃ execution, (platform.instances index).running[place]? = some execution ∧
    execution.archive = archive

/-- Every accepted request has its file, no archive is worked on twice, and an instance that
serves has every accepted job. -/
structure Orderly (platform : Platform) : Prop where
  accepted : ∀ request ∈ platform.acknowledged,
    ∃ file, platform.files.get? request.id.text = some file ∧ file.request = request
  exclusive : ∀ archive index place other otherPlace,
    Executes platform index place archive → Executes platform other otherPlace archive →
      index = other ∧ place = otherPlace
  tracked : ∀ index, (platform.instances index).ok = true → ∀ request ∈ platform.acknowledged,
    Tracked platform.files (platform.instances index) request

/-- An instance starts when everything it did before has ended, and takes the lock when the
same is true of every other instance. -/
def HandsOver (platform : Platform) (action : Nat × Event) : Prop :=
  action.2 = .start → (platform.instances action.1).starting = false →
    (platform.instances action.1).started = false ∧
      ¬ (platform.instances action.1).Live ∧
        (platform.lock = none → ∀ index, ¬ (platform.instances index).Live)

end Statements

section Invariant

structure Ordered (platform : Platform) : Prop where
  keyed : Keyed platform.files
  alone : ∀ index other, (platform.instances index).Live → (platform.instances other).Live →
    index = other
  sound : ∀ index, (platform.instances index).Live →
    Sound platform.files (platform.instances index)
  accepted : ∀ request ∈ platform.acknowledged,
    ∃ file, platform.files.get? request.id.text = some file ∧ file.request = request
  unanswered : ∀ index, (platform.instances index).Live →
    ∀ save ∈ (platform.instances index).submission, ∀ request ∈ platform.acknowledged,
      request.id.text ≠ save.job.id

theorem ordered_initial : Ordered .initial := by
  have hfresh : ¬ Instance.fresh.Live := by
    simp [Instance.Live, Instance.fresh, Instance.ok]
  exact ⟨fun _ _ h => (by cases h), fun index _ h => absurd h hfresh, fun _ h => absurd h hfresh,
    fun _ h => (by cases h), fun _ h => absurd h hfresh⟩

variable {options : Options} {platform : Platform} {action : Nat × Event}

theorem step_self : (platform.step options action).instances action.1 =
    ((platform.view action.1).apply options action.1 action.2).inst := if_pos rfl

theorem step_other {index : Nat} (hindex : index ≠ action.1) :
    (platform.step options action).instances index = platform.instances index := if_neg hindex

theorem step_unchanged {self : Nat} {event : Event}
    (h : (platform.view self).apply options self event = platform.view self) :
    platform.step options (self, event) = platform := by
  have hinstances : (fun index => if index = self then (platform.view self).inst
      else platform.instances index) = platform.instances := by
    funext index
    split_ifs with hindex
    · rw [hindex]
      rfl
    · rfl
  rw [Platform.step, h]
  simp only [hinstances]
  rfl

/-- An event after which its instance has nothing to do changes nothing. -/
theorem Ordered.of_idle (h : Ordered platform)
    (hidle : ¬ ((platform.view action.1).apply options action.1 action.2).inst.Live)
    (hfiles : ((platform.view action.1).apply options action.1 action.2).files = platform.files)
    (hacknowledged : ((platform.view action.1).apply options action.1 action.2).acknowledged =
      platform.acknowledged) :
    Ordered (platform.step options action) ∧
      FilesKept platform.files (platform.step options action).files := by
  have hothers : ∀ index, ((platform.step options action).instances index).Live →
      index ≠ action.1 ∧ (platform.instances index).Live := by
    intro index hindex
    have hne : index ≠ action.1 := by
      rintro rfl
      rw [step_self] at hindex
      exact hidle hindex
    rw [step_other hne] at hindex
    exact ⟨hne, hindex⟩
  have hstepFiles : (platform.step options action).files = platform.files := hfiles
  refine ⟨⟨hstepFiles ▸ h.keyed, ?_, ?_, ?_, ?_⟩, hstepFiles ▸ FilesKept.refl _⟩
  · exact fun index other hindex hother => h.alone _ _ (hothers _ hindex).2 (hothers _ hother).2
  · intro index hindex
    obtain ⟨hne, hlive⟩ := hothers index hindex
    rw [step_other hne, hstepFiles]
    exact h.sound index hlive
  · intro request hrequest
    rw [hstepFiles]
    exact h.accepted request (hacknowledged ▸ hrequest)
  · intro index hindex
    obtain ⟨hne, hlive⟩ := hothers index hindex
    have hstepAcknowledged : (platform.step options action).acknowledged =
      platform.acknowledged := hacknowledged
    rw [step_other hne, hstepAcknowledged]
    exact h.unanswered index hlive

/-- A start that takes the lock comes after everything else; any other start fails. -/
theorem Ordered.start (h : Ordered platform) (hevent : action.2 = .start)
    (hover : HandsOver platform action) :
    Ordered (platform.step options action) ∧
      FilesKept platform.files (platform.step options action).files := by
  obtain ⟨self, event⟩ := action
  cases hevent
  have hfiles : (platform.step options (self, .start)).files = platform.files := start_frame.1
  have hacknowledged : (platform.step options (self, .start)).acknowledged =
      platform.acknowledged := start_frame.2
  by_cases hstarting : (platform.instances self).starting = true
  · have hsame : (platform.view self).apply options self .start = platform.view self :=
      if_pos hstarting
    rw [step_unchanged hsame]
    exact ⟨h, FilesKept.refl _⟩
  · rw [Bool.not_eq_true] at hstarting
    obtain ⟨hstarted, hidle, hothers⟩ := hover rfl hstarting
    cases hlock : platform.lock with
    | some holder =>
        refine h.of_idle ?_ hfiles hacknowledged
        exact start_locked hidle (by simp [Platform.view, hlock]) hstarting
    | none =>
        have halone : ∀ index, ((platform.step options (self, .start)).instances index).Live →
            index = self := by
          intro index hindex
          by_contra hne
          rw [step_other hne] at hindex
          exact hothers hlock index hindex
        refine ⟨⟨hfiles ▸ h.keyed, ?_, ?_, ?_, ?_⟩, hfiles ▸ FilesKept.refl _⟩
        · intro index other hindex hother
          rw [halone index hindex, halone other hother]
        · intro index hindex
          rw [hfiles, halone index hindex, step_self]
          exact @start_sound options self (platform.view self) hidle hstarted hstarting
        · intro request hrequest
          rw [hfiles]
          exact h.accepted request (hacknowledged ▸ hrequest)
        · intro index hindex save hsave
          rw [halone index hindex, step_self] at hsave
          have hnone := @start_submission options self (platform.view self) hidle
          change save ∈ ((platform.view self).start options self).inst.submission at hsave
          rw [hnone] at hsave
          cases hsave

theorem known_of_file (h : Ordered platform) {index : Nat}
    (hok : (platform.instances index).ok = true) {request : Request}
    (hrequest : request ∈ platform.acknowledged) :
    ((platform.instances index).jobs.get? request.id.text).isSome = true := by
  have hlive : (platform.instances index).Live := Or.inl hok
  obtain ⟨file, hfile, _⟩ := h.accepted request hrequest
  rw [Instance.ok, Bool.and_eq_true, Bool.and_eq_true] at hok
  rcases (h.sound index hlive).complete hok.1.1 (Option.isNone_iff_eq_none.mp hok.2) _ file hfile
    with hknown | ⟨save, hsave, hid⟩
  · exact hknown
  · exact absurd hid.symm (h.unanswered index hlive save hsave request hrequest)

theorem Ordered.unanswered_step (h : Ordered platform)
    (hlive : (platform.instances action.1).Live) :
    ∀ save ∈ ((platform.view action.1).apply options action.1 action.2).inst.submission,
      ∀ request ∈ ((platform.view action.1).apply options action.1 action.2).acknowledged,
        request.id.text ≠ save.job.id := by
  intro save hsave request hrequest
  rw [Option.mem_def] at hsave
  cases @apply_moves options action.1 (platform.view action.1) action.2 with
  | kept hkept =>
      obtain ⟨hacknowledged, hnone | hsame⟩ := hkept
      · rw [hnone] at hsave
        cases hsave
      · rw [hsave, Option.map_some] at hsame
        obtain ⟨old, hold, hjob⟩ := Option.map_eq_some_iff.mp hsame.symm
        rw [hacknowledged] at hrequest
        exact hjob ▸ h.unanswered _ hlive old hold request hrequest
  | ended hnone =>
      rw [hnone] at hsave
      cases hsave
  | begun hacknowledged hok _ hbegun hunknown =>
      cases hbegun.symm.trans hsave
      rw [hacknowledged] at hrequest
      intro hsame
      have hknown := known_of_file h hok hrequest
      rw [hsame] at hknown
      change ((platform.view action.1).inst.jobs.get? save.job.id).isSome = true at hknown
      rw [hunknown] at hknown
      cases hknown

theorem Ordered.step (h : Ordered platform) (hover : HandsOver platform action) :
    Ordered (platform.step options action) ∧
      FilesKept platform.files (platform.step options action).files := by
  by_cases hevent : action.2 = .start
  · exact h.start hevent hover
  by_cases hlive : (platform.instances action.1).Live
  · obtain ⟨hsound, hkeyed, hkept, hacknowledged⟩ :=
      @apply_advances options action.1 (platform.view action.1) h.keyed (h.sound _ hlive) _ hevent
    have hothers : ∀ index, ((platform.step options action).instances index).Live →
        index = action.1 := by
      intro index hindex
      by_contra hne
      rw [step_other hne] at hindex
      exact hne (h.alone _ _ hindex hlive)
    refine ⟨⟨hkeyed, ?_, ?_, ?_, ?_⟩, hkept⟩
    · intro index other hindex hother
      rw [hothers index hindex, hothers other hother]
    · intro index hindex
      cases hothers index hindex
      rw [step_self]
      exact hsound
    · intro request hrequest
      rcases hacknowledged request hrequest with hold | hnew
      · obtain ⟨file, hfile, hsame⟩ := h.accepted request hold
        obtain ⟨new, hnew, hrequests, _⟩ := hkept _ file hfile
        exact ⟨new, hnew, hrequests.trans hsame⟩
      · exact hnew
    · intro index hindex save hsave request hrequest
      rw [hothers index hindex, step_self] at hsave
      exact h.unanswered_step hlive save hsave request hrequest
  · obtain ⟨hidle, hfiles, hacknowledged⟩ :=
      @apply_idle options action.1 (platform.view action.1) hlive _ hevent
    exact h.of_idle hidle hfiles hacknowledged

/-- Files and memory in order give every accepted job its place. -/
theorem Ordered.orderly (h : Ordered platform) : Orderly platform := by
  refine ⟨h.accepted, ?_, ?_⟩
  · rintro archive index place other otherPlace ⟨execution, hget, rfl⟩
      ⟨second, hsecond, harchive⟩
    have hlive : ∀ {index place : Nat} {execution : Execution},
        (platform.instances index).running[place]? = some execution →
          (platform.instances index).Live := fun hget =>
      Or.inr (Or.inr (Or.inl (List.ne_nil_of_mem (List.mem_of_getElem? hget))))
    obtain rfl := h.alone _ _ (hlive hget) (hlive hsecond)
    have hnodup := (h.sound _ (hlive hget)).archives
    refine ⟨rfl, (List.getElem?_inj ?_ hnodup).mp ?_⟩
    · rw [List.length_map]
      exact (List.getElem?_eq_some_iff.mp hget).1
    · rw [List.getElem?_map, List.getElem?_map, hget, hsecond, Option.map_some, Option.map_some,
        harchive]
  · intro index hok request hrequest
    have hsound := h.sound index (Or.inl hok)
    obtain ⟨file, hfile, hsame⟩ := h.accepted request hrequest
    obtain ⟨job, hjob⟩ := Option.isSome_iff_exists.mp (known_of_file h hok hrequest)
    obtain ⟨_, stored, hstored, hrequests⟩ := hsound.stored _ job hjob
    cases hfile.symm.trans hstored
    refine ⟨job, hjob, hrequests.symm.trans hsame, ?_⟩
    by_cases hpending : request.id.text ∈ (platform.instances index).pending
    · exact Or.inl (List.count_eq_one_of_mem hsound.distinct hpending)
    · rw [Instance.ok, Bool.and_eq_true, Bool.and_eq_true] at hok
      have hserving : ¬ (platform.instances index).Leaving := by
        rintro (hclosing | hfailure)
        · rw [hclosing] at hok
          cases hok.1.2
        · exact hfailure (Option.isNone_iff_eq_none.mp hok.2)
      exact Or.inr ⟨List.count_eq_zero.mpr hpending, hsound.settled hserving _ job hjob hpending⟩

end Invariant

section Runs

variable {options : Options}

theorem Ordered.run {start : Platform} (h : Ordered start) {trace : List (Nat × Event)}
    (hover : Along (Platform.step options) HandsOver start trace) :
    Ordered (run (Platform.step options) start trace) ∧
      FilesKept start.files (run (Platform.step options) start trace).files := by
  induction trace generalizing start with
  | nil => exact ⟨h, FilesKept.refl _⟩
  | cons action rest ih =>
      obtain ⟨hfirst, hrest⟩ := hover
      obtain ⟨hnext, hkept⟩ := Ordered.step h hfirst
      obtain ⟨hordered, hlater⟩ := ih hnext hrest
      exact ⟨hordered, hkept.trans hlater⟩

/-- A run in which every start waits for the others is orderly throughout, and no file ever
loses its request or changes after its job was done. -/
theorem handover_orderly {trace : List (Nat × Event)}
    (hover : Along (Platform.step options) HandsOver .initial trace) :
    Always (Platform.step options) Orderly .initial trace ∧
      ∀ first last, trace = first ++ last →
        FilesKept (run (Platform.step options) .initial first).files
          (run (Platform.step options) .initial trace).files := by
  constructor
  · exact always_of_preserves_along (fun _ _ h hcondition => (h.step hcondition).1)
      (fun _ h => h.orderly) ordered_initial hover
  · rintro first last rfl
    obtain ⟨hfirst, hlast⟩ := Along.append.mp hover
    rw [run_append]
    exact ((ordered_initial.run hfirst).1.run hlast).2

end Runs

section Examples

def exampleOptions : Options := ⟨2, 128, 10000, 67108864, id⟩

def exampleTime : String := "2026-01-01T12:00:00.000Z"

def exampleRequest : Request := ⟨⟨"job", by decide⟩, ⟨"archive", by decide⟩, .restore⟩

/-- The events of a save that goes through. -/
def saves (index : Nat) (thread : Thread) : List (Nat × Event) :=
  [(index, .save thread exampleTime), (index, .land thread exampleTime),
    (index, .saved thread exampleTime)]

/-- An instance starts on an empty directory, accepts a request and begins its execution. -/
def acceptEvents : List (Nat × Event) :=
  [(0, .start), (0, .opened 0 exampleTime), (0, .submit exampleRequest true exampleTime)] ++
    saves 0 .submission ++ saves 0 (.execution 0)

/-- The engine is done, and the instance is closed. -/
def completeEvents : List (Nat × Event) :=
  [(0, .ran 0 (.ok ⟨textValue "restored", none, none⟩) exampleTime)] ++ saves 0 (.execution 0) ++
    [(0, .close), (0, .closed)]

/-- An instance that no event is about stays as it is. -/
theorem run_other {options : Options} {trace : List (Nat × Event)} {index : Nat}
    (h : ∀ action ∈ trace, action.1 ≠ index) (start : Platform) :
    (run (Platform.step options) start trace).instances index = start.instances index := by
  induction trace generalizing start with
  | nil => rfl
  | cons action rest ih =>
      rw [run_cons, ih fun other hother => h other (List.mem_cons_of_mem _ hother)]
      exact step_other (h action List.mem_cons_self).symm

/-- An open job whose file is small enough is read back and recovered. -/
theorem step_load {options : Options} {platform : Platform} {self index : Nat} {id : String}
    {names : List String} {file : Job}
    (hloader : (platform.instances self).loaders[index]? = some ⟨id :: names, none⟩)
    (hfile : platform.files.get? id = some file) (hid : file.id = id)
    (hsize : file.fileBytes.length ≤ maxJobBytes ∧ file.attempt ≤ maxSafeInteger)
    (hopen : file.status.isSettled = false) :
    platform.step options (self, .load index) = { platform with
      instances := fun other =>
        if other = self then
          (platform.instances self).setLoader index ⟨names, some ⟨file.recovered, .called⟩⟩
        else platform.instances other } := by
  have hload : loadJob (id ++ ".json") file.fileBytes = .ok file := by
    rw [← hid]
    exact loadJob_fileBytes.mpr ⟨rfl, hsize⟩
  rw [Platform.step, View.apply, View.load]
  simp only [Platform.view, hloader, hfile, hload, hopen, View.withInst, Bool.false_eq_true,
    if_false]

theorem handsOver_of_ne {platform : Platform} {action : Nat × Event} (h : action.2 ≠ .start) :
    HandsOver platform action := fun hstart => absurd hstart h

/-- Events other than starts meet the condition in every state. -/
theorem along_of_no_start {options : Options} {trace : List (Nat × Event)} {start : Platform}
    (h : ∀ action ∈ trace, action.2 ≠ .start) :
    Along (Platform.step options) HandsOver start trace :=
  along_of_forall fun _ action haction => handsOver_of_ne (h action haction)

theorem fresh_idle : ¬ Instance.fresh.Live := by
  simp [Instance.Live, Instance.fresh, Instance.ok]

def firstClosed : Platform :=
  run (Platform.step exampleOptions) .initial (acceptEvents ++ completeEvents)

set_option maxRecDepth 10000 in
theorem firstClosed_evaluates : (firstClosed.instances 0).ok = false ∧
    (firstClosed.instances 0).loaders = [] ∧ (firstClosed.instances 0).running = [] ∧
      (firstClosed.instances 0).submission = none := by
  refine ⟨by decide, by decide, by decide, by decide⟩

/-- A second instance starts when the first is closed. -/
theorem closedFirst_handsOver : Along (Platform.step exampleOptions) HandsOver .initial
    (acceptEvents ++ completeEvents ++ [(1, .start)]) := by
  have hothers : ∀ index, index ≠ 0 → firstClosed.instances index = .fresh := by
    intro index hindex
    refine run_other (fun action haction => ?_) _
    have hzero : action.1 = 0 := by
      revert action
      simp [acceptEvents, completeEvents, saves]
    rw [hzero]
    exact hindex.symm
  refine Along.append.mpr ⟨⟨fun _ _ => ⟨rfl, fresh_idle, fun _ _ => fresh_idle⟩, ?_⟩, ?_, trivial⟩
  · apply along_of_no_start
    simp [completeEvents, saves]
  · intro _ _
    change (firstClosed.instances 1).started = false ∧ ¬ (firstClosed.instances 1).Live ∧
      (firstClosed.lock = none → ∀ index, ¬ (firstClosed.instances index).Live)
    rw [hothers 1 (by decide)]
    refine ⟨rfl, fresh_idle, fun _ index => ?_⟩
    by_cases hindex : index = 0
    · obtain ⟨hok, hloaders, hrunning, hsubmission⟩ := firstClosed_evaluates
      simp [hindex, Instance.Live, hok, hloaders, hrunning, hsubmission]
    · rw [hothers index hindex]
      exact fresh_idle

theorem closedFirst_orderly :
    Always (Platform.step exampleOptions) Orderly .initial
        (acceptEvents ++ completeEvents ++ [(1, .start)]) ∧
      ∀ first last, acceptEvents ++ completeEvents ++ [(1, .start)] = first ++ last →
        FilesKept (run (Platform.step exampleOptions) .initial first).files
          (run (Platform.step exampleOptions) .initial
            (acceptEvents ++ completeEvents ++ [(1, .start)])).files :=
  handover_orderly closedFirst_handsOver

/-- A second instance takes the lock that the first has lost, and recovers the job. -/
def takeoverEvents : List (Nat × Event) := [(0, .loseLock), (1, .start)]

def finishEvents : List (Nat × Event) :=
  saves 1 (.loader 0) ++ [(1, .opened 0 exampleTime)] ++ saves 1 (.execution 0) ++
    [(1, .ran 0 (.ok ⟨textValue "restored", none, none⟩) exampleTime)] ++ saves 1 (.execution 0)

/-- The first instance notices that the lock is gone and puts its job back. -/
def lateEvents : List (Nat × Event) :=
  [(0, .noticeLoss), (0, .ran 0 (.error ⟨"ENGINE_FAILURE", "engine exited (null, SIGTERM): ",
    none, some "SIGTERM"⟩) exampleTime)] ++ saves 0 (.execution 0)

def takenOver : Platform :=
  run (Platform.step exampleOptions) .initial (acceptEvents ++ takeoverEvents)

def runningJob : Job := (newJob exampleRequest exampleTime).launched exampleTime

/-- The second instance has read the file of the job that the first is working on. -/
def recoveredPlatform : Platform :=
  { takenOver with
    instances := fun index =>
      if index = 1 then
        (takenOver.instances 1).setLoader 0 ⟨[], some ⟨runningJob.recovered, .called⟩⟩
      else takenOver.instances index }

set_option maxRecDepth 10000 in
/-- What the second instance finds. -/
theorem takenOver_found : (takenOver.instances 1).loaders[0]? = some ⟨["job"], none⟩ ∧
    takenOver.files.get? "job" = some runningJob ∧
    runningJob.fileBytes.length ≤ maxJobBytes := by
  refine ⟨by decide, by decide, by decide⟩

theorem load_recovered : takenOver.step exampleOptions (1, .load 0) = recoveredPlatform := by
  obtain ⟨hloader, hfile, hlength⟩ := takenOver_found
  exact step_load hloader hfile rfl ⟨hlength, Nat.le_of_ble_eq_true rfl⟩ rfl

set_option maxRecDepth 10000 in
theorem late_evaluates :
    ((run (Platform.step exampleOptions) recoveredPlatform finishEvents).files.get? "job").map
        Job.status = some .completed ∧
      ((run (Platform.step exampleOptions) (run (Platform.step exampleOptions) recoveredPlatform
        finishEvents) lateEvents).files.get? "job").map Job.status = some .queued := by
  refine ⟨by decide, by decide⟩

/-- The file of a job that was done says that it is queued. -/
theorem not_always_orderly :
    ¬ ∀ options trace, Always (Platform.step options) Orderly .initial trace ∧
      ∀ first last, trace = first ++ last →
        FilesKept (run (Platform.step options) .initial first).files
          (run (Platform.step options) .initial trace).files := by
  intro hall
  have hkept := (hall exampleOptions
    ((acceptEvents ++ takeoverEvents ++ [(1, .load 0)] ++ finishEvents) ++ lateEvents)).2
      (acceptEvents ++ takeoverEvents ++ [(1, .load 0)] ++ finishEvents) lateEvents rfl
  have hload : run (Platform.step exampleOptions) .initial
      (acceptEvents ++ takeoverEvents ++ [(1, .load 0)]) = recoveredPlatform := by
    rw [run_append, run_cons, run_nil]
    exact load_recovered
  rw [run_append _ _ lateEvents, run_append _ _ finishEvents, hload] at hkept
  obtain ⟨hdone, hlate⟩ := late_evaluates
  obtain ⟨done, hfile, hstatus⟩ := Option.map_eq_some_iff.mp hdone
  obtain ⟨new, hnew, _, hsame⟩ := hkept "job" done hfile
  rw [hsame (by rw [hstatus]; rfl)] at hnew
  rw [hnew, Option.map_some, hstatus] at hlate
  cases hlate

end Examples

end ChipTrace.CloudPlatform
