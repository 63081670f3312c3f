/-
What the events of one instance do to its jobs and to the files, as long as no other
instance writes: an accepted job is in the queue, in an execution, or done, and a file that
says so keeps it.
-/
import ChipTrace.CloudPlatform.Scheduler

namespace ChipTrace.CloudPlatform

/-- Every file has the name of its job. -/
def Keyed (files : Table String Job) : Prop :=
  ∀ id file, files.get? id = some file → file.id = id

/-- What may happen to a file: it keeps its request, and its content once it is settled. -/
def FilesKept (before after : Table String Job) : Prop :=
  ∀ id old, before.get? id = some old →
    ∃ new, after.get? id = some new ∧ new.request = old.request ∧
      (old.status.isSettled = true → new = old)

theorem FilesKept.refl (files : Table String Job) : FilesKept files files :=
  fun _ old hold => ⟨old, hold, rfl, fun _ => rfl⟩

theorem FilesKept.trans {first second third : Table String Job} (h : FilesKept first second)
    (hnext : FilesKept second third) : FilesKept first third := by
  intro id old hold
  obtain ⟨mid, hmid, hrequest, hsettled⟩ := h id old hold
  obtain ⟨new, hnew, hnext, hkept⟩ := hnext id mid hmid
  refine ⟨new, hnew, hnext.trans hrequest, fun hdone => ?_⟩
  have hsame := hsettled hdone
  rw [hkept (by rw [hsame]; exact hdone), hsame]

/-- An open file is replaced by one of the same request, or a new one is made. -/
theorem filesKept_insert {files : Table String Job} {job : Job}
    (h : ∀ old, files.get? job.id = some old →
      old.request = job.request ∧ old.status.isSettled = false) :
    FilesKept files (files.insert job.id job) := by
  intro id old hold
  by_cases hid : id = job.id
  · subst hid
    obtain ⟨hrequest, hopen⟩ := h old hold
    refine ⟨job, Table.get?_insert_self _ _ _, hrequest.symm, fun hdone => ?_⟩
    rw [hopen] at hdone
    cases hdone
  · exact ⟨old, by rw [Table.get?_insert_of_ne _ hid, hold], rfl, fun _ => rfl⟩

theorem Keyed.insert {files : Table String Job} (h : Keyed files) (job : Job) :
    Keyed (files.insert job.id job) := by
  intro id file hfile
  rw [Table.get?_insert] at hfile
  split_ifs at hfile with hid
  · cases hfile
    exact hid.symm
  · exact h id file hfile

theorem Execution.setStage_spec {execution : Execution} {old new : Stage}
    (h : execution.point = .phase old ∨ execution.point = .final old) :
    (execution.setStage new).job = execution.job ∧
      (execution.point = .phase old ∧ (execution.setStage new).point = .phase new ∨
        execution.point = .final old ∧ (execution.setStage new).point = .final new) := by
  rcases h with h | h
  · rw [Execution.setStage, h]
    exact ⟨rfl, Or.inl ⟨rfl, rfl⟩⟩
  · rw [Execution.setStage, h]
    exact ⟨rfl, Or.inr ⟨rfl, rfl⟩⟩

section Instances

/-- The jobs that an instance has yet to finish. -/
def Instance.pending (inst : Instance) : List String :=
  inst.queue ++ inst.running.map Execution.id

/-- The instance serves, or still does something on its own. -/
def Instance.Live (inst : Instance) : Prop :=
  inst.ok = true ∨ inst.loaders ≠ [] ∨ inst.running ≠ [] ∨ inst.submission ≠ none

/-- The instance was closed or has failed. -/
def Instance.Leaving (inst : Instance) : Prop := inst.closing = true ∨ inst.failure ≠ none

/-- An execution and the file of its job, which is open until the last save. -/
structure ExecutionSound (files jobs : Table String Job) (leaving : Prop)
    (execution : Execution) : Prop where
  known : ∃ job, jobs.get? execution.id = some job ∧ job.request = execution.job.request
  file : ∀ file, files.get? execution.id = some file →
    if execution.point = .final .written then file = execution.job
    else file.status.isSettled = false
  status : match execution.point with
    | .final _ => execution.job.status.isSettled = true ∨ leaving
    | _ => execution.job.status.isSettled = false

/-- A run of `start` and the files that it has yet to read. -/
structure LoaderSound (files jobs : Table String Job) (loader : Loader) : Prop where
  distinct : loader.names.Nodup
  unread : ∀ id ∈ loader.names, jobs.get? id = none
  cover : ∀ id file, files.get? id = some file → id ∈ loader.names ∨
    (jobs.get? id).isSome = true ∨ ∃ save ∈ loader.saving, save.job.id = id
  saving : ∀ save ∈ loader.saving, save.job.id ∉ loader.names ∧
    jobs.get? save.job.id = none ∧ save.job.status = .queued ∧
    ∃ file, files.get? save.job.id = some file ∧ file.request = save.job.request ∧
      file.status.isSettled = false

/-- The jobs of an instance, its queue and its executions agree with the files. -/
structure Sound (files : Table String Job) (inst : Instance) : Prop where
  stored : ∀ id job, inst.jobs.get? id = some job → job.id = id ∧
    ∃ file, files.get? id = some file ∧ file.request = job.request
  distinct : inst.pending.Nodup
  queue_known : ∀ id ∈ inst.queue, (inst.jobs.get? id).isSome = true
  queue_open : ∀ id ∈ inst.queue, ∀ file, files.get? id = some file →
    file.status.isSettled = false
  archives : (inst.running.map Execution.archive).Nodup
  active : ∀ execution ∈ inst.running, execution.archive ∈ inst.activeArchives
  executions : ∀ execution ∈ inst.running,
    ExecutionSound files inst.jobs inst.Leaving execution
  settled : ¬ inst.Leaving → ∀ id job, inst.jobs.get? id = some job → id ∉ inst.pending →
    job.status.isSettled = true ∧ files.get? id = some job
  loading : ∀ loader ∈ inst.loaders, inst.loaders = [loader] ∧ inst.started = false ∧
    inst.running = [] ∧ inst.submission = none ∧ LoaderSound files inst.jobs loader
  submitting : ∀ save ∈ inst.submission, inst.loaders = [] ∧ save.job.status = .queued ∧
    inst.jobs.get? save.job.id = none ∧
      (save.stage = .written → files.get? save.job.id = some save.job)
  complete : inst.started = true → inst.failure = none → ∀ id file, files.get? id = some file →
    (inst.jobs.get? id).isSome = true ∨ ∃ save ∈ inst.submission, save.job.id = id

end Instances

namespace Sound

variable {options : Options} {files : Table String Job} {inst : Instance} {now : String}

theorem loaders_nil_of_running (h : Sound files inst) (hrunning : inst.running ≠ []) :
    inst.loaders = [] := by
  cases hloaders : inst.loaders with
  | nil => rfl
  | cons loader rest =>
      obtain ⟨_, _, hnone, _⟩ := h.loading loader (by rw [hloaders]; exact List.mem_cons_self)
      exact absurd hnone hrunning

theorem of_fresh (files : Table String Job) : Sound files .fresh := by
  constructor <;> simp [Instance.fresh, Instance.pending]

/-- Degrading changes no job, queue or execution. -/
theorem degrade (h : Sound files inst) (failure : Failure) :
    Sound files (inst.degrade failure) := by
  have hleaving : (inst.degrade failure).Leaving := by
    right
    rw [Instance.degrade]
    cases inst.failure <;> simp
  refine ⟨h.stored, h.distinct, h.queue_known, h.queue_open, h.archives, h.active, ?_, ?_, ?_,
    h.submitting, ?_⟩
  · intro execution hexecution
    obtain ⟨hknown, hfile, hstatus⟩ := h.executions execution hexecution
    refine ⟨hknown, hfile, ?_⟩
    cases hpoint : execution.point with
    | final stage => exact Or.inr hleaving
    | phase stage => simpa [hpoint] using hstatus
    | working => simpa [hpoint] using hstatus
  · exact fun hserving => absurd hleaving hserving
  · exact h.loading
  · intro _ hfailure
    rw [Instance.degrade] at hfailure
    cases hold : inst.failure <;> simp [hold] at hfailure

section Pump

theorem launch_cases {next : Instance} (h : inst.launch options now = some next) :
    ∃ id job, ¬ inst.Leaving ∧ id ∈ inst.queue ∧ inst.jobs.get? id = some job ∧
      job.request.archiveId ∉ inst.activeArchives ∧
      next = { inst with
        queue := inst.queue.erase id
        activeArchives := inst.activeArchives ++ [job.request.archiveId]
        running := inst.running ++ [⟨job.launched now, .phase .called⟩] } := by
  rw [Instance.launch] at h
  split_ifs at h with hstop
  cases hfind : inst.queue.find? inst.eligible with
  | none =>
      rw [hfind] at h
      cases h
  | some id =>
      rw [hfind] at h
      obtain ⟨job, hjob, hnext⟩ := Option.map_eq_some_iff.mp h
      have heligible := List.find?_some hfind
      rw [Instance.eligible, hjob] at heligible
      refine ⟨id, job, ?_, List.mem_of_find?_eq_some hfind, hjob, by simpa using heligible,
        hnext.symm⟩
      simp only [Bool.or_eq_true, decide_eq_true_eq, not_or] at hstop
      rintro (hclosing | hfailure)
      · exact hstop.1.1 hclosing
      · exact hfailure (Option.not_isSome_iff_eq_none.mp hstop.1.2)

theorem launch (h : Sound files inst) (hloaders : inst.loaders = []) {next : Instance}
    (hlaunch : inst.launch options now = some next) :
    Sound files next ∧ next.loaders = [] := by
  obtain ⟨id, job, hserving, hqueue, hjob, hfree, rfl⟩ := launch_cases hlaunch
  obtain ⟨hid, file, hfile, hrequest⟩ := h.stored id job hjob
  have hlaunched : (job.launched now).id = id := hid
  have hperm : (inst.queue.erase id ++ (inst.running ++
      [(⟨job.launched now, .phase .called⟩ : Execution)]).map Execution.id).Perm inst.pending := by
    rw [List.map_append, List.map_singleton, ← List.append_assoc]
    have hhead : (inst.queue.erase id ++ inst.running.map Execution.id ++ [id]).Perm
        (id :: inst.queue.erase id ++ inst.running.map Execution.id) :=
      List.perm_append_singleton _ _
    have hcons := (List.perm_cons_erase hqueue).symm.append_right (inst.running.map Execution.id)
    change (inst.queue.erase id ++ inst.running.map Execution.id ++ [(job.launched now).id]).Perm _
    rw [hlaunched]
    exact hhead.trans hcons
  refine ⟨⟨h.stored, hperm.nodup_iff.mpr h.distinct, ?_, ?_, ?_, ?_, ?_, ?_, ?_, ?_, h.complete⟩,
    hloaders⟩
  · exact fun other hother => h.queue_known other (List.mem_of_mem_erase hother)
  · exact fun other hother => h.queue_open other (List.mem_of_mem_erase hother)
  · rw [List.map_append, List.nodup_append]
    refine ⟨h.archives, List.nodup_singleton _, ?_⟩
    intro archive harchive other hother
    obtain ⟨execution, hexecution, rfl⟩ := List.mem_map.mp harchive
    rw [List.map_singleton, List.mem_singleton] at hother
    rintro hsame
    have hactive := h.active execution hexecution
    rw [hsame, hother] at hactive
    exact hfree hactive
  · intro execution hexecution
    rcases List.mem_append.mp hexecution with hold | hnew
    · exact List.mem_append_left _ (h.active execution hold)
    · rw [List.mem_singleton] at hnew
      subst hnew
      exact List.mem_append_right _ (List.mem_singleton.mpr rfl)
  · intro execution hexecution
    rcases List.mem_append.mp hexecution with hold | hnew
    · exact h.executions execution hold
    · rw [List.mem_singleton] at hnew
      subst hnew
      refine ⟨⟨job, ?_, rfl⟩, ?_, rfl⟩
      · exact hlaunched.symm ▸ hjob
      · intro other hother
        rw [if_neg (by simp)]
        exact h.queue_open id hqueue other (hlaunched ▸ hother)
  · intro hstill other stored hstored hother
    refine h.settled hstill other stored hstored fun hpending => hother ?_
    exact hperm.mem_iff.mpr hpending
  · intro loader hloader
    rw [hloaders] at hloader
    cases hloader
  · exact h.submitting

theorem pumpFrom (h : Sound files inst) (hloaders : inst.loaders = []) (fuel : Nat) :
    Sound files (Instance.pumpFrom options now fuel inst) := by
  induction fuel generalizing inst with
  | zero => exact h
  | succ fuel ih =>
      rw [Instance.pumpFrom]
      cases hlaunch : inst.launch options now with
      | none => exact h
      | some next =>
          obtain ⟨hnext, hnone⟩ := h.launch hloaders hlaunch
          exact ih hnext hnone

theorem pump (h : Sound files inst) (hloaders : inst.loaders = []) :
    Sound files (inst.pump options now) := h.pumpFrom hloaders _

end Pump

section Executions

variable {index : Nat} {execution next : Execution}

theorem map_set_eq {α β : Type} (f : α → β) {items : List α} {index : Nat} {old new : α}
    (hget : items[index]? = some old) (hsame : f new = f old) :
    (items.set index new).map f = items.map f := by
  rw [List.map_set]
  refine List.ext_getElem? fun other => ?_
  rw [List.getElem?_set]
  split_ifs with hindex hlength
  · rw [← hindex, List.getElem?_map, hget, hsame]
    rfl
  · rw [← hindex, List.getElem?_eq_none (Nat.not_lt.mp hlength)]
  · rfl

/-- An execution goes on with the same job. -/
theorem setExecution (h : Sound files inst) (hget : inst.running[index]? = some execution)
    (hrequest : next.job.request = execution.job.request)
    (hfile : ∀ file, files.get? execution.id = some file →
      if next.point = .final .written then file = next.job else file.status.isSettled = false)
    (hstatus : match next.point with
      | .final _ => next.job.status.isSettled = true ∨ inst.Leaving
      | _ => next.job.status.isSettled = false) :
    Sound files (inst.setExecution index next) := by
  have hid : next.id = execution.id := congrArg (fun request => request.id.text) hrequest
  have harchive : next.archive = execution.archive := congrArg Request.archiveId hrequest
  have hmem : execution ∈ inst.running := List.mem_of_getElem? hget
  have hpending : (inst.setExecution index next).pending = inst.pending := by
    rw [Instance.pending, Instance.pending, Instance.setExecution]
    simp only
    rw [map_set_eq Execution.id hget hid]
  refine ⟨h.stored, hpending ▸ h.distinct, h.queue_known, h.queue_open, ?_, ?_, ?_, ?_, ?_,
    h.submitting, h.complete⟩
  · rw [Instance.setExecution]
    simp only
    rw [map_set_eq Execution.archive hget harchive]
    exact h.archives
  · intro other hother
    rcases List.mem_or_eq_of_mem_set hother with hold | rfl
    · exact h.active other hold
    · exact harchive ▸ h.active execution hmem
  · intro other hother
    rcases List.mem_or_eq_of_mem_set hother with hold | rfl
    · exact h.executions other hold
    · refine ⟨?_, ?_, hstatus⟩
      · rw [hid, hrequest]
        exact (h.executions execution hmem).known
      · rw [hid]
        exact hfile
  · rw [hpending]
    exact h.settled
  · intro loader hloader
    have hnil := h.loaders_nil_of_running (List.ne_nil_of_mem hmem)
    exact absurd hloader (by rw [Instance.setExecution, hnil]; exact List.not_mem_nil)

/-- An execution ends; its job is done if the instance still serves. -/
theorem finish (h : Sound files inst) (hget : inst.running[index]? = some execution)
    (hdone : ¬ inst.Leaving → ∀ job, inst.jobs.get? execution.id = some job →
      job.status.isSettled = true ∧ files.get? execution.id = some job) :
    Sound files (inst.finish options index execution now) := by
  have hmem : execution ∈ inst.running := List.mem_of_getElem? hget
  have hsub : (inst.running.eraseIdx index).Sublist inst.running := List.eraseIdx_sublist _ _
  have hnil := h.loaders_nil_of_running (List.ne_nil_of_mem hmem)
  obtain ⟨hlt, hindex⟩ := List.getElem?_eq_some_iff.mp hget
  have hperm : (execution :: inst.running.eraseIdx index).Perm inst.running := by
    rw [← hindex]
    exact List.getElem_cons_eraseIdx_perm hlt
  have harchives := (hperm.map Execution.archive).nodup_iff.mpr h.archives
  rw [List.map_cons, List.nodup_cons] at harchives
  refine pump ⟨h.stored, ?_, h.queue_known, h.queue_open, harchives.2, ?_, ?_, ?_, ?_,
    h.submitting, h.complete⟩ hnil
  · exact h.distinct.sublist ((hsub.map Execution.id).append_left inst.queue)
  · intro other hother
    refine List.mem_filter.mpr ⟨h.active other (hsub.mem hother), ?_⟩
    simp only [ne_eq, decide_not, Bool.not_eq_eq_eq_not, Bool.not_true, decide_eq_false_iff_not]
    intro hsame
    exact harchives.1 (hsame ▸ List.mem_map_of_mem hother)
  · exact fun other hother => h.executions other (hsub.mem hother)
  · intro hstill id job hjob hpending
    by_cases hid : id = execution.id
    · subst hid
      exact hdone hstill job hjob
    · refine h.settled hstill id job hjob fun hold => hpending ?_
      rcases List.mem_append.mp hold with hqueue | hrunning
      · exact List.mem_append_left _ hqueue
      · obtain ⟨other, hother, rfl⟩ := List.mem_map.mp hrunning
        rcases List.mem_cons.mp (hperm.mem_iff.mpr hother) with rfl | hkept
        · exact absurd rfl hid
        · exact List.mem_append_right _ (List.mem_map_of_mem hkept)
  · intro loader hloader
    exact absurd hloader (by simp [hnil])

/-- An execution that has not written its last save may fail. -/
theorem stop (h : Sound files inst) (hget : inst.running[index]? = some execution)
    (hpoint : execution.point ≠ .final .written) (error : EngineError) :
    Sound files (inst.stop options index execution error now) := by
  refine h.setExecution hget rfl ?_ ?_
  · intro file hfile
    have hopen := (h.executions execution (List.mem_of_getElem? hget)).file file hfile
    rw [if_neg hpoint] at hopen
    rw [if_neg (by simp)]
    exact hopen
  · rw [Job.stopped]
    simp only
    split_ifs with hleaving
    · right
      rw [Bool.or_eq_true] at hleaving
      rcases hleaving with hclosing | hfailure
      · exact Or.inl hclosing
      · exact Or.inr (Option.isSome_iff_ne_none.mp hfailure)
    · exact Or.inl rfl

/-- The engine is done. -/
theorem ran (h : Sound files inst) (hget : inst.running[index]? = some execution)
    (hpoint : execution.point = .working) (outcome : Except EngineError Ran) :
    Sound files (inst.ran options index execution outcome now) := by
  have hnot : execution.point ≠ .final .written := by simp [hpoint]
  cases outcome with
  | error error => exact h.stop hget hnot error
  | ok ran =>
      rw [Instance.ran]
      split_ifs with hinline hready
      · exact (h.degrade _).stop hget hnot _
      · refine h.setExecution hget rfl ?_ (Or.inl rfl)
        intro file hfile
        have hopen := (h.executions execution (List.mem_of_getElem? hget)).file file hfile
        rw [if_neg hnot] at hopen
        rw [if_neg (by simp)]
        exact hopen
      · exact h.stop hget hnot _

end Executions

section Loaders

variable {index : Nat} {loader next : Loader}

theorem loader_alone (h : Sound files inst) (hget : inst.loaders[index]? = some loader) :
    inst.loaders = [loader] ∧ index = 0 ∧ inst.started = false ∧ inst.running = [] ∧
      inst.submission = none ∧ LoaderSound files inst.jobs loader := by
  obtain ⟨hone, hrest⟩ := h.loading loader (List.mem_of_getElem? hget)
  rw [hone] at hget
  have hlt : index < 1 := (List.getElem?_eq_some_iff.mp hget).1
  exact ⟨hone, by omega, hrest⟩

/-- A run of `start` goes on; the jobs it has read are in memory, the open ones in the
queue. -/
theorem setLoader (h : Sound files inst) (hget : inst.loaders[index]? = some loader)
    {jobs : Table String Job} {queue : List String}
    (hstored : ∀ id job, jobs.get? id = some job → job.id = id ∧
      ∃ file, files.get? id = some file ∧ file.request = job.request)
    (hdistinct : queue.Nodup) (hknown : ∀ id ∈ queue, (jobs.get? id).isSome = true)
    (hopen : ∀ id ∈ queue, ∀ file, files.get? id = some file → file.status.isSettled = false)
    (hsettled : ¬ inst.Leaving → ∀ id job, jobs.get? id = some job → id ∉ queue →
      job.status.isSettled = true ∧ files.get? id = some job)
    (hnext : LoaderSound files jobs next) :
    Sound files ({ inst with jobs := jobs, queue := queue }.setLoader index next) := by
  obtain ⟨hone, rfl, hstarted, hrunning, hsubmission, _⟩ := h.loader_alone hget
  have hset : inst.loaders.set 0 next = [next] := by rw [hone]; rfl
  refine ⟨hstored, ?_, hknown, hopen, h.archives, h.active, ?_, ?_, ?_, ?_, ?_⟩
  · rw [Instance.pending, Instance.setLoader]
    simpa [hrunning] using hdistinct
  · intro execution hexecution
    change execution ∈ inst.running at hexecution
    rw [hrunning] at hexecution
    cases hexecution
  · intro hserving id job hjob hpending
    refine hsettled hserving id job hjob fun hqueue => hpending ?_
    exact List.mem_append_left _ hqueue
  · intro other hother
    change other ∈ inst.loaders.set 0 next at hother
    rw [hset, List.mem_singleton] at hother
    subst hother
    exact ⟨hset, hstarted, hrunning, hsubmission, hnext⟩
  · intro save hsave
    change save ∈ inst.submission at hsave
    rw [hsubmission] at hsave
    cases hsave
  · intro htrue
    change inst.started = true at htrue
    rw [hstarted] at htrue
    cases htrue

/-- A failed run of `start` leaves nothing behind. -/
theorem reject (h : Sound files inst) (hget : inst.loaders[index]? = some loader) :
    Sound files { inst with
      starting := false
      started := false
      loaders := inst.loaders.eraseIdx index } := by
  obtain ⟨hone, rfl, hstarted, hrunning, hsubmission, hsound⟩ := h.loader_alone hget
  have hnil : inst.loaders.eraseIdx 0 = [] := by rw [hone]; rfl
  refine ⟨h.stored, h.distinct, h.queue_known, h.queue_open, h.archives, h.active, h.executions,
    h.settled, ?_, ?_, ?_⟩
  · intro other hother
    change other ∈ inst.loaders.eraseIdx 0 at hother
    rw [hnil] at hother
    cases hother
  · intro save hsave
    change save ∈ inst.submission at hsave
    rw [hsubmission] at hsave
    cases hsave
  · intro htrue
    cases htrue

/-- All files were read. -/
theorem opened (h : Sound files inst) (hget : inst.loaders[index]? = some ⟨[], none⟩) :
    Sound files ({ inst with
      started := true
      loaders := inst.loaders.eraseIdx index }.pump options now) := by
  obtain ⟨hone, rfl, hstarted, hrunning, hsubmission, hsound⟩ := h.loader_alone hget
  have hnil : inst.loaders.eraseIdx 0 = [] := by rw [hone]; rfl
  refine pump ⟨h.stored, h.distinct, h.queue_known, h.queue_open, h.archives, h.active,
    h.executions, h.settled, ?_, ?_, ?_⟩ hnil
  · intro other hother
    change other ∈ inst.loaders.eraseIdx 0 at hother
    rw [hnil] at hother
    cases hother
  · intro save hsave
    change save ∈ inst.submission at hsave
    rw [hsubmission] at hsave
    cases hsave
  · intro _ _ id file hfile
    rcases hsound.cover id file hfile with hunread | hknown | ⟨save, hsave, _⟩
    · cases hunread
    · exact Or.inl hknown
    · cases hsave

end Loaders

section Writes

variable {index : Nat} {job : Job}

theorem unpending_of_unknown (h : Sound files inst) {id : String}
    (hnone : inst.jobs.get? id = none) : id ∉ inst.pending := by
  intro hpending
  rcases List.mem_append.mp hpending with hqueue | hrunning
  · have hknown := h.queue_known id hqueue
    rw [hnone] at hknown
    cases hknown
  · obtain ⟨execution, hexecution, rfl⟩ := List.mem_map.mp hrunning
    obtain ⟨known, hknown, _⟩ := (h.executions execution hexecution).known
    rw [hnone] at hknown
    cases hknown

/-- A job that is not in memory yet, and that a run of `start` or a submission saves. -/
def Incoming (inst : Instance) (job : Job) : Prop :=
  (∃ loader ∈ inst.loaders, ∃ save ∈ loader.saving, save.job = job) ∨
    ∃ save ∈ inst.submission, save.job = job

theorem Incoming.spec (h : Sound files inst) (hincoming : Incoming inst job) :
    inst.jobs.get? job.id = none ∧ job.status = .queued := by
  rcases hincoming with ⟨loader, hloader, save, hsave, rfl⟩ | ⟨save, hsave, rfl⟩
  · obtain ⟨_, _, _, _, hsound⟩ := h.loading loader hloader
    exact ⟨(hsound.saving save hsave).2.1, (hsound.saving save hsave).2.2.1⟩
  · obtain ⟨_, hstatus, hnone, _⟩ := h.submitting save hsave
    exact ⟨hnone, hstatus⟩

theorem insert (h : Sound files inst) (hincoming : Incoming inst job) :
    Sound (files.insert job.id job) inst := by
  obtain ⟨hnone, hstatus⟩ := hincoming.spec h
  have hopen : job.status.isSettled = false := by rw [hstatus]; rfl
  have hframe : ∀ id known, inst.jobs.get? id = some known →
      (files.insert job.id job).get? id = files.get? id := by
    intro id known hknown
    refine Table.get?_insert_of_ne _ (fun hid => ?_) _
    rw [hid, hnone] at hknown
    cases hknown
  refine ⟨?_, h.distinct, h.queue_known, ?_, h.archives, h.active, ?_, ?_, ?_, ?_, ?_⟩
  · intro id known hknown
    rw [hframe id known hknown]
    exact h.stored id known hknown
  · intro id hid file hfile
    obtain ⟨known, hknown⟩ := Option.isSome_iff_exists.mp (h.queue_known id hid)
    rw [hframe id known hknown] at hfile
    exact h.queue_open id hid file hfile
  · intro execution hexecution
    obtain ⟨⟨known, hknown, hrequest⟩, hfile, hpoint⟩ := h.executions execution hexecution
    refine ⟨⟨known, hknown, hrequest⟩, fun file hget => hfile file ?_, hpoint⟩
    rwa [hframe _ known hknown] at hget
  · intro hserving id known hknown hpending
    rw [hframe id known hknown]
    exact h.settled hserving id known hknown hpending
  · intro loader hloader
    obtain ⟨hone, hstarted, hrunning, hsubmission, hsound⟩ := h.loading loader hloader
    have hsaved : ∃ save ∈ loader.saving, save.job = job := by
      rcases hincoming with ⟨other, hother, hsave⟩ | ⟨save, hsave, _⟩
      · rw [hone, List.mem_singleton] at hother
        exact hother ▸ hsave
      · rw [hsubmission] at hsave
        cases hsave
    refine ⟨hone, hstarted, hrunning, hsubmission, hsound.distinct, hsound.unread, ?_, ?_⟩
    · intro id file hfile
      rw [Table.get?_insert] at hfile
      split_ifs at hfile with hid
      · obtain ⟨save, hsave, rfl⟩ := hsaved
        exact Or.inr (Or.inr ⟨save, hsave, hid.symm⟩)
      · exact hsound.cover id file hfile
    · intro save hsave
      obtain ⟨other, hother, rfl⟩ := hsaved
      rw [Option.mem_def] at hsave hother
      cases hother.symm.trans hsave
      obtain ⟨hunread, hunknown, hqueued, _⟩ := hsound.saving _ hother
      exact ⟨hunread, hunknown, hqueued, _, Table.get?_insert_self _ _ _, rfl, hopen⟩
  · intro save hsave
    obtain ⟨hnil, hqueued, hunknown, _⟩ := h.submitting save hsave
    refine ⟨hnil, hqueued, hunknown, fun _ => ?_⟩
    rcases hincoming with ⟨loader, hloader, _⟩ | ⟨other, hother, rfl⟩
    · rw [hnil] at hloader
      cases hloader
    · rw [Option.mem_def] at hsave hother
      cases hother.symm.trans hsave
      exact Table.get?_insert_self _ _ _
  · intro hstarted hfailure id file hfile
    rw [Table.get?_insert] at hfile
    split_ifs at hfile with hid
    · right
      rcases hincoming with ⟨loader, hloader, _⟩ | ⟨save, hsave, rfl⟩
      · obtain ⟨_, hunstarted, _⟩ := h.loading loader hloader
        rw [hunstarted] at hstarted
        cases hstarted
      · exact ⟨save, hsave, hid.symm⟩
    · exact h.complete hstarted hfailure id file hfile

/-- The other executions are those of other jobs. -/
theorem others_distinct (h : Sound files inst) {execution : Execution}
    (hget : inst.running[index]? = some execution) :
    execution.id ∉ inst.queue ∧
      ∀ other ∈ inst.running.eraseIdx index, other.id ≠ execution.id := by
  obtain ⟨hlt, hindex⟩ := List.getElem?_eq_some_iff.mp hget
  have hperm : (execution :: inst.running.eraseIdx index).Perm inst.running := by
    rw [← hindex]
    exact List.getElem_cons_eraseIdx_perm hlt
  obtain ⟨_, hnodup, hdisjoint⟩ := List.nodup_append.mp h.distinct
  constructor
  · intro hqueue
    exact hdisjoint _ hqueue _ (List.mem_map_of_mem (List.mem_of_getElem? hget)) rfl
  · intro other hother hsame
    have hids := (hperm.map Execution.id).nodup_iff.mpr hnodup
    rw [List.map_cons, List.nodup_cons] at hids
    exact hids.1 (hsame ▸ List.mem_map_of_mem hother)

/-- An execution writes its job. -/
theorem landExecution (h : Sound files inst) {execution next : Execution}
    (hget : inst.running[index]? = some execution) (hjob : next.job = execution.job)
    (hpoint : (∃ stage, execution.point = .phase stage) ∧ next.point = .phase .written ∨
      (∃ stage, execution.point = .final stage) ∧ next.point = .final .written) :
    Sound (files.insert execution.id execution.job) (inst.setExecution index next) := by
  have hmem : execution ∈ inst.running := List.mem_of_getElem? hget
  obtain ⟨⟨known, hknown, hrequest⟩, _, hstatus⟩ := h.executions execution hmem
  obtain ⟨hqueue, hothers⟩ := h.others_distinct hget
  obtain ⟨hlt, _⟩ := List.getElem?_eq_some_iff.mp hget
  have hid : next.id = execution.id := congrArg Job.id hjob
  have harchive : next.archive = execution.archive :=
    congrArg (fun job => job.request.archiveId) hjob
  have hnext : match next.point with
      | .final _ => next.job.status.isSettled = true ∨ inst.Leaving
      | _ => next.job.status.isSettled = false := by
    rcases hpoint with ⟨⟨stage, hold⟩, hnew⟩ | ⟨⟨stage, hold⟩, hnew⟩
    · rw [hold] at hstatus
      rw [hnew, hjob]
      exact hstatus
    · rw [hold] at hstatus
      rw [hnew, hjob]
      exact hstatus
  have hpending : (inst.setExecution index next).pending = inst.pending := by
    rw [Instance.pending, Instance.pending, Instance.setExecution]
    simp only
    rw [map_set_eq Execution.id hget hid]
  have hmembers : ∀ other ∈ inst.running.set index next,
      other = next ∨ other ∈ inst.running.eraseIdx index := by
    intro other hother
    exact List.mem_cons.mp ((List.set_perm_cons_eraseIdx hlt next).mem_iff.mp hother)
  have hframe : ∀ id, id ≠ execution.id →
      (files.insert execution.id execution.job).get? id = files.get? id :=
    fun id hne => Table.get?_insert_of_ne _ hne _
  refine ⟨?_, hpending ▸ h.distinct, h.queue_known, ?_, ?_, ?_, ?_, ?_, ?_, ?_, ?_⟩
  · intro id job hjob
    obtain ⟨hkey, file, hfile, hsame⟩ := h.stored id job hjob
    by_cases hone : id = execution.id
    · subst hone
      cases hknown.symm.trans hjob
      exact ⟨hkey, _, Table.get?_insert_self _ _ _, hrequest.symm⟩
    · exact ⟨hkey, file, (hframe id hone).trans hfile, hsame⟩
  · intro id hmemQueue file hfile
    rw [hframe id fun hsame => hqueue (hsame ▸ hmemQueue)] at hfile
    exact h.queue_open id hmemQueue file hfile
  · rw [Instance.setExecution]
    simp only
    rw [map_set_eq Execution.archive hget harchive]
    exact h.archives
  · intro other hother
    rcases hmembers other hother with rfl | hkept
    · exact harchive ▸ h.active execution hmem
    · exact h.active other (List.mem_of_mem_eraseIdx hkept)
  · intro other hother
    rcases hmembers other hother with rfl | hkept
    · refine ⟨⟨known, hid ▸ hknown, hjob ▸ hrequest⟩, ?_, hnext⟩
      intro file hfile
      rw [hid, Table.get?_insert_self, Option.some.injEq] at hfile
      subst hfile
      rcases hpoint with ⟨⟨stage, hold⟩, hnew⟩ | ⟨_, hnew⟩
      · rw [hold] at hstatus
        rw [hnew, if_neg (by simp)]
        exact hstatus
      · rw [hnew, if_pos rfl]
        exact hjob.symm
    · obtain ⟨hotherKnown, hotherFile, hotherStatus⟩ :=
        h.executions other (List.mem_of_mem_eraseIdx hkept)
      refine ⟨hotherKnown, fun file hfile => hotherFile file ?_, hotherStatus⟩
      rwa [hframe _ (hothers other hkept)] at hfile
  · intro hserving id job hjob hpendingId
    rw [hpending] at hpendingId
    rw [hframe id fun hsame => hpendingId (List.mem_append_right _
      (hsame ▸ List.mem_map_of_mem hmem))]
    exact h.settled hserving id job hjob hpendingId
  · intro loader hloader
    have hnil := h.loaders_nil_of_running (List.ne_nil_of_mem hmem)
    exact absurd hloader (by rw [Instance.setExecution, hnil]; exact List.not_mem_nil)
  · intro save hsave
    obtain ⟨hnil, hstatusQueued, hnone, hwritten⟩ := h.submitting save hsave
    refine ⟨hnil, hstatusQueued, hnone, fun hstage => ?_⟩
    rw [hframe _ fun hsame => ?_]
    · exact hwritten hstage
    · rw [hsame, hknown] at hnone
      cases hnone
  · intro hstarted hfailure id file hfile
    by_cases hone : id = execution.id
    · exact Or.inl (Option.isSome_iff_exists.mpr ⟨known, hone ▸ hknown⟩)
    · rw [hframe id hone] at hfile
      exact h.complete hstarted hfailure id file hfile

end Writes

section Continuations

variable {index : Nat} {job : Job}

/-- A run of `start` puts a recovered job in the queue. -/
theorem savedLoader (h : Sound files inst) {loader : Loader}
    (hget : inst.loaders[index]? = some loader) {save : Save} (hsave : loader.saving = some save) :
    Sound files ({ inst with
      jobs := inst.jobs.insert save.job.id save.job
      queue := inst.queue ++ [save.job.id] }.setLoader index ⟨loader.names, none⟩) := by
  obtain ⟨_, _, _, hrunning, _, hsound⟩ := h.loader_alone hget
  obtain ⟨hunread, hnone, _, file, hfile, hrequest, hopen⟩ := hsound.saving save hsave
  have hqueue : save.job.id ∉ inst.queue :=
    fun hmem => h.unpending_of_unknown hnone (List.mem_append_left _ hmem)
  refine h.setLoader hget ?_ ?_ ?_ ?_ ?_ ⟨hsound.distinct, ?_, ?_, ?_⟩
  · intro id known hknown
    rw [Table.get?_insert] at hknown
    split_ifs at hknown with hid
    · cases hknown
      exact ⟨hid.symm, file, hid ▸ hfile, hrequest⟩
    · exact h.stored id known hknown
  · rw [List.nodup_append]
    refine ⟨(List.nodup_append.mp h.distinct).1, List.nodup_singleton _, ?_⟩
    intro id hid other hother hsame
    rw [List.mem_singleton] at hother
    exact hqueue (hother ▸ hsame ▸ hid)
  · intro id hid
    rw [Table.get?_insert]
    split_ifs with hone
    · rfl
    · rcases List.mem_append.mp hid with hold | hnew
      · exact h.queue_known id hold
      · exact absurd (List.mem_singleton.mp hnew) hone
  · intro id hid other hother
    rcases List.mem_append.mp hid with hold | hnew
    · exact h.queue_open id hold other hother
    · rw [List.mem_singleton.mp hnew, hfile, Option.some.injEq] at hother
      exact hother ▸ hopen
  · intro hserving id known hknown hother
    rw [List.mem_append, not_or, List.mem_singleton] at hother
    rw [Table.get?_insert_of_ne _ hother.2] at hknown
    refine h.settled hserving id known hknown ?_
    rw [Instance.pending, hrunning]
    simpa using hother.1
  · intro id hid
    have hne : id ≠ save.job.id := fun hsame => hunread (hsame ▸ hid)
    rw [Table.get?_insert_of_ne _ hne]
    exact hsound.unread id hid
  · intro id other hother
    rw [Table.get?_insert]
    split_ifs with hone
    · exact Or.inr (Or.inl rfl)
    · rcases hsound.cover id other hother with hold | hknown | ⟨saved, hsaved, hid⟩
      · exact Or.inl hold
      · exact Or.inr (Or.inl hknown)
      · rw [Option.mem_def, hsave, Option.some.injEq] at hsaved
        exact absurd (hsaved ▸ hid).symm hone
  · intro saved hsaved
    cases hsaved

/-- A settled job is only remembered. -/
theorem loadSettled (h : Sound files inst) {id : String} {names : List String}
    (hget : inst.loaders[index]? = some ⟨id :: names, none⟩) (hfile : files.get? id = some job)
    (hid : job.id = id) (hsettled : job.status.isSettled = true) :
    Sound files ({ inst with jobs := inst.jobs.insert id job }.setLoader index ⟨names, none⟩) := by
  obtain ⟨_, _, _, hrunning, _, hsound⟩ := h.loader_alone hget
  obtain ⟨hunread, hnames⟩ := List.nodup_cons.mp hsound.distinct
  have hnone := hsound.unread id List.mem_cons_self
  refine h.setLoader hget ?_ (List.nodup_append.mp h.distinct).1 ?_ h.queue_open ?_
    ⟨hnames, ?_, ?_, ?_⟩
  · intro other known hknown
    rw [Table.get?_insert] at hknown
    split_ifs at hknown with hone
    · cases hknown
      exact ⟨hid.trans hone.symm, job, hone ▸ hfile, rfl⟩
    · exact h.stored other known hknown
  · intro other hother
    rw [Table.get?_insert]
    split_ifs
    · rfl
    · exact h.queue_known other hother
  · intro hserving other known hknown hother
    rw [Table.get?_insert] at hknown
    split_ifs at hknown with hone
    · cases hknown
      exact ⟨hsettled, hone ▸ hfile⟩
    · refine h.settled hserving other known hknown ?_
      rw [Instance.pending, hrunning]
      simpa using hother
  · intro other hother
    have hne : other ≠ id := fun hsame => hunread (hsame ▸ hother)
    rw [Table.get?_insert_of_ne _ hne]
    exact hsound.unread other (List.mem_cons_of_mem _ hother)
  · intro other file hother
    rw [Table.get?_insert]
    split_ifs with hone
    · exact Or.inr (Or.inl rfl)
    · rcases hsound.cover other file hother with hold | hknown | ⟨saved, hsaved, _⟩
      · rcases List.mem_cons.mp hold with hsame | hrest
        · exact absurd hsame hone
        · exact Or.inl hrest
      · exact Or.inr (Or.inl hknown)
      · cases hsaved
  · intro saved hsaved
    cases hsaved

/-- An open job is recovered. -/
theorem loadOpen (h : Sound files inst) {id : String} {names : List String}
    (hget : inst.loaders[index]? = some ⟨id :: names, none⟩) (hfile : files.get? id = some job)
    (hid : job.id = id) (hopen : job.status.isSettled = false) :
    Sound files (inst.setLoader index ⟨names, some ⟨job.recovered, .called⟩⟩) := by
  obtain ⟨_, _, _, hrunning, _, hsound⟩ := h.loader_alone hget
  obtain ⟨hunread, hnames⟩ := List.nodup_cons.mp hsound.distinct
  have hrecovered : job.recovered.id = id := hid
  refine h.setLoader hget h.stored (List.nodup_append.mp h.distinct).1 h.queue_known h.queue_open
    ?_ ⟨hnames, ?_, ?_, ?_⟩
  · intro hserving other known hknown hother
    refine h.settled hserving other known hknown ?_
    rw [Instance.pending, hrunning]
    simpa using hother
  · exact fun other hother => hsound.unread other (List.mem_cons_of_mem _ hother)
  · intro other file hother
    rcases hsound.cover other file hother with hold | hknown | ⟨saved, hsaved, _⟩
    · rcases List.mem_cons.mp hold with rfl | hrest
      · exact Or.inr (Or.inr ⟨_, rfl, hrecovered⟩)
      · exact Or.inl hrest
    · exact Or.inr (Or.inl hknown)
    · cases hsaved
  · intro saved hsaved
    cases hsaved
    rw [hrecovered]
    exact ⟨hunread, hsound.unread id List.mem_cons_self, rfl, job, hfile, rfl, hopen⟩

/-- A submission that was written is accepted. -/
theorem savedSubmission (h : Sound files inst)
    (hsave : inst.submission = some ⟨job, .written⟩) :
    Sound files ({ inst with
      jobs := inst.jobs.insert job.id job
      queue := inst.queue ++ [job.id]
      submission := none }.pump options now) := by
  obtain ⟨hnil, hstatus, hnone, hwritten⟩ := h.submitting _ hsave
  have hfile : files.get? job.id = some job := hwritten rfl
  have hpending := h.unpending_of_unknown hnone
  have hperm : ((inst.queue ++ [job.id]) ++ inst.running.map Execution.id).Perm
      (job.id :: inst.pending) := by
    rw [List.append_assoc, List.singleton_append]
    exact List.perm_middle
  refine pump ⟨?_, ?_, ?_, ?_, h.archives, h.active, ?_, ?_, ?_, ?_, ?_⟩ hnil
  · intro id known hknown
    rw [Table.get?_insert] at hknown
    split_ifs at hknown with hid
    · cases hknown
      exact ⟨hid.symm, job, hid ▸ hfile, rfl⟩
    · exact h.stored id known hknown
  · exact hperm.nodup_iff.mpr (List.nodup_cons.mpr ⟨hpending, h.distinct⟩)
  · intro id hid
    rw [Table.get?_insert]
    split_ifs with hone
    · rfl
    · rcases List.mem_append.mp hid with hold | hnew
      · exact h.queue_known id hold
      · exact absurd (List.mem_singleton.mp hnew) hone
  · intro id hid file hget
    rcases List.mem_append.mp hid with hold | hnew
    · exact h.queue_open id hold file hget
    · rw [List.mem_singleton.mp hnew, hfile, Option.some.injEq] at hget
      rw [← hget, hstatus]
      rfl
  · intro execution hexecution
    obtain ⟨⟨known, hknown, hrequest⟩, hfileOf, hpoint⟩ := h.executions execution hexecution
    refine ⟨⟨known, ?_, hrequest⟩, hfileOf, hpoint⟩
    rw [Table.get?_insert_of_ne _ fun hsame => ?_, hknown]
    rw [hsame, hnone] at hknown
    cases hknown
  · intro hserving id known hknown hother
    have hnot : id ∉ job.id :: inst.pending := fun hmem => hother (hperm.mem_iff.mpr hmem)
    rw [List.mem_cons, not_or] at hnot
    rw [Table.get?_insert_of_ne _ hnot.1] at hknown
    exact h.settled hserving id known hknown hnot.2
  · intro loader hloader
    change loader ∈ inst.loaders at hloader
    rw [hnil] at hloader
    cases hloader
  · intro save hother
    cases hother
  · intro hstarted hfailure id file hget
    left
    rw [Table.get?_insert]
    split_ifs with hone
    · rfl
    · rcases h.complete hstarted hfailure id file hget with hknown | ⟨save, hother, hid⟩
      · exact hknown
      · rw [Option.mem_def, hsave, Option.some.injEq] at hother
        exact absurd (hother ▸ hid).symm hone

/-- The job of an execution is remembered. -/
theorem remember (h : Sound files inst) {execution : Execution}
    (hget : inst.running[index]? = some execution) :
    Sound files { inst with jobs := inst.jobs.insert execution.id execution.job } := by
  have hmem : execution ∈ inst.running := List.mem_of_getElem? hget
  obtain ⟨⟨known, hknown, hrequest⟩, _, _⟩ := h.executions execution hmem
  obtain ⟨hid, file, hfile, hsame⟩ := h.stored _ known hknown
  have hnodup := (List.nodup_append.mp h.distinct).2.1
  refine ⟨?_, h.distinct, ?_, h.queue_open, h.archives, h.active, ?_, ?_, ?_, ?_, ?_⟩
  · intro id job hjob
    rw [Table.get?_insert] at hjob
    split_ifs at hjob with hone
    · cases hjob
      exact ⟨hone.symm, file, hone ▸ hfile, hsame.trans hrequest⟩
    · exact h.stored id job hjob
  · intro id hqueue
    rw [Table.get?_insert]
    split_ifs
    · rfl
    · exact h.queue_known id hqueue
  · intro other hother
    obtain ⟨⟨stored, hstored, hrequests⟩, hfileOf, hpoint⟩ := h.executions other hother
    refine ⟨?_, hfileOf, hpoint⟩
    by_cases hone : other.id = execution.id
    · obtain rfl := List.inj_on_of_nodup_map hnodup hother hmem hone
      exact ⟨other.job, Table.get?_insert_self _ _ _, rfl⟩
    · exact ⟨stored, by rw [Table.get?_insert_of_ne _ hone, hstored], hrequests⟩
  · intro hserving id job hjob hpending
    have hne : id ≠ execution.id := fun hone =>
      hpending (List.mem_append_right _ (hone ▸ List.mem_map_of_mem (f := Execution.id) hmem))
    rw [Table.get?_insert_of_ne _ hne] at hjob
    exact h.settled hserving id job hjob hpending
  · intro loader hloader
    have hnil := h.loaders_nil_of_running (List.ne_nil_of_mem hmem)
    exact absurd hloader (by simp [hnil])
  · intro save hsave
    obtain ⟨hnil, hstatus, hnone, hwritten⟩ := h.submitting save hsave
    refine ⟨hnil, hstatus, ?_, hwritten⟩
    rw [Table.get?_insert_of_ne _ fun hone => ?_]
    · exact hnone
    · rw [hone, hknown] at hnone
      cases hnone
  · intro hstarted hfailure id other hother
    rw [Table.get?_insert]
    split_ifs
    · exact Or.inl rfl
    · exact h.complete hstarted hfailure id other hother

end Continuations

section Threads

variable {index : Nat} {job : Job}

theorem forgetSubmission (h : Sound files inst) (hfailure : inst.failure ≠ none) :
    Sound files { inst with submission := none } := by
  refine ⟨h.stored, h.distinct, h.queue_known, h.queue_open, h.archives, h.active, h.executions,
    h.settled, ?_, ?_, ?_⟩
  · intro loader hloader
    obtain ⟨hone, hstarted, hrunning, _, hsound⟩ := h.loading loader hloader
    exact ⟨hone, hstarted, hrunning, rfl, hsound⟩
  · intro save hsave
    cases hsave
  · exact fun _ hnone => absurd hnone hfailure

theorem beginSubmission (h : Sound files inst) (hok : inst.ok = true)
    (hnone : inst.submission = none) {request : Request}
    (hunknown : inst.jobs.get? request.id.text = none) :
    Sound files { inst with submission := some ⟨newJob request now, .called⟩ } := by
  have hstarted : inst.started = true := by
    rw [Instance.ok, Bool.and_eq_true, Bool.and_eq_true] at hok
    exact hok.1.1
  have hnil : inst.loaders = [] := by
    refine List.eq_nil_iff_forall_not_mem.mpr fun loader hloader => ?_
    obtain ⟨_, hunstarted, _⟩ := h.loading loader hloader
    rw [hstarted] at hunstarted
    cases hunstarted
  refine ⟨h.stored, h.distinct, h.queue_known, h.queue_open, h.archives, h.active, h.executions,
    h.settled, ?_, ?_, ?_⟩
  · intro loader hloader
    change loader ∈ inst.loaders at hloader
    rw [hnil] at hloader
    cases hloader
  · intro save hsave
    cases hsave
    exact ⟨hnil, rfl, hunknown, fun hstage => by cases hstage⟩
  · intro hstill hfailure id file hfile
    rcases h.complete hstill hfailure id file hfile with hknown | ⟨save, hsave, _⟩
    · exact Or.inl hknown
    · rw [hnone] at hsave
      cases hsave

theorem stageLoader (h : Sound files inst) (stage : Stage) :
    Sound files (inst.setStage stage (.loader index)) := by
  rw [Instance.setStage]
  cases hget : inst.loaders[index]? with
  | none => exact h
  | some loader =>
      obtain ⟨_, _, _, hrunning, _, hsound⟩ := h.loader_alone hget
      refine h.setLoader hget h.stored (List.nodup_append.mp h.distinct).1 h.queue_known
        h.queue_open ?_ ⟨hsound.distinct, hsound.unread, ?_, ?_⟩
      · intro hserving other known hknown hother
        refine h.settled hserving other known hknown ?_
        rw [Instance.pending, hrunning]
        simpa using hother
      · intro id file hfile
        rcases hsound.cover id file hfile with hold | hknown | ⟨save, hsave, hid⟩
        · exact Or.inl hold
        · exact Or.inr (Or.inl hknown)
        · exact Or.inr (Or.inr ⟨⟨save.job, stage⟩, Option.map_eq_some_iff.mpr ⟨save, hsave, rfl⟩,
            hid⟩)
      · intro save hsave
        obtain ⟨old, hold, rfl⟩ := Option.map_eq_some_iff.mp hsave
        exact hsound.saving old hold

theorem stageSubmission (h : Sound files inst) {stage : Stage}
    (hwritten : stage = .written → ∀ save ∈ inst.submission,
      files.get? save.job.id = some save.job) :
    Sound files (inst.setStage stage .submission) := by
  refine ⟨h.stored, h.distinct, h.queue_known, h.queue_open, h.archives, h.active, h.executions,
    h.settled, ?_, ?_, ?_⟩
  · intro loader hloader
    obtain ⟨hone, hstarted, hrunning, hsubmission, hsound⟩ := h.loading loader hloader
    refine ⟨hone, hstarted, hrunning, ?_, hsound⟩
    rw [Instance.setStage, hsubmission]
    rfl
  · intro save hsave
    obtain ⟨old, hold, rfl⟩ := Option.map_eq_some_iff.mp hsave
    obtain ⟨hnil, hstatus, hnone, _⟩ := h.submitting old hold
    exact ⟨hnil, hstatus, hnone, fun hstage => hwritten hstage old hold⟩
  · intro hstarted hfailure id file hfile
    rcases h.complete hstarted hfailure id file hfile with hknown | ⟨save, hsave, hid⟩
    · exact Or.inl hknown
    · exact Or.inr ⟨⟨save.job, stage⟩, Option.map_eq_some_iff.mpr ⟨save, hsave, rfl⟩, hid⟩

theorem save?_execution {stage : Stage}
    (h : inst.save? (.execution index) = some ⟨job, stage⟩) :
    ∃ execution, inst.running[index]? = some execution ∧ execution.job = job ∧
      (execution.point = .phase stage ∨ execution.point = .final stage) := by
  obtain ⟨execution, hget, hsave⟩ := Option.bind_eq_some_iff.mp h
  refine ⟨execution, hget, ?_⟩
  rw [Execution.save?] at hsave
  split at hsave
  · cases hsave
    exact ⟨rfl, Or.inl ‹_›⟩
  · cases hsave
    exact ⟨rfl, Or.inr ‹_›⟩
  · cases hsave

theorem save?_loader {stage : Stage}
    (h : inst.save? (.loader index) = some ⟨job, stage⟩) :
    ∃ loader, inst.loaders[index]? = some loader ∧ loader.saving = some ⟨job, stage⟩ :=
  Option.bind_eq_some_iff.mp h

/-- The size of a job was checked. -/
theorem stageWriting (h : Sound files inst) (thread : Thread)
    (hsave : inst.save? thread = some ⟨job, .called⟩) :
    Sound files (inst.setStage .writing thread) := by
  cases thread with
  | loader index => exact h.stageLoader _
  | submission => exact h.stageSubmission fun hstage => by cases hstage
  | execution index =>
      obtain ⟨execution, hget, _, hpoint⟩ := save?_execution hsave
      obtain ⟨hjob, hnext⟩ := @Execution.setStage_spec _ _ .writing hpoint
      obtain ⟨_, hfile, hstatus⟩ := h.executions execution (List.mem_of_getElem? hget)
      rw [Instance.setStage, hget]
      refine h.setExecution hget (by rw [hjob]) ?_ ?_
      · intro file hold
        have hopen := hfile file hold
        rcases hnext with ⟨hold, hnew⟩ | ⟨hold, hnew⟩
        · rw [hold, if_neg (by simp)] at hopen
          rwa [hnew, if_neg (by simp)]
        · rw [hold, if_neg (by simp)] at hopen
          rwa [hnew, if_neg (by simp)]
      · rcases hnext with ⟨hold, hnew⟩ | ⟨hold, hnew⟩
        · rw [hold] at hstatus
          rw [hnew, hjob]
          exact hstatus
        · rw [hold] at hstatus
          rw [hnew, hjob]
          exact hstatus

theorem close (h : Sound files inst) : Sound files { inst with closing := true } := by
  refine ⟨h.stored, h.distinct, h.queue_known, h.queue_open, h.archives, h.active, ?_, ?_,
    h.loading, h.submitting, h.complete⟩
  · intro execution hexecution
    obtain ⟨hknown, hfile, hstatus⟩ := h.executions execution hexecution
    refine ⟨hknown, hfile, ?_⟩
    cases hpoint : execution.point with
    | final stage => exact Or.inr (Or.inl rfl)
    | phase stage => simpa [hpoint] using hstatus
    | working => simpa [hpoint] using hstatus
  · exact fun hserving => absurd (Or.inl rfl) hserving

theorem closed (h : Sound files inst) :
    Sound files { inst with starting := false, started := false } := by
  refine ⟨h.stored, h.distinct, h.queue_known, h.queue_open, h.archives, h.active, h.executions,
    h.settled, ?_, h.submitting, ?_⟩
  · intro loader hloader
    obtain ⟨hone, _, hrest⟩ := h.loading loader hloader
    exact ⟨hone, rfl, hrest⟩
  · intro hstarted
    cases hstarted

end Threads

end Sound

section Events

variable {options : Options} {self : Nat} {view : View}

/-- What one event may do while no other instance is live. -/
structure Advances (before after : View) : Prop where
  sound : Sound after.files after.inst
  keyed : Keyed after.files
  kept : FilesKept before.files after.files
  acknowledged : ∀ request ∈ after.acknowledged, request ∈ before.acknowledged ∨
    ∃ file, after.files.get? request.id.text = some file ∧ file.request = request

theorem Advances.of_inst (hkeyed : Keyed view.files) {next : View}
    (hfiles : next.files = view.files) (hacknowledged : next.acknowledged = view.acknowledged)
    (hsound : Sound view.files next.inst) : Advances view next := by
  refine ⟨hfiles ▸ hsound, hfiles ▸ hkeyed, hfiles ▸ FilesKept.refl _, ?_⟩
  rw [hacknowledged]
  exact fun request hrequest => Or.inl hrequest

theorem Advances.refl (hkeyed : Keyed view.files) (h : Sound view.files view.inst) :
    Advances view view := .of_inst hkeyed rfl rfl h

variable (hkeyed : Keyed view.files) (h : Sound view.files view.inst)

include hkeyed h

theorem rejectStart_advances {index : Nat} {loader : Loader}
    (hget : view.inst.loaders[index]? = some loader) :
    Advances view (view.rejectStart self index) := .of_inst hkeyed rfl rfl (h.reject hget)

theorem load_advances (index : Nat) : Advances view (view.load self index) := by
  rw [View.load]
  split
  · rename_i id names hget
    split
    · exact rejectStart_advances hkeyed h hget
    · rename_i file hfile
      have hid := hkeyed id file hfile
      split
      · exact rejectStart_advances hkeyed h hget
      · rename_i job hjob
        have hsame : job = file := by
          rw [← hid] at hjob
          exact (loadJob_fileBytes.mp hjob).1
        subst hsame
        split_ifs with hsettled
        · exact .of_inst hkeyed rfl rfl (h.loadSettled hget hfile hid hsettled)
        · exact .of_inst hkeyed rfl rfl (h.loadOpen hget hfile hid (by simpa using hsettled))
  · exact .refl hkeyed h

theorem loadError_advances (index : Nat) : Advances view (view.loadError self index) := by
  rw [View.loadError]
  split_ifs with hindex
  · exact rejectStart_advances hkeyed h (List.getElem?_eq_getElem hindex)
  · exact .refl hkeyed h

theorem opened_advances (index : Nat) (now : String) :
    Advances view (view.opened options self index now) := by
  rw [View.opened]
  split
  · rename_i hget
    split_ifs
    · exact rejectStart_advances hkeyed h hget
    · exact .of_inst hkeyed rfl rfl (h.opened hget)
  · exact .refl hkeyed h

theorem submit_advances (request : Request) (registered : Bool) (now : String) :
    Advances view (view.submit options request registered now) := by
  rw [View.submit]
  split
  · exact .refl hkeyed h
  · rename_i hbusy
    simp only [Bool.or_eq_true, Bool.not_eq_true', not_or, Bool.not_eq_false] at hbusy
    split
    · rename_i existing hexisting
      split_ifs with hsame
      · refine ⟨h, hkeyed, FilesKept.refl _, fun other hother => ?_⟩
        rcases List.mem_append.mp hother with hold | hnew
        · exact Or.inl hold
        · obtain ⟨_, file, hfile, hrequest⟩ := h.stored _ existing hexisting
          rw [List.mem_singleton.mp hnew]
          exact Or.inr ⟨file, hfile, hrequest.trans hsame⟩
      · exact .refl hkeyed h
    · rename_i hunknown
      split
      · exact .refl hkeyed h
      · exact .of_inst hkeyed rfl rfl
          (h.beginSubmission hbusy.2 (Option.not_isSome_iff_eq_none.mp hbusy.1) hunknown)

theorem saveFailed_advances (failure : Failure) (thread : Thread) {now : String} {save : Save}
    (hsave : view.inst.save? thread = some save) :
    Advances view (view.saveFailed options self failure thread now) := by
  have hdegraded := h.degrade failure
  have hfailed : (view.inst.degrade failure).failure ≠ none := by
    rw [Instance.degrade]
    cases view.inst.failure <;> simp
  cases thread with
  | loader index =>
      obtain ⟨loader, hget, _⟩ := Option.bind_eq_some_iff.mp hsave
      exact .of_inst hkeyed rfl rfl (hdegraded.reject hget)
  | submission => exact .of_inst hkeyed rfl rfl (hdegraded.forgetSubmission hfailed)
  | execution index =>
      rw [View.saveFailed]
      split
      · exact .refl hkeyed h
      · rename_i execution hget
        split
        · rename_i hpoint
          exact .of_inst hkeyed rfl rfl (hdegraded.stop hget (by simp [hpoint]) _)
        · refine .of_inst hkeyed rfl rfl (hdegraded.finish hget fun hserving => ?_)
          exact absurd (Or.inr hfailed) hserving
        · exact .refl hkeyed h

theorem save_advances (thread : Thread) (now : String) :
    Advances view (view.save options self thread now) := by
  rw [View.save]
  split
  · rename_i job hsave
    split_ifs
    · exact saveFailed_advances hkeyed h _ thread hsave
    · exact .of_inst hkeyed rfl rfl (h.stageWriting thread hsave)
  · exact .refl hkeyed h

theorem ioError_advances (thread : Thread) (now : String) :
    Advances view (view.ioError options self thread now) := by
  rw [View.ioError]
  split
  · rename_i hsave
    exact saveFailed_advances hkeyed h _ thread hsave
  · rename_i hsave
    exact saveFailed_advances hkeyed h _ thread hsave
  · exact .refl hkeyed h

theorem phase_advances (index : Nat) (phase now : String) :
    Advances view (view.phase index phase now) := by
  rw [View.phase]
  split
  · rename_i job hget
    obtain ⟨_, hfile, hstatus⟩ := h.executions _ (List.mem_of_getElem? hget)
    refine .of_inst hkeyed rfl rfl (h.setExecution hget rfl ?_ hstatus)
    intro file hold
    have hopen := hfile file hold
    rw [if_neg (by simp)] at hopen
    rwa [if_neg (by simp)]
  · exact .refl hkeyed h

theorem ran_advances (index : Nat) (outcome : Except EngineError Ran) (now : String) :
    Advances view (view.ran options index outcome now) := by
  rw [View.ran]
  split
  · rename_i job hget
    exact .of_inst hkeyed rfl rfl (h.ran hget rfl outcome)
  · exact .refl hkeyed h

theorem saved_advances (thread : Thread) (now : String) :
    Advances view (view.saved options thread now) := by
  rw [View.saved]
  split
  · rename_i job hsave
    cases thread with
    | loader index =>
        obtain ⟨loader, hget, hsaving⟩ := Sound.save?_loader hsave
        simp only [hget]
        exact .of_inst hkeyed rfl rfl (h.savedLoader hget hsaving)
    | submission =>
        have hfile := (h.submitting _ hsave).2.2.2 rfl
        refine ⟨h.savedSubmission hsave, hkeyed, FilesKept.refl _, fun other hother => ?_⟩
        rcases List.mem_append.mp hother with hold | hnew
        · exact Or.inl hold
        · rw [List.mem_singleton.mp hnew]
          exact Or.inr ⟨job, hfile, rfl⟩
    | execution index =>
        obtain ⟨execution, hget, rfl, hpoint⟩ := Sound.save?_execution hsave
        obtain ⟨_, hfile, hstatus⟩ := h.executions execution (List.mem_of_getElem? hget)
        simp only [hget]
        rcases hpoint with hphase | hfinal
        · simp only [hphase]
          refine .of_inst hkeyed rfl rfl ((h.remember hget).setExecution hget rfl ?_ ?_)
          · intro file hold
            have hopen := hfile file hold
            rw [hphase, if_neg (by simp)] at hopen
            rwa [if_neg (by simp)]
          · rw [hphase] at hstatus
            exact hstatus
        · simp only [hfinal]
          refine .of_inst hkeyed rfl rfl ((h.remember hget).finish hget ?_)
          intro hserving job hjob
          obtain ⟨⟨known, hknown, _⟩, _, _⟩ :=
            h.executions execution (List.mem_of_getElem? hget)
          obtain ⟨_, file, hstored, _⟩ := h.stored _ known hknown
          have hsame := hfile file hstored
          rw [if_pos hfinal] at hsame
          change (view.inst.jobs.insert execution.id execution.job).get? execution.id = _ at hjob
          rw [Table.get?_insert_self, Option.some.injEq] at hjob
          subst hjob
          rw [hfinal] at hstatus
          exact ⟨hstatus.resolve_right hserving, hsame ▸ hstored⟩
  · exact .refl hkeyed h

theorem land_advances (thread : Thread) (now : String) :
    Advances view (view.land options self thread now) := by
  rw [View.land]
  split
  · rename_i job hsave
    split
    · exact saveFailed_advances hkeyed h _ thread hsave
    · rename_i hfree
      cases thread with
      | loader index =>
          obtain ⟨loader, hget, hsaving⟩ := Sound.save?_loader hsave
          have hmem := List.mem_of_getElem? hget
          obtain ⟨_, _, _, file, hfile, hrequest, hopen⟩ :=
            (h.loading loader hmem).2.2.2.2.saving _ hsaving
          refine ⟨(h.insert (Or.inl ⟨loader, hmem, _, hsaving, rfl⟩)).stageLoader _,
            hkeyed.insert job, filesKept_insert fun old hold => ?_,
            fun other hother => Or.inl hother⟩
          rw [hfile, Option.some.injEq] at hold
          exact hold ▸ ⟨hrequest, hopen⟩
      | submission =>
          have hnone : view.files.get? job.id = none := by
            simpa using hfree
          refine ⟨(h.insert (Or.inr ⟨_, hsave, rfl⟩)).stageSubmission fun _ save hother => ?_,
            hkeyed.insert job, filesKept_insert fun old hold => ?_,
            fun other hother => Or.inl hother⟩
          · rw [Option.mem_def] at hother
            cases hsave.symm.trans hother
            exact Table.get?_insert_self _ _ _
          · rw [hnone] at hold
            cases hold
      | execution index =>
          obtain ⟨execution, hget, rfl, hpoint⟩ := Sound.save?_execution hsave
          obtain ⟨⟨known, hknown, hrequest⟩, hfile, _⟩ :=
            h.executions execution (List.mem_of_getElem? hget)
          obtain ⟨_, file, hstored, hsame⟩ := h.stored _ known hknown
          obtain ⟨hjob, hnext⟩ := @Execution.setStage_spec _ _ .written hpoint
          have hset : view.inst.setStage .written (.execution index) =
              view.inst.setExecution index (execution.setStage .written) := by
            rw [Instance.setStage, hget]
          refine ⟨?_, hkeyed.insert execution.job, filesKept_insert fun old hold => ?_,
            fun other hother => Or.inl hother⟩
          · simp only [hset]
            refine h.landExecution hget hjob ?_
            rcases hnext with ⟨hold, hnew⟩ | ⟨hold, hnew⟩
            · exact Or.inl ⟨⟨_, hold⟩, hnew⟩
            · exact Or.inr ⟨⟨_, hold⟩, hnew⟩
          · change view.files.get? execution.id = some old at hold
            have hopen := hfile old hold
            rw [if_neg (by rcases hpoint with h | h <;> simp [h])] at hopen
            rw [hstored, Option.some.injEq] at hold
            exact ⟨hold ▸ hsame.trans hrequest, hopen⟩
  · exact .refl hkeyed h

/-- Every event but a start keeps the jobs of the instance, the files and the
acknowledgements in order. -/
theorem apply_advances {event : Event} (hevent : event ≠ .start) :
    Advances view (view.apply options self event) := by
  cases event with
  | start => exact absurd rfl hevent
  | load index => exact load_advances hkeyed h index
  | loadError index => exact loadError_advances hkeyed h index
  | opened index now => exact opened_advances hkeyed h index now
  | submit request registered now => exact submit_advances hkeyed h request registered now
  | save thread now => exact save_advances hkeyed h thread now
  | land thread now => exact land_advances hkeyed h thread now
  | saved thread now => exact saved_advances hkeyed h thread now
  | ioError thread now => exact ioError_advances hkeyed h thread now
  | storageFailure => exact .of_inst hkeyed rfl rfl (h.degrade _)
  | phase index phase now => exact phase_advances hkeyed h index phase now
  | ran index outcome now => exact ran_advances hkeyed h index outcome now
  | loseLock => exact .of_inst hkeyed rfl rfl h
  | noticeLoss =>
      rw [View.apply, View.noticeLoss]
      split_ifs
      · exact .of_inst hkeyed rfl rfl (h.degrade _)
      · exact .refl hkeyed h
  | close => exact .of_inst hkeyed rfl rfl h.close
  | closed =>
      rw [View.apply, View.closed]
      split_ifs
      · exact .of_inst hkeyed rfl rfl h.closed
      · exact .refl hkeyed h
  | crash => exact .of_inst hkeyed rfl rfl (Sound.of_fresh _)

end Events

section Submissions

variable {options : Options} {self : Nat} {view : View} {inst : Instance} {now : String}

theorem pumpFrom_frame (fuel : Nat) :
    (Instance.pumpFrom options now fuel inst).submission = inst.submission ∧
      (Instance.pumpFrom options now fuel inst).failure = inst.failure := by
  induction fuel generalizing inst with
  | zero => exact ⟨rfl, rfl⟩
  | succ fuel ih =>
      rw [Instance.pumpFrom]
      cases hlaunch : inst.launch options now with
      | none => exact ⟨rfl, rfl⟩
      | some next =>
          obtain ⟨_, _, _, _, _, _, rfl⟩ := Sound.launch_cases hlaunch
          exact ih

@[simp] theorem pump_submission : (inst.pump options now).submission = inst.submission :=
  (pumpFrom_frame _).1

@[simp] theorem pump_failure : (inst.pump options now).failure = inst.failure :=
  (pumpFrom_frame _).2

@[simp] theorem finish_submission (index : Nat) (execution : Execution) :
    (inst.finish options index execution now).submission = inst.submission := pump_submission

@[simp] theorem ran_submission (index : Nat) (execution : Execution)
    (outcome : Except EngineError Ran) :
    (inst.ran options index execution outcome now).submission = inst.submission := by
  cases outcome with
  | error error => rfl
  | ok ran =>
      rw [Instance.ran]
      split_ifs <;> rfl

theorem setStage_submission (stage : Stage) (thread : Thread) :
    (inst.setStage stage thread).submission.map Save.job = inst.submission.map Save.job := by
  cases thread with
  | loader index =>
      rw [Instance.setStage]
      cases inst.loaders[index]? <;> rfl
  | submission =>
      rw [Instance.setStage]
      cases inst.submission <;> rfl
  | execution index =>
      rw [Instance.setStage]
      cases inst.running[index]? <;> rfl

/-- The requests that were acknowledged stay the same, and so does the job of the submission
unless it ends. -/
def KeepsSubmission (before after : View) : Prop :=
  after.acknowledged = before.acknowledged ∧ (after.inst.submission = none ∨
    after.inst.submission.map Save.job = before.inst.submission.map Save.job)

theorem KeepsSubmission.of_eq {next : View} (hacknowledged : next.acknowledged = view.acknowledged)
    (hsubmission : next.inst.submission = view.inst.submission) : KeepsSubmission view next :=
  ⟨hacknowledged, Or.inr (by rw [hsubmission])⟩

theorem saveFailed_keeps (failure : Failure) (thread : Thread) :
    KeepsSubmission view (view.saveFailed options self failure thread now) := by
  cases thread with
  | loader index => exact .of_eq rfl rfl
  | submission => exact ⟨rfl, Or.inl rfl⟩
  | execution index =>
      rw [View.saveFailed]
      split
      · exact .of_eq rfl rfl
      · split
        · exact .of_eq rfl rfl
        · exact .of_eq rfl (finish_submission _ _)
        · exact .of_eq rfl rfl

/-- What an event does to the submission: it stays, or it ends, or one begins for a job that
the instance does not know. -/
inductive SubmissionMoves (before after : View) : Prop where
  | kept (h : KeepsSubmission before after)
  | ended (h : after.inst.submission = none)
  | begun (hacknowledged : after.acknowledged = before.acknowledged)
      (hok : before.inst.ok = true) (hnone : before.inst.submission = none) {save : Save}
      (hsave : after.inst.submission = some save)
      (hunknown : before.inst.jobs.get? save.job.id = none)

theorem SubmissionMoves.of_eq {next : View}
    (hacknowledged : next.acknowledged = view.acknowledged)
    (hsubmission : next.inst.submission = view.inst.submission) : SubmissionMoves view next :=
  .kept (.of_eq hacknowledged hsubmission)

theorem load_moves (index : Nat) : SubmissionMoves view (view.load self index) := by
  rw [View.load]
  split
  · split
    · exact .of_eq rfl rfl
    · split
      · exact .of_eq rfl rfl
      · split_ifs <;> exact .of_eq rfl rfl
  · exact .of_eq rfl rfl

theorem submit_moves (request : Request) (registered : Bool) :
    SubmissionMoves view (view.submit options request registered now) := by
  rw [View.submit]
  split
  · exact .of_eq rfl rfl
  · rename_i hbusy
    simp only [Bool.or_eq_true, Bool.not_eq_true', not_or, Bool.not_eq_false] at hbusy
    have hnone : view.inst.submission = none := Option.not_isSome_iff_eq_none.mp hbusy.1
    split
    · split_ifs
      · exact .ended hnone
      · exact .of_eq rfl rfl
    · rename_i hunknown
      split
      · exact .of_eq rfl rfl
      · exact .begun rfl hbusy.2 hnone rfl hunknown

theorem saved_moves (thread : Thread) :
    SubmissionMoves view (view.saved options thread now) := by
  rw [View.saved]
  split
  · cases thread with
    | loader index =>
        cases hget : view.inst.loaders[index]? <;> simp only [hget] <;> exact .of_eq rfl rfl
    | submission => exact .ended pump_submission
    | execution index =>
        cases hget : view.inst.running[index]? with
        | none => simpa only [hget] using .of_eq rfl rfl
        | some execution =>
            simp only [hget]
            split
            · exact .of_eq rfl rfl
            · exact .of_eq rfl (finish_submission _ _)
            · exact .of_eq rfl rfl
  · exact .of_eq rfl rfl

theorem apply_moves (event : Event) : SubmissionMoves view (view.apply options self event) := by
  cases event with
  | start =>
      rw [View.apply, View.start]
      split_ifs <;> exact .of_eq rfl rfl
  | load index => exact load_moves index
  | loadError index =>
      rw [View.apply, View.loadError]
      split_ifs <;> exact .of_eq rfl rfl
  | opened index now =>
      rw [View.apply, View.opened]
      split
      · split_ifs
        · exact .of_eq rfl rfl
        · exact .of_eq rfl pump_submission
      · exact .of_eq rfl rfl
  | submit request registered now => exact submit_moves request registered
  | save thread now =>
      rw [View.apply, View.save]
      split
      · split_ifs
        · exact .kept (saveFailed_keeps _ thread)
        · exact .kept ⟨rfl, Or.inr (setStage_submission _ thread)⟩
      · exact .of_eq rfl rfl
  | land thread now =>
      rw [View.apply, View.land]
      split
      · split_ifs
        · exact .kept (saveFailed_keeps _ thread)
        · exact .kept ⟨rfl, Or.inr (setStage_submission _ thread)⟩
      · exact .of_eq rfl rfl
  | saved thread now => exact saved_moves thread
  | ioError thread now =>
      rw [View.apply, View.ioError]
      split
      · exact .kept (saveFailed_keeps _ thread)
      · exact .kept (saveFailed_keeps _ thread)
      · exact .of_eq rfl rfl
  | phase index phase now =>
      rw [View.apply, View.phase]
      split <;> exact .of_eq rfl rfl
  | ran index outcome now =>
      rw [View.apply, View.ran]
      split
      · exact .of_eq rfl (ran_submission _ _ _)
      · exact .of_eq rfl rfl
  | noticeLoss =>
      rw [View.apply, View.noticeLoss]
      split_ifs <;> exact .of_eq rfl rfl
  | closed =>
      rw [View.apply, View.closed]
      split_ifs <;> exact .of_eq rfl rfl
  | storageFailure => exact .of_eq rfl rfl
  | loseLock => exact .of_eq rfl rfl
  | close => exact .of_eq rfl rfl
  | crash => exact .ended rfl

end Submissions

section Idle

variable {options : Options} {self : Nat} {view : View}

theorem loaderSound_keys (files : Table String Job) :
    LoaderSound files .empty ⟨files.keys, none⟩ := by
  refine ⟨OrdMap.Sorted.nodup files.sorted, fun _ _ => rfl, ?_, fun save hsave => by cases hsave⟩
  intro id file hfile
  exact Or.inl ((Table.mem_keys files id).mpr ⟨file, hfile⟩)

/-- An instance that begins to start after everything it did has ended. -/
theorem start_sound (hidle : ¬ view.inst.Live) (hstarted : view.inst.started = false)
    (hstarting : view.inst.starting = false) :
    Sound view.files (view.start options self).inst := by
  simp only [Instance.Live, not_or, not_not] at hidle
  obtain ⟨_, hloaders, hrunning, hsubmission⟩ := hidle
  rw [View.start, if_neg (by simp [hstarting])]
  split_ifs
  · constructor <;> simp [View.withInst, Instance.pending, hrunning, hsubmission, hloaders]
  · constructor <;> simp [View.withInst, Instance.pending, hrunning, hsubmission, hloaders]
  · have hkeys := loaderSound_keys view.files
    constructor <;>
      simp [Instance.pending, hrunning, hsubmission, hloaders, hstarted, hkeys]

/-- A start fails while somebody holds the lock. -/
theorem start_locked (hidle : ¬ view.inst.Live) (hlock : view.lock.isSome = true)
    (hstarting : view.inst.starting = false) : ¬ (view.start options self).inst.Live := by
  simp only [Instance.Live, not_or, not_not] at hidle
  obtain ⟨_, hloaders, hrunning, hsubmission⟩ := hidle
  rw [View.start, if_neg (by simp [hstarting]), if_pos hlock]
  simp [View.withInst, Instance.Live, Instance.ok, hloaders, hrunning, hsubmission]

theorem start_submission (hidle : ¬ view.inst.Live) :
    (view.start options self).inst.submission = none := by
  simp only [Instance.Live, not_or, not_not] at hidle
  obtain ⟨_, _, _, hsubmission⟩ := hidle
  rw [View.start]
  split_ifs <;> exact hsubmission

theorem start_frame : (view.start options self).files = view.files ∧
    (view.start options self).acknowledged = view.acknowledged := by
  rw [View.start]
  split_ifs <;> exact ⟨rfl, rfl⟩

theorem save?_idle (hidle : ¬ view.inst.Live) (thread : Thread) :
    view.inst.save? thread = none := by
  simp only [Instance.Live, not_or, not_not] at hidle
  obtain ⟨_, hloaders, hrunning, hsubmission⟩ := hidle
  cases thread <;> simp [Instance.save?, hloaders, hrunning, hsubmission]

theorem degrade_idle {inst : Instance} (hidle : ¬ inst.Live) (failure : Failure) :
    ¬ (inst.degrade failure).Live := by
  simp only [Instance.Live, not_or, not_not] at hidle ⊢
  obtain ⟨_, hloaders, hrunning, hsubmission⟩ := hidle
  refine ⟨?_, hloaders, hrunning, hsubmission⟩
  rw [Instance.ok, Instance.degrade]
  cases inst.failure <;> simp

/-- An instance without work of its own does nothing but start. -/
theorem apply_idle (hidle : ¬ view.inst.Live) {event : Event} (hevent : event ≠ .start) :
    ¬ (view.apply options self event).inst.Live ∧
      (view.apply options self event).files = view.files ∧
        (view.apply options self event).acknowledged = view.acknowledged := by
  have hsave := save?_idle hidle
  have hwork := hidle
  simp only [Instance.Live, not_or, not_not] at hwork
  obtain ⟨hok, hloaders, hrunning, hsubmission⟩ := hwork
  cases event with
  | start => exact absurd rfl hevent
  | load index => simp [View.apply, View.load, hloaders, hidle]
  | loadError index => simp [View.apply, View.loadError, hloaders, hidle]
  | opened index now => simp [View.apply, View.opened, hloaders, hidle]
  | submit request registered now => simp [View.apply, View.submit, hok, hidle]
  | save thread now => simp [View.apply, View.save, hsave, hidle]
  | land thread now => simp [View.apply, View.land, hsave, hidle]
  | saved thread now => simp [View.apply, View.saved, hsave, hidle]
  | ioError thread now => simp [View.apply, View.ioError, hsave, hidle]
  | storageFailure => exact ⟨degrade_idle hidle _, rfl, rfl⟩
  | phase index phase now => simp [View.apply, View.phase, hrunning, hidle]
  | ran index outcome now => simp [View.apply, View.ran, hrunning, hidle]
  | loseLock => simp [View.apply, hidle]
  | noticeLoss =>
      rw [View.apply, View.noticeLoss]
      split_ifs
      · exact ⟨degrade_idle hidle _, rfl, rfl⟩
      · exact ⟨hidle, rfl, rfl⟩
  | close =>
      simp [View.apply, View.withInst, Instance.Live, Instance.ok, hloaders, hrunning, hsubmission]
  | closed =>
      rw [View.apply, View.closed]
      split_ifs
      · simp [Instance.Live, Instance.ok, hloaders, hrunning, hsubmission]
      · exact ⟨hidle, rfl, rfl⟩
  | crash => simp [View.apply, Instance.fresh, Instance.Live, Instance.ok]

end Idle

end ChipTrace.CloudPlatform
