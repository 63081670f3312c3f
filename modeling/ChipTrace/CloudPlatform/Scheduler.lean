/-
The job scheduler of the platform: instances of the plugin over one directory of job
files, each with its jobs in memory, its queue and the executions it has begun.  A call of
`save` checks the size of the job, writes its file and goes on; everything else may happen
between these parts.
-/
import ChipTrace.CloudPlatform.Jobs

namespace ChipTrace.CloudPlatform

/-- The options of the plugin. Secrets of its environment are removed from error texts. -/
structure Options where
  concurrency : Nat
  maxQueuedJobs : Nat
  maxJobs : Nat
  maxTurnBytes : Nat
  redact : String → String

/-- Why an instance is degraded. The plugin gives the same code to I/O errors and to data
over one of its limits. -/
inductive Failure where
  | writerLock
  | ioError
  | limitExceeded
deriving DecidableEq

def Failure.code : Failure → String
  | .writerLock => "WRITER_LOCK"
  | .ioError | .limitExceeded => "STORAGE_FAILURE"

/-- How far a call of `save` is: before the check of the size, before the file is there,
and before the caller goes on. -/
inductive Stage where
  | called
  | writing
  | written
deriving DecidableEq

structure Save where
  job : Job
  stage : Stage
deriving DecidableEq

/-- Where an execution waits: in the save of a phase, for the engine, or in its last save. -/
inductive Point where
  | phase (stage : Stage)
  | working
  | final (stage : Stage)
deriving DecidableEq

/-- An execution and its own copy of the job. -/
structure Execution where
  job : Job
  point : Point
deriving DecidableEq

/-- A run of `start`: the files it has not read yet and the save it waits for. -/
structure Loader where
  names : List String
  saving : Option Save
deriving DecidableEq

structure Instance where
  starting : Bool
  started : Bool
  closing : Bool
  failure : Option Failure
  jobs : Table String Job
  queue : List String
  running : List Execution
  activeArchives : List Component
  loaders : List Loader
  submission : Option Save

/-- A new process. -/
def Instance.fresh : Instance :=
  ⟨false, false, false, none, .empty, [], [], [], [], none⟩

/-- The calls of `save` that an instance can wait for. -/
inductive Thread where
  | loader (index : Nat)
  | submission
  | execution (index : Nat)
deriving DecidableEq

def Job.id (job : Job) : String := job.request.id.text

def Execution.id (execution : Execution) : String := execution.job.id

def Execution.archive (execution : Execution) : Component := execution.job.request.archiveId

def Execution.save? (execution : Execution) : Option Save :=
  match execution.point with
  | .phase stage | .final stage => some ⟨execution.job, stage⟩
  | .working => none

def Execution.setStage (execution : Execution) (stage : Stage) : Execution :=
  match execution.point with
  | .phase _ => { execution with point := .phase stage }
  | .final _ => { execution with point := .final stage }
  | .working => execution

section Jobs

def newJob (request : Request) (now : String) : Job :=
  ⟨request, .queued, now, 0, Details.empty.set .phase (textValue "queued")⟩

/-- An unfinished job as `start` puts it back in the queue. -/
def Job.recovered (job : Job) : Job :=
  { job with
    status := .queued
    details := job.details.set .phase (textValue "recovered") }

def Job.inPhase (job : Job) (phase now : String) : Job :=
  { job with
    details := (job.details.set .phase (textValue phase)).set .updatedAt (textValue now) }

/-- What an execution begins with. -/
def Job.launched (job : Job) (now : String) : Job :=
  { job with status := .running, attempt := job.attempt + 1 }.inPhase "starting" now

/-- The turns that a result comes with: written by the engine, or inside its output, from
where they are copied into a file of limited size. -/
structure TurnEvidence where
  inline : Bool
  bytes : Nat
  descriptor : Value

/-- What the engine returned, without the turns. -/
structure Ran where
  result : Value
  artifacts : Option Value
  turns : Option TurnEvidence

structure EngineError where
  code : String
  message : String
  exitCode : Option Int
  signal : Option String

def optional (details : Details) (detail : Detail) : Option Value → Details
  | some value => details.set detail value
  | none => details

def Job.completed (job : Job) (ran : Ran) (now : String) : Job :=
  let details := job.details.set .result ran.result
  let details := optional details .artifacts ran.artifacts
  let details := optional details .turns (ran.turns.map (·.descriptor))
  { job with
    status := .completed
    details := ((details.set .phase (textValue "completed")).drop .error).set .updatedAt
      (textValue now) }

def errorValue (options : Options) (error : EngineError) : Value :=
  ⟨Json.mkObj [("code", .str error.code), ("message", .str (options.redact error.message)),
    ("exit_code", (error.exitCode.map Json.num).getD .null),
    ("signal", (error.signal.map Json.str).getD .null)], by
      apply Json.mkObj_wellFormed
      have hexit : ((error.exitCode.map Json.num).getD .null).WellFormed := by
        cases error.exitCode <;> trivial
      have hsignal : ((error.signal.map Json.str).getD .null).WellFormed := by
        cases error.signal <;> trivial
      have hstr : ∀ text, (Json.str text).WellFormed := fun _ => trivial
      simp [hexit, hsignal, hstr]⟩

/-- The job of an execution that failed, or was interrupted. -/
def Job.stopped (options : Options) (job : Job) (interrupted : Bool) (error : EngineError)
    (now : String) : Job :=
  let details := (job.details.set .phase
    (textValue (if interrupted then "interrupted" else "failed"))).drop .result
  let details := (details.drop .artifacts).drop .turns
  { job with
    status := if interrupted then .queued else .failed
    details := (details.set .error (errorValue options error)).set .updatedAt (textValue now) }

end Jobs

namespace Instance

variable (options : Options) (inst : Instance)

/-- `health().ok` -/
def ok : Bool := inst.started && !inst.closing && inst.failure.isNone

def degrade (failure : Failure) : Instance :=
  { inst with failure := inst.failure.or (some failure) }

/-- The error of `assertReady`. -/
def notReady : EngineError :=
  ⟨(inst.failure.map Failure.code).getD "SHUTDOWN",
    "platform is shutting down or storage is unavailable", none, none⟩

section Pump

def eligible (id : String) : Bool :=
  match inst.jobs.get? id with
  | some job => ! inst.activeArchives.contains job.request.archiveId
  | none => false

/-- Begin the execution of the first job of the queue whose archive is free. -/
def launch (now : String) : Option Instance :=
  if inst.closing || inst.failure.isSome || options.concurrency ≤ inst.running.length then none
  else
    match inst.queue.find? inst.eligible with
    | none => none
    | some id =>
        (inst.jobs.get? id).map fun job =>
          { inst with
            queue := inst.queue.erase id
            activeArchives := inst.activeArchives ++ [job.request.archiveId]
            running := inst.running ++ [⟨job.launched now, .phase .called⟩] }

def pumpFrom (now : String) : Nat → Instance → Instance
  | 0, inst => inst
  | fuel + 1, inst =>
      match inst.launch options now with
      | none => inst
      | some next => pumpFrom now fuel next

def pump (now : String) : Instance := pumpFrom options now inst.queue.length inst

end Pump

def setExecution (index : Nat) (execution : Execution) : Instance :=
  { inst with running := inst.running.set index execution }

/-- The end of an execution. -/
def finish (index : Nat) (execution : Execution) (now : String) : Instance :=
  { inst with
    running := inst.running.eraseIdx index
    activeArchives := inst.activeArchives.filter (· ≠ execution.archive) }.pump options now

/-- The `catch` of an execution. -/
def stop (index : Nat) (execution : Execution) (error : EngineError) (now : String) : Instance :=
  inst.setExecution index
    ⟨execution.job.stopped options (inst.closing || inst.failure.isSome) error now, .final .called⟩

def saveError : EngineError := ⟨"STORAGE_FAILURE", "job state persistence failed", none, none⟩

def turnError : EngineError := ⟨"STORAGE_FAILURE", "turn state persistence failed", none, none⟩

/-- The engine is done with the job of an execution. -/
def ran (index : Nat) (execution : Execution) (outcome : Except EngineError Ran) (now : String) :
    Instance :=
  match outcome with
  | .error error => inst.stop options index execution error now
  | .ok ran =>
      if ran.turns.any fun turns => turns.inline && options.maxTurnBytes < turns.bytes then
        (inst.degrade .limitExceeded).stop options index execution turnError now
      else if inst.ok then
        inst.setExecution index ⟨execution.job.completed ran now, .final .called⟩
      else inst.stop options index execution inst.notReady now

/-- The save that a thread waits for. -/
def save? : Thread → Option Save
  | .loader index => inst.loaders[index]?.bind Loader.saving
  | .submission => inst.submission
  | .execution index => inst.running[index]?.bind Execution.save?

def setLoader (index : Nat) (loader : Loader) : Instance :=
  { inst with loaders := inst.loaders.set index loader }

def setStage (stage : Stage) : Thread → Instance
  | .loader index =>
      match inst.loaders[index]? with
      | none => inst
      | some loader =>
          inst.setLoader index
            ⟨loader.names, loader.saving.map fun save => ⟨save.job, stage⟩⟩
  | .submission => { inst with submission := inst.submission.map fun save => ⟨save.job, stage⟩ }
  | .execution index =>
      match inst.running[index]? with
      | none => inst
      | some execution => inst.setExecution index (execution.setStage stage)

end Instance

/-- What an event of one instance can see and change. -/
structure View where
  files : Table String Job
  lock : Option Nat
  acknowledged : List Request
  inst : Instance

inductive Event where
  | start
  | load (index : Nat)
  | loadError (index : Nat)
  | opened (index : Nat) (now : String)
  | submit (request : Request) (registered : Bool) (now : String)
  | save (thread : Thread) (now : String)
  | land (thread : Thread) (now : String)
  | saved (thread : Thread) (now : String)
  | ioError (thread : Thread) (now : String)
  | storageFailure
  | phase (index : Nat) (phase now : String)
  | ran (index : Nat) (outcome : Except EngineError Ran) (now : String)
  | loseLock
  | noticeLoss
  | close
  | closed
  | crash

namespace View

variable (options : Options) (self : Nat) (view : View)

def withInst (inst : Instance) : View := { view with inst := inst }

def released : Option Nat := if view.lock = some self then none else view.lock

/-- A run of `start` fails. -/
def rejectStart (index : Nat) : View :=
  { view with
    lock := view.released self
    inst := { view.inst with
      starting := false
      started := false
      loaders := view.inst.loaders.eraseIdx index } }

def start : View :=
  if view.inst.starting then view
  else
    let inst := { view.inst with
      starting := true
      closing := false
      failure := none
      jobs := .empty
      queue := []
      activeArchives := [] }
    if view.lock.isSome then view.withInst { inst with starting := false, started := false }
    else if options.maxJobs < view.files.len then
      view.withInst { inst with starting := false, started := false }
    else
      { view with
        lock := some self
        inst := { inst with loaders := inst.loaders ++ [⟨view.files.keys, none⟩] } }

/-- The next file of a run of `start`. -/
def load (index : Nat) : View :=
  match view.inst.loaders[index]? with
  | some ⟨id :: names, none⟩ =>
      match view.files.get? id with
      | none => view.rejectStart self index
      | some file =>
          match loadJob (id ++ ".json") file.fileBytes with
          | .error _ => view.rejectStart self index
          | .ok job =>
              if job.status.isSettled then
                view.withInst ({ view.inst with
                  jobs := view.inst.jobs.insert id job }.setLoader index ⟨names, none⟩)
              else
                view.withInst (view.inst.setLoader index
                  ⟨names, some ⟨job.recovered, .called⟩⟩)
  | _ => view

def loadError (index : Nat) : View :=
  if index < view.inst.loaders.length then view.rejectStart self index else view

def opened (index : Nat) (now : String) : View :=
  match view.inst.loaders[index]? with
  | some ⟨[], none⟩ =>
      if view.inst.failure.isSome then view.rejectStart self index
      else
        view.withInst ({ view.inst with
          started := true
          loaders := view.inst.loaders.eraseIdx index }.pump options now)
  | _ => view

/-- The next submission, once the one before is done. -/
def submit (request : Request) (registered : Bool) (now : String) : View :=
  if view.inst.submission.isSome || !view.inst.ok then view
  else
    match view.inst.jobs.get? request.id.text with
    | some existing =>
        if existing.request = request then
          { view with acknowledged := view.acknowledged ++ [request] }
        else view
    | none =>
        if options.maxQueuedJobs ≤ view.inst.queue.length + view.inst.running.length ||
            options.maxJobs ≤ view.inst.jobs.len ||
            (request.target.kind == "export" && !registered) then view
        else view.withInst { view.inst with submission := some ⟨newJob request now, .called⟩ }

/-- A call of `save` fails. -/
def saveFailed (failure : Failure) (thread : Thread) (now : String) : View :=
  let inst := view.inst.degrade failure
  match thread with
  | .loader index => (view.withInst inst).rejectStart self index
  | .submission => view.withInst { inst with submission := none }
  | .execution index =>
      match inst.running[index]? with
      | none => view
      | some execution =>
          match execution.point with
          | .phase _ => view.withInst (inst.stop options index execution Instance.saveError now)
          | .final _ => view.withInst (inst.finish options index execution now)
          | .working => view

/-- The check of the size. -/
def save (thread : Thread) (now : String) : View :=
  match view.inst.save? thread with
  | some ⟨job, .called⟩ =>
      if maxJobBytes < job.text.length then
        view.saveFailed options self .limitExceeded thread now
      else view.withInst (view.inst.setStage .writing thread)
  | _ => view

/-- The file takes its name; a submission does not replace one. -/
def land (thread : Thread) (now : String) : View :=
  match view.inst.save? thread with
  | some ⟨job, .writing⟩ =>
      if thread = .submission ∧ (view.files.get? job.id).isSome then
        view.saveFailed options self .ioError thread now
      else
        { view with
          files := view.files.insert job.id job
          inst := view.inst.setStage .written thread }
  | _ => view

/-- The caller of `save` goes on. -/
def saved (thread : Thread) (now : String) : View :=
  match view.inst.save? thread with
  | some ⟨job, .written⟩ =>
      let jobs := view.inst.jobs.insert job.id job
      match thread with
      | .loader index =>
          match view.inst.loaders[index]? with
          | none => view
          | some loader =>
              view.withInst ({ view.inst with
                jobs := jobs
                queue := view.inst.queue ++ [job.id] }.setLoader index ⟨loader.names, none⟩)
      | .submission =>
          { view with
            acknowledged := view.acknowledged ++ [job.request]
            inst := { view.inst with
              jobs := jobs
              queue := view.inst.queue ++ [job.id]
              submission := none }.pump options now }
      | .execution index =>
          match view.inst.running[index]? with
          | none => view
          | some execution =>
              match execution.point with
              | .phase _ =>
                  view.withInst ({ view.inst with jobs := jobs }.setExecution index
                    ⟨execution.job, .working⟩)
              | .final _ =>
                  view.withInst ({ view.inst with jobs := jobs }.finish options index execution now)
              | .working => view
  | _ => view

/-- An I/O error before or after the file takes its name. -/
def ioError (thread : Thread) (now : String) : View :=
  match view.inst.save? thread with
  | some ⟨_, .writing⟩ | some ⟨_, .written⟩ => view.saveFailed options self .ioError thread now
  | _ => view

def phase (index : Nat) (phase now : String) : View :=
  match view.inst.running[index]? with
  | some ⟨job, .working⟩ =>
      view.withInst (view.inst.setExecution index ⟨job.inPhase phase now, .phase .called⟩)
  | _ => view

def ran (index : Nat) (outcome : Except EngineError Ran) (now : String) : View :=
  match view.inst.running[index]? with
  | some ⟨job, .working⟩ =>
      view.withInst (view.inst.ran options index ⟨job, .working⟩ outcome now)
  | _ => view

/-- The lock process was seen to end although nobody closed the instance. -/
def noticeLoss : View :=
  if view.inst.starting && !view.inst.closing && view.lock ≠ some self then
    view.withInst (view.inst.degrade .writerLock)
  else view

def closed : View :=
  if view.inst.closing && view.inst.submission.isNone && view.inst.running.isEmpty then
    { view with
      lock := view.released self
      inst := { view.inst with starting := false, started := false } }
  else view

def apply : Event → View
  | .start => view.start options self
  | .load index => view.load self index
  | .loadError index => view.loadError self index
  | .opened index now => view.opened options self index now
  | .submit request registered now => view.submit options request registered now
  | .save thread now => view.save options self thread now
  | .land thread now => view.land options self thread now
  | .saved thread now => view.saved options thread now
  | .ioError thread now => view.ioError options self thread now
  | .storageFailure => view.withInst (view.inst.degrade .ioError)
  | .phase index phase now => view.phase index phase now
  | .ran index outcome now => view.ran options index outcome now
  | .loseLock => { view with lock := view.released self }
  | .noticeLoss => view.noticeLoss self
  | .close => view.withInst { view.inst with closing := true }
  | .closed => view.closed self
  | .crash => { view with lock := view.released self, inst := .fresh }

end View

/-- The job files, who holds the writer lock, the requests that were acknowledged, and the
instances. -/
structure Platform where
  files : Table String Job
  lock : Option Nat
  acknowledged : List Request
  instances : Nat → Instance

namespace Platform

def initial : Platform := ⟨.empty, none, [], fun _ => .fresh⟩

def view (platform : Platform) (index : Nat) : View :=
  ⟨platform.files, platform.lock, platform.acknowledged, platform.instances index⟩

/-- An event of one of the instances. -/
def step (options : Options) (platform : Platform) (action : Nat × Event) : Platform :=
  let next := (platform.view action.1).apply options action.1 action.2
  ⟨next.files, next.lock, next.acknowledged, fun index =>
    if index = action.1 then next.inst else platform.instances index⟩

end Platform

end ChipTrace.CloudPlatform
