/-
The last steps of an assembly and of an interaction projection: the earlier output is removed, the
new one takes its place, and it is verified where it stands.
-/
import ChipTrace.Lib.Effects
import ChipTrace.Sessions.Assembly

namespace ChipTrace.Publication

section Steps

variable {Tree : Type}

/-- The output directory and the staged one beside it. -/
structure Disk (Tree : Type) where
  output : Option Tree := none
  staging : Option Tree := none

/-- Where the file system stops a publication; a removal that stops leaves some of the tree. -/
structure Faults (Tree : Type) where
  removal : Option (Tree → Option Tree) := none
  rename : Bool := false
  sync : Bool := false

def removeDirAll (faults : Faults Tree) : Eff (Disk Tree) String PUnit := do
  match faults.removal with
  | none => Eff.modify fun disk => { disk with output := none }
  | some left => do
      Eff.modify fun disk => { disk with output := disk.output.bind left }
      Eff.throw "remove output"

def rename (faults : Faults Tree) : Eff (Disk Tree) String PUnit :=
  if faults.rename then Eff.throw "rename staging"
  else Eff.modify fun disk => { output := disk.staging, staging := none }

def syncDirectory (faults : Faults Tree) : Eff (Disk Tree) String PUnit :=
  if faults.sync then Eff.throw "sync parent" else pure ⟨⟩

variable (verify : Tree → Except String PUnit)

def verifyOutput : Eff (Disk Tree) String PUnit := do
  let disk ← Eff.get
  match disk.output with
  | some tree => Eff.lift (verify tree)
  | none => Eff.throw "read manifest"

/-- The staged tree takes the place of the output. -/
def replaceOutput (faults : Faults Tree) : Eff (Disk Tree) String PUnit := do
  let disk ← Eff.get
  if disk.output.isSome then removeDirAll faults
  rename faults
  syncDirectory faults
  verifyOutput verify

/-- The tree is staged, and then published. -/
def publish (faults : Faults Tree) (tree : Tree) : Eff (Disk Tree) String PUnit := do
  Eff.modify fun disk => { disk with staging := some tree }
  replaceOutput verify faults

end Steps

section Commands

/-- What an assembly writes: its parts and the totals of its manifest. -/
structure AssemblyTree where
  selector : Assemble.Selector
  reading : Assemble.Reading
  results : List Assemble.PartitionResult

/-- The checks of an assembly before it looks at its output. -/
def checkAssembly (config : Assemble.AssembleConfig) : Except String PUnit := do
  if config.partitions = 0 then throw "partitions must be positive"
  let _ ← Assemble.selectorOf config
  let _ ← Assemble.buildTaskLinkIndex (config.lines.map Assemble.InputLine.value)
  pure ⟨⟩

def assemble (assembler : Assemble.Assembler) (verifyAssembly : AssemblyTree → Except String PUnit)
    (config : Assemble.AssembleConfig) (replace : Bool) (faults : Faults AssemblyTree) :
    Eff (Disk AssemblyTree) String PUnit := do
  Eff.lift (checkAssembly config)
  let disk ← Eff.get
  if disk.output.isSome && !replace then Eff.throw "assembly output already exists"
  else do
    let (selector, reading, results) ← Eff.lift (Assemble.assembleSessions assembler config)
    publish verifyAssembly faults ⟨selector, reading, results⟩

structure InteractionProjectConfig where
  inputs : List String
  taskSessionId : Option String := none
  sessionId : Option String := none
  replace : Bool := false

/-- The files of a projection, as a parameter: what is found below the inputs, and what is written
for it. -/
structure Projector (Tree : Type) where
  discover : List String → Except String PUnit
  project : InteractionProjectConfig → Except String Tree
  verifyInteractionArtifacts : Tree → Except String PUnit

/-- The checks of a projection before it looks at its output. -/
def checkProjection {Tree : Type} (projector : Projector Tree)
    (config : InteractionProjectConfig) : Except String PUnit := do
  if config.inputs = [] then throw "at least one Capture input is required"
  projector.discover config.inputs

/-- The files of a projection of one selection. -/
def stageProjection {Tree : Type} (projector : Projector Tree)
    (config : InteractionProjectConfig) : Except String Tree := do
  if config.taskSessionId.isSome && config.sessionId.isSome then
    throw "--task-session-id and --session-id cannot be used together"
  projector.project config

def projectInteractions {Tree : Type} (projector : Projector Tree)
    (config : InteractionProjectConfig) (faults : Faults Tree) :
    Eff (Disk Tree) String PUnit := do
  Eff.lift (checkProjection projector config)
  let disk ← Eff.get
  if disk.output.isSome && !config.replace then Eff.throw "interaction output already exists"
  else do
    let tree ← Eff.lift (stageProjection projector config)
    publish projector.verifyInteractionArtifacts faults tree

end Commands

section Outcomes

variable {Tree : Type} {verify : Tree → Except String PUnit} {faults : Faults Tree} {old tree : Tree}

/-- A failure leaves the earlier output as it was, and a success leaves one that is verified. -/
def LeavesOutput (verify : Tree → Except String PUnit) (old : Tree)
    (action : Eff (Disk Tree) String PUnit) : Prop :=
  Eff.Wp action (fun _ disk => ∃ tree, disk.output = some tree ∧ verify tree = .ok ⟨⟩)
    (fun _ disk => disk.output = some old) { output := some old }

/-- The publication stops before it removes anything, or goes on to its end; or the tree is the
earlier one. -/
def Undisturbed (verify : Tree → Except String PUnit) (faults : Faults Tree) (old tree : Tree) :
    Prop :=
  match faults.removal with
  | some left => left old = some old
  | none => faults.rename = false ∧
      (tree = old ∨ faults.sync = false ∧ verify tree = .ok ⟨⟩)

/-- After the rename, only the verified tree or the earlier one may stand there. -/
theorem wp_published (verify : Tree → Except String PUnit) (faults : Faults Tree) (old tree : Tree) :
    Eff.Wp (do
        syncDirectory faults
        verifyOutput verify)
      (fun _ disk => ∃ tree, disk.output = some tree ∧ verify tree = .ok ⟨⟩)
      (fun _ disk => disk.output = some old) { output := some tree } ↔
    tree = old ∨ faults.sync = false ∧ verify tree = .ok ⟨⟩ := by
  rw [Eff.wp_bind, syncDirectory]
  cases faults.sync with
  | true => simp
  | false =>
      simp only [Bool.false_eq_true, ↓reduceIte, Eff.wp_pure, verifyOutput, Eff.wp_bind, Eff.wp_get,
        Eff.wp_lift]
      cases hverify : verify tree with
      | error message => simp
      | ok done => simp [hverify]

theorem leavesOutput_publish :
    LeavesOutput verify old (publish verify faults tree) ↔ Undisturbed verify faults old tree := by
  rw [LeavesOutput, publish, Undisturbed, Eff.wp_bind, Eff.wp_modify, replaceOutput, Eff.wp_bind,
    Eff.wp_get, Option.isSome_some, if_pos rfl]
  rw [Eff.wp_bind, removeDirAll]
  cases faults.removal with
  | some left => simp
  | none =>
      rw [Eff.wp_modify, Eff.wp_bind, rename]
      cases faults.rename with
      | true => simp
      | false =>
          simp only [Bool.false_eq_true, ↓reduceIte, Eff.wp_modify, true_and]
          exact wp_published verify faults old tree

/-- What only reads leaves the output as it was. -/
theorem leavesOutput_lift {α : Type} {value : Except String α}
    {next : α → Eff (Disk Tree) String PUnit} :
    LeavesOutput verify old (Eff.lift value >>= next) ↔
      ∀ a, value = .ok a → LeavesOutput verify old (next a) := by
  rw [LeavesOutput, Eff.wp_bind, Eff.wp_lift]
  exact and_iff_left fun _ _ => rfl

end Outcomes

section Results

/-- The tree that an assembly stages. -/
def assembledTree (assembler : Assemble.Assembler) (config : Assemble.AssembleConfig) :
    Except String AssemblyTree := do
  checkAssembly config
  let (selector, reading, results) ← Assemble.assembleSessions assembler config
  pure ⟨selector, reading, results⟩

/-- The tree that a projection stages. -/
def projectedTree {Tree : Type} (projector : Projector Tree) (config : InteractionProjectConfig) :
    Except String Tree := do
  checkProjection projector config
  stageProjection projector config

theorem leavesOutput_assemble (assembler : Assemble.Assembler)
    (verifyAssembly : AssemblyTree → Except String PUnit) (config : Assemble.AssembleConfig)
    (faults : Faults AssemblyTree) (old : AssemblyTree) :
    LeavesOutput verifyAssembly old (assemble assembler verifyAssembly config true faults) ↔
      ∀ tree, assembledTree assembler config = .ok tree →
        Undisturbed verifyAssembly faults old tree := by
  rw [assemble, leavesOutput_lift]
  constructor
  · intro h tree htree
    obtain ⟨_, hcheck, hrest⟩ := Except.bind_eq_ok_iff.mp htree
    obtain ⟨built, hbuilt, hpure⟩ := Except.bind_eq_ok_iff.mp hrest
    cases hpure
    have hnext := leavesOutput_lift.mp (h ⟨⟩ hcheck) built hbuilt
    exact leavesOutput_publish.mp hnext
  · intro h done hcheck
    refine leavesOutput_lift.mpr fun built hbuilt => leavesOutput_publish.mpr (h _ ?_)
    rw [assembledTree, hcheck, Except.ok_bind, hbuilt, Except.ok_bind]
    rfl

theorem leavesOutput_projection {Tree : Type} (projector : Projector Tree)
    (config : InteractionProjectConfig) (faults : Faults Tree) (old : Tree) :
    LeavesOutput projector.verifyInteractionArtifacts old
        (projectInteractions projector { config with replace := true } faults) ↔
      ∀ tree, projectedTree projector { config with replace := true } = .ok tree →
        Undisturbed projector.verifyInteractionArtifacts faults old tree := by
  rw [projectInteractions, leavesOutput_lift]
  constructor
  · intro h tree htree
    obtain ⟨_, hcheck, hstaged⟩ := Except.bind_eq_ok_iff.mp htree
    exact leavesOutput_publish.mp (leavesOutput_lift.mp (h ⟨⟩ hcheck) tree hstaged)
  · intro h done hcheck
    refine leavesOutput_lift.mpr fun tree htree => leavesOutput_publish.mpr (h tree ?_)
    rw [projectedTree, hcheck, Except.ok_bind]
    exact htree

end Results

end ChipTrace.Publication
