/-
Programs over one shared store.  A program sends one operation at a time and goes
on with the reply; it may also hand tasks to a pool that interleaves their
operations.  Any number of programs run over the store.  A program can be lost
between any two operations, and an operation that was sent may take effect without
its reply being seen, once or again later.
-/
import ChipTrace.Lib.Machine
import ChipTrace.Lib.Pairing
import Mathlib.Data.PNat.Basic

namespace Interleave

/-- The atomic operations of a store. -/
structure Service where
  Op : Type
  Reply : Op → Type
  Store : Type
  exec : (op : Op) → Store → Reply op × Store

variable {S : Service} {ε α β ρ : Type}

inductive Task (S : Service) (ε : Type) where
  | done
  | fail (error : ε)
  | call (op : S.Op) (next : S.Reply op → Task S ε)

/-- `fail` keeps the tasks that were dropped when the error stopped the pool. -/
inductive Program (S : Service) (ε α : Type) where
  | ret (value : α)
  | fail (error : ε) (dropped : List (Task S ε))
  | call (op : S.Op) (next : S.Reply op → Program S ε α)
  | pool (width : ℕ+) (tasks : List (Task S ε)) (next : Program S ε α)

/-- The operation a task has ready takes effect; its reply is not seen. -/
def Task.land : Task S ε → S.Store → S.Store
  | .call op _, store => (S.exec op store).2
  | _, store => store

namespace Program

def bind : Program S ε α → (α → Program S ε β) → Program S ε β
  | .ret value, f => f value
  | .fail error dropped, _ => .fail error dropped
  | .call op next, f => .call op fun reply => (next reply).bind f
  | .pool width tasks next, f => .pool width tasks (next.bind f)

def throw (error : ε) : Program S ε α := .fail error []

/-- A computation that touches no operation. -/
def ofExcept : Except ε α → Program S ε α
  | .ok value => .ret value
  | .error error => throw error

def op (op : S.Op) : Program S ε (S.Reply op) := .call op .ret

instance : Monad (Program S ε) where
  pure := .ret
  bind := bind

/-- The program has no operation left. -/
def Stopped : Program S ε α → Prop
  | .ret _ | .fail _ _ => True
  | _ => False

/-- One operation of the program, or of the task of its pool that the choice names. -/
def step (choice : Nat) : Program S ε α → S.Store → Program S ε α × S.Store
  | .call op next, store =>
      let (reply, after) := S.exec op store
      (next reply, after)
  | .pool _ [] next, store => (next, store)
  | .pool width (task :: tasks) next, store =>
      if (width : Nat) ≤ choice then (.pool width (task :: tasks) next, store)
      else
        match (task :: tasks)[choice]? with
        | none => (.pool width (task :: tasks) next, store)
        | some .done => (.pool width ((task :: tasks).eraseIdx choice) next, store)
        | some (.fail error) => (.fail error (task :: tasks), store)
        | some (.call op continue_) =>
            let (reply, after) := S.exec op store
            (.pool width ((task :: tasks).set choice (continue_ reply)) next, after)
  | program, store => (program, store)

/-- An operation in flight takes effect without the program seeing the reply. -/
def land (choice : Nat) : Program S ε α → S.Store → S.Store
  | .call op _, store => (S.exec op store).2
  | .pool _ tasks _, store | .fail _ tasks, store =>
      ((tasks[choice]?).map (·.land store)).getD store
  | .ret _, store => store

end Program

/-- A run of a program for a request. -/
structure Run (S : Service) (ε α ρ : Type) where
  request : ρ
  program : Program S ε α
  lost : Bool

structure System (S : Service) (ε α ρ : Type) where
  store : S.Store
  runs : Nat → Option (Run S ε α ρ)

/-- What may happen next: a new run, an operation of a run, an operation that takes
effect unseen, and the end of a run by a crash or an I/O error. -/
inductive Action (ρ : Type) where
  | start (run : Nat) (request : ρ)
  | step (run choice : Nat)
  | land (run choice : Nat)
  | lose (run : Nat)

namespace System

def setRun (system : System S ε α ρ) (run : Nat) (value : Run S ε α ρ) : System S ε α ρ :=
  { system with runs := fun other => if other = run then some value else system.runs other }

def apply (body : ρ → Program S ε α) (system : System S ε α ρ) :
    Action ρ → System S ε α ρ
  | .start run request =>
      match system.runs run with
      | none => system.setRun run ⟨request, body request, false⟩
      | some _ => system
  | .step run choice =>
      match system.runs run with
      | some ⟨request, program, false⟩ =>
          let (next, after) := program.step choice system.store
          { system with store := after }.setRun run ⟨request, next, false⟩
      | _ => system
  | .land run choice =>
      match system.runs run with
      | some value => { system with store := value.program.land choice system.store }
      | none => system
  | .lose run =>
      match system.runs run with
      | some value => system.setRun run { value with lost := true }
      | none => system

def initial (store : S.Store) : System S ε α ρ := ⟨store, fun _ => none⟩

end System

/-! Reasoning about one program at a time.  `I` is the invariant of the store and
`R` says how the store may grow, whoever is working on it. -/

section Lists

variable {A B : Type*} {P : A → B → Prop} {left : List A} {right : List B}

theorem forall₂_getElem? (h : List.Forall₂ P left right) {index : Nat} {a : A}
    (ha : left[index]? = some a) : ∃ b, right[index]? = some b ∧ P a b := by
  induction h generalizing index with
  | nil => simp at ha
  | @cons head other left right hhead _ ih =>
      cases index with
      | zero =>
          rw [List.getElem?_cons_zero, Option.some.injEq] at ha
          subst ha
          exact ⟨other, rfl, hhead⟩
      | succ index => exact ih ha

theorem forall₂_eraseIdx (h : List.Forall₂ P left right) (index : Nat) :
    List.Forall₂ P (left.eraseIdx index) (right.eraseIdx index) := by
  induction h generalizing index with
  | nil => exact List.Forall₂.nil
  | cons hhead htail ih =>
      cases index with
      | zero => exact htail
      | succ index => exact List.Forall₂.cons hhead (ih index)

theorem forall₂_set (h : List.Forall₂ P left right) {index : Nat} {a : A} {b : B}
    (hb : right[index]? = some b) (hab : P a b) :
    List.Forall₂ P (left.set index a) right := by
  induction h generalizing index with
  | nil => exact List.Forall₂.nil
  | @cons head other left right hhead htail ih =>
      cases index with
      | zero =>
          rw [List.getElem?_cons_zero, Option.some.injEq] at hb
          subst hb
          exact List.Forall₂.cons hab htail
      | succ index => exact List.Forall₂.cons hhead (ih hb)

theorem mem_eraseIdx_or {index : Nat} {a b : A} (ha : left[index]? = some a)
    (hb : b ∈ left) : b = a ∨ b ∈ left.eraseIdx index := by
  induction left generalizing index with
  | nil => cases hb
  | cons head left ih =>
      cases index with
      | zero =>
          rw [List.getElem?_cons_zero, Option.some.injEq] at ha
          subst ha
          exact List.mem_cons.mp hb
      | succ index =>
          rcases List.mem_cons.mp hb with rfl | hrest
          · exact Or.inr List.mem_cons_self
          · exact (ih ha hrest).imp_right (List.mem_cons_of_mem head)

end Lists

section Keeps

variable (I : S.Store → Prop) (R : S.Store → S.Store → Prop)

/-- Whatever the store has grown to, the task's operations keep the invariant; the goal
holds once the task is done, and an error is one that `bad` allows. -/
def Task.Keeps (bad : ε → S.Store → Prop) (goal : S.Store → Prop) :
    Task S ε → S.Store → Prop
  | .done, store => ∀ later, R store later → I later → goal later
  | .fail error, store => ∀ later, R store later → I later → bad error later
  | .call op next, store => ∀ later, R store later → I later →
      I (S.exec op later).2 ∧
        Task.Keeps bad goal (next (S.exec op later).1) (S.exec op later).2

/-- The operation the task has ready keeps the invariant. -/
def Task.LandsIn (task : Task S ε) (store : S.Store) : Prop :=
  ∀ later, R store later → I later → I (task.land later)

/-- The same for a program: `good` holds of the result. -/
def Program.Keeps (bad : ε → S.Store → Prop) (good : α → S.Store → Prop) :
    Program S ε α → S.Store → Prop
  | .ret value, store => ∀ later, R store later → I later → good value later
  | .fail error dropped, store =>
      (∀ later, R store later → I later → bad error later) ∧
        ∀ task ∈ dropped, task.LandsIn I R store
  | .call op next, store => ∀ later, R store later → I later →
      I (S.exec op later).2 ∧
        Program.Keeps bad good (next (S.exec op later).1) (S.exec op later).2
  | .pool _ tasks next, store =>
      ∃ goals : List (S.Store → Prop),
        List.Forall₂ (fun task goal => Task.Keeps I R bad goal task store) tasks goals ∧
          ∀ later, R store later → I later → (∀ goal ∈ goals, goal later) →
            Program.Keeps bad good next later

variable {I R}

/-- The ways in which a store grows: any number of operations, of anyone. -/
structure Growth (R : S.Store → S.Store → Prop) : Prop where
  refl : ∀ store, R store store
  trans : ∀ {first second third}, R first second → R second third → R first third
  exec : ∀ op store, R store (S.exec op store).2

variable (growth : Growth R) {bad : ε → S.Store → Prop}
include growth

theorem Task.Keeps.mono {goal : S.Store → Prop} {task : Task S ε} {store later : S.Store}
    (hgrown : R store later) (h : task.Keeps I R bad goal store) :
    task.Keeps I R bad goal later := by
  cases task with
  | done | fail | call =>
      intro third hthird
      exact h third (growth.trans hgrown hthird)

theorem Task.LandsIn.mono {task : Task S ε} {store later : S.Store} (hgrown : R store later)
    (h : task.LandsIn I R store) : task.LandsIn I R later :=
  fun third hthird => h third (growth.trans hgrown hthird)

theorem Task.Keeps.landsIn {goal : S.Store → Prop} {task : Task S ε} {store : S.Store}
    (h : task.Keeps I R bad goal store) : task.LandsIn I R store := by
  intro later hlater hinv
  cases task with
  | done | fail => exact hinv
  | call op next => exact (h later hlater hinv).1

theorem Task.land_grows (task : Task S ε) (store : S.Store) : R store (task.land store) := by
  cases task with
  | done | fail => exact growth.refl store
  | call op next => exact growth.exec op store

variable {good : α → S.Store → Prop}

theorem Program.Keeps.mono {program : Program S ε α} {store later : S.Store}
    (hgrown : R store later) (h : program.Keeps I R bad good store) :
    program.Keeps I R bad good later := by
  cases program with
  | ret | call =>
      intro third hthird
      exact h third (growth.trans hgrown hthird)
  | fail error dropped =>
      obtain ⟨hbad, hdropped⟩ := h
      refine ⟨fun third hthird => hbad third (growth.trans hgrown hthird), ?_⟩
      intro task htask
      exact (hdropped task htask).mono growth hgrown
  | pool width tasks next =>
      obtain ⟨goals, htasks, hnext⟩ := h
      refine ⟨goals, htasks.imp fun task goal hkeeps => hkeeps.mono growth hgrown, ?_⟩
      intro third hthird
      exact hnext third (growth.trans hgrown hthird)

/-! A pool after one operation of the task that the choice names. -/

theorem keeps_pool_done {width : ℕ+} {choice : Nat} {tasks : List (Task S ε)}
    {next : Program S ε α} {store : S.Store} (hdone : tasks[choice]? = some .done)
    (h : (Program.pool width tasks next).Keeps I R bad good store) :
    (Program.pool width (tasks.eraseIdx choice) next).Keeps I R bad good store := by
  obtain ⟨goals, htasks, hnext⟩ := h
  obtain ⟨goal, hgoal, hkeeps⟩ := forall₂_getElem? htasks hdone
  refine ⟨goals.eraseIdx choice, forall₂_eraseIdx htasks choice, ?_⟩
  intro later hlater hinv hgoals
  apply hnext later hlater hinv
  intro other hother
  rcases mem_eraseIdx_or hgoal hother with rfl | hrest
  · exact hkeeps later hlater hinv
  · exact hgoals other hrest

theorem keeps_pool_fail {width : ℕ+} {choice : Nat} {tasks : List (Task S ε)} {error : ε}
    {next : Program S ε α} {store : S.Store} (hfail : tasks[choice]? = some (.fail error))
    (h : (Program.pool width tasks next).Keeps I R bad good store) :
    (Program.fail error tasks : Program S ε α).Keeps I R bad good store := by
  obtain ⟨goals, htasks, _⟩ := h
  constructor
  · obtain ⟨goal, _, hkeeps⟩ := forall₂_getElem? htasks hfail
    exact hkeeps
  · intro task htask
    obtain ⟨goal, _, hkeeps⟩ := htasks.exists_right htask
    exact hkeeps.landsIn growth

theorem keeps_pool_call {width : ℕ+} {choice : Nat} {tasks : List (Task S ε)} {op : S.Op}
    {continue_ : S.Reply op → Task S ε} {next : Program S ε α} {store : S.Store}
    (hcall : tasks[choice]? = some (.call op continue_)) (hinv : I store)
    (h : (Program.pool width tasks next).Keeps I R bad good store) :
    I (S.exec op store).2 ∧
      (Program.pool width (tasks.set choice (continue_ (S.exec op store).1)) next).Keeps
        I R bad good (S.exec op store).2 := by
  obtain ⟨goals, htasks, hnext⟩ := h
  obtain ⟨goal, hgoal, hkeeps⟩ := forall₂_getElem? htasks hcall
  obtain ⟨hafter, hrest⟩ := hkeeps store (growth.refl store) hinv
  refine ⟨hafter, goals, forall₂_set ?_ hgoal hrest, ?_⟩
  · exact htasks.imp fun task goal hkeeps => hkeeps.mono growth (growth.exec op store)
  · intro later hlater hinvLater hgoals
    exact hnext later (growth.trans (growth.exec op store) hlater) hinvLater hgoals

/-- What one operation of a program does: the store keeps its invariant and has grown,
and the rest of the program keeps its promise. -/
theorem Program.Keeps.step {program : Program S ε α} {store : S.Store} (choice : Nat)
    (hinv : I store) (h : program.Keeps I R bad good store) :
    I (program.step choice store).2 ∧ R store (program.step choice store).2 ∧
      (program.step choice store).1.Keeps I R bad good (program.step choice store).2 := by
  cases program with
  | ret value => exact ⟨hinv, growth.refl store, h⟩
  | fail error dropped => exact ⟨hinv, growth.refl store, h⟩
  | call op next =>
      obtain ⟨hafter, hnext⟩ := h store (growth.refl store) hinv
      exact ⟨hafter, growth.exec op store, hnext⟩
  | pool width tasks next =>
      cases tasks with
      | nil =>
          obtain ⟨goals, htasks, hnext⟩ := h
          cases htasks
          exact ⟨hinv, growth.refl store, hnext store (growth.refl store) hinv (by simp)⟩
      | cons task tasks =>
          have hsame : I store ∧ R store store ∧
              (Program.pool width (task :: tasks) next).Keeps I R bad good store :=
            ⟨hinv, growth.refl store, h⟩
          simp only [Program.step]
          split
          · exact hsame
          split
          · exact hsame
          · rename_i hdone
            exact ⟨hinv, growth.refl store, keeps_pool_done growth hdone h⟩
          · rename_i error hfail
            exact ⟨hinv, growth.refl store, keeps_pool_fail growth hfail h⟩
          · rename_i op continue_ hcall
            obtain ⟨hafter, hkeeps⟩ := keeps_pool_call growth hcall hinv h
            exact ⟨hafter, growth.exec op store, hkeeps⟩

/-- An operation in flight of a program may take effect at any time. -/
theorem Program.Keeps.land {program : Program S ε α} {store : S.Store} (choice : Nat)
    (hinv : I store) (h : program.Keeps I R bad good store) :
    I (program.land choice store) ∧ R store (program.land choice store) := by
  have hlands : ∀ tasks : List (Task S ε), (∀ task ∈ tasks, task.LandsIn I R store) →
      I (((tasks[choice]?).map (·.land store)).getD store) ∧
        R store (((tasks[choice]?).map (·.land store)).getD store) := by
    intro tasks htasks
    cases hfound : tasks[choice]? with
    | none => exact ⟨hinv, growth.refl store⟩
    | some task =>
        have hmem : task ∈ tasks := List.mem_of_getElem? hfound
        exact ⟨htasks task hmem store (growth.refl store) hinv, task.land_grows growth store⟩
  cases program with
  | ret value => exact ⟨hinv, growth.refl store⟩
  | fail error dropped => exact hlands dropped h.2
  | call op next =>
      exact ⟨(h store (growth.refl store) hinv).1, growth.exec op store⟩
  | pool width tasks next =>
      obtain ⟨goals, htasks, _⟩ := h
      apply hlands
      intro task htask
      obtain ⟨goal, _, hkeeps⟩ := htasks.exists_right htask
      exact hkeeps.landsIn growth

/-- Sequencing: the second program starts wherever the first may have ended. -/
theorem Program.Keeps.bind {program : Program S ε α} {f : α → Program S ε β}
    {goodNext : β → S.Store → Prop} {store : S.Store} (hinv : I store)
    (h : program.Keeps I R bad good store)
    (hf : ∀ value later, R store later → I later → good value later →
      (f value).Keeps I R bad goodNext later) :
    (program >>= f).Keeps I R bad goodNext store := by
  change (program.bind f).Keeps I R bad goodNext store
  induction program generalizing store with
  | ret value =>
      have hgood := h store (growth.refl store) hinv
      exact hf value store (growth.refl store) hinv hgood
  | fail error dropped => exact h
  | call op next ih =>
      clear hinv
      intro later hlater hinv
      obtain ⟨hafter, hnext⟩ := h later hlater hinv
      refine ⟨hafter, ih _ hafter hnext ?_⟩
      intro value third hthird
      exact hf value third (growth.trans (growth.trans hlater (growth.exec op later)) hthird)
  | pool width tasks next ih =>
      obtain ⟨goals, htasks, hnext⟩ := h
      refine ⟨goals, htasks, ?_⟩
      clear hinv
      intro later hlater hinv hgoals
      apply ih hinv (hnext later hlater hinv hgoals)
      intro value third hthird
      exact hf value third (growth.trans hlater hthird)

omit growth in
theorem Program.Keeps.imp {weaker : α → S.Store → Prop} {program : Program S ε α}
    {store : S.Store} (hgood : ∀ value later, good value later → weaker value later)
    (h : program.Keeps I R bad good store) : program.Keeps I R bad weaker store := by
  induction program generalizing store with
  | ret value =>
      intro later hlater hinv
      exact hgood value later (h later hlater hinv)
  | fail error dropped => exact h
  | call op next ih =>
      intro later hlater hinv
      obtain ⟨hafter, hnext⟩ := h later hlater hinv
      exact ⟨hafter, ih _ hnext⟩
  | pool width tasks next ih =>
      obtain ⟨goals, htasks, hnext⟩ := h
      refine ⟨goals, htasks, ?_⟩
      intro later hlater hinv hgoals
      exact ih (hnext later hlater hinv hgoals)

/-- A fact that growth does not undo still holds at the end. -/
theorem Program.Keeps.frame {fact : S.Store → Prop} {program : Program S ε α}
    {store : S.Store} (hfact : ∀ later, R store later → I later → fact later)
    (h : program.Keeps I R bad good store) :
    program.Keeps I R bad (fun value later => good value later ∧ fact later) store := by
  induction program generalizing store with
  | ret value =>
      intro later hlater hinv
      exact ⟨h later hlater hinv, hfact later hlater hinv⟩
  | fail error dropped => exact h
  | call op next ih =>
      intro later hlater hinv
      obtain ⟨hafter, hnext⟩ := h later hlater hinv
      refine ⟨hafter, ih _ ?_ hnext⟩
      intro third hthird
      exact hfact third (growth.trans (growth.trans hlater (growth.exec op later)) hthird)
  | pool width tasks next ih =>
      obtain ⟨goals, htasks, hnext⟩ := h
      refine ⟨goals, htasks, ?_⟩
      intro later hlater hinv hgoals
      apply ih ?_ (hnext later hlater hinv hgoals)
      intro third hthird
      exact hfact third (growth.trans hlater hthird)

omit growth in
/-- A pool whose tasks are made from a list, each with a goal of its own. -/
theorem Program.Keeps.ofPool {A : Type} {items : List A} {task : A → Task S ε}
    (goal : A → S.Store → Prop) {width : ℕ+} {next : Program S ε α} {store : S.Store}
    (htasks : ∀ item ∈ items, (task item).Keeps I R bad (goal item) store)
    (hnext : ∀ later, R store later → I later → (∀ item ∈ items, goal item later) →
      next.Keeps I R bad good later) :
    (Program.pool width (items.map task) next).Keeps I R bad good store := by
  refine ⟨items.map goal, ?_, ?_⟩
  · rw [List.forall₂_map_left_iff, List.forall₂_map_right_iff, List.forall₂_same]
    exact htasks
  · intro later hlater hinv hgoals
    apply hnext later hlater hinv
    intro item hitem
    exact hgoals (goal item) (List.mem_map_of_mem hitem)

end Keeps

namespace Program

variable {R : S.Store → S.Store → Prop} (growth : Growth R)
include growth

theorem step_grows (program : Program S ε α) (choice : Nat) (store : S.Store) :
    R store (program.step choice store).2 := by
  cases program with
  | ret | fail => exact growth.refl store
  | call op next => exact growth.exec op store
  | pool width tasks next =>
      cases tasks with
      | nil => exact growth.refl store
      | cons task tasks =>
          simp only [step]
          split
          · exact growth.refl store
          split
          · exact growth.refl store
          · exact growth.refl store
          · exact growth.refl store
          · exact growth.exec _ store

theorem land_grows (program : Program S ε α) (choice : Nat) (store : S.Store) :
    R store (program.land choice store) := by
  have hlands : ∀ tasks : List (Task S ε),
      R store (((tasks[choice]?).map (·.land store)).getD store) := by
    intro tasks
    cases tasks[choice]? with
    | none => exact growth.refl store
    | some task => exact task.land_grows growth store
  cases program with
  | ret => exact growth.refl store
  | fail error dropped => exact hlands dropped
  | call op next => exact growth.exec op store
  | pool width tasks next => exact hlands tasks

end Program

namespace System

variable {body : ρ → Program S ε α} {I : S.Store → Prop} {R : S.Store → S.Store → Prop}
variable {bad : ρ → ε → S.Store → Prop} {good : ρ → α → S.Store → Prop}

theorem setRun_runs (system : System S ε α ρ) (run other : Nat) (value : Run S ε α ρ) :
    (system.setRun run value).runs other =
      if other = run then some value else system.runs other := rfl

theorem setRun_self (system : System S ε α ρ) (run : Nat) (value : Run S ε α ρ) :
    (system.setRun run value).runs run = some value := by
  simp [setRun_runs]

/-- Every action only lets the store grow. -/
theorem apply_grows (growth : Growth R) (system : System S ε α ρ) (action : Action ρ) :
    R system.store (apply body system action).store := by
  cases action with
  | start run request =>
      simp only [apply]
      split <;> exact growth.refl system.store
  | step run choice =>
      simp only [apply]
      split
      · rename_i request program _
        exact program.step_grows growth choice system.store
      · exact growth.refl system.store
  | land run choice =>
      simp only [apply]
      split
      · rename_i value _
        exact value.program.land_grows growth choice system.store
      · exact growth.refl system.store
  | lose run =>
      simp only [apply]
      split <;> exact growth.refl system.store

/-- The store keeps its invariant, every run was started on an allowed request, and
what is left of its program keeps its promise. -/
structure Sound (I : S.Store → Prop) (R : S.Store → S.Store → Prop)
    (bad : ρ → ε → S.Store → Prop) (good : ρ → α → S.Store → Prop) (allowed : ρ → Prop)
    (system : System S ε α ρ) : Prop where
  store : I system.store
  allowed : ∀ {n run}, system.runs n = some run → allowed run.request
  keeps : ∀ {n run}, system.runs n = some run →
    run.program.Keeps I R (bad run.request) (good run.request) system.store

/-- A run is replaced by one that keeps its promise in a store that has grown. -/
theorem Sound.setRun {allowed : ρ → Prop} {system : System S ε α ρ} (growth : Growth R)
    (h : Sound I R bad good allowed system) {later : S.Store}
    (hgrown : R system.store later) (hinv : I later) {n : Nat} {value : Run S ε α ρ}
    (hallowed : allowed value.request)
    (hkeeps : value.program.Keeps I R (bad value.request) (good value.request) later) :
    Sound I R bad good allowed ({ system with store := later }.setRun n value) := by
  refine ⟨hinv, ?_, ?_⟩
  · intro other run hrun
    rw [setRun_runs] at hrun
    split at hrun
    · cases hrun
      exact hallowed
    · exact h.allowed hrun
  · intro other run hrun
    rw [setRun_runs] at hrun
    split at hrun
    · cases hrun
      exact hkeeps
    · exact (h.keeps hrun).mono growth hgrown

/-- The requests that an action starts are allowed. -/
def Starts (allowed : ρ → Prop) : System S ε α ρ → Action ρ → Prop
  | _, .start _ request => allowed request
  | _, _ => True

theorem Sound.apply {allowed : ρ → Prop} (growth : Growth R)
    (hbody : ∀ request, allowed request → ∀ store, I store →
      (body request).Keeps I R (bad request) (good request) store)
    {system : System S ε α ρ} (h : Sound I R bad good allowed system) (action : Action ρ)
    (haction : Starts allowed system action) :
    Sound I R bad good allowed (System.apply body system action) := by
  cases action with
  | start run request =>
      simp only [System.apply]
      split
      · have hkeeps := hbody request haction system.store h.store
        exact h.setRun growth (growth.refl system.store) h.store haction hkeeps
      · exact h
  | step run choice =>
      simp only [System.apply]
      split
      · rename_i request program hrun
        obtain ⟨hinv, hgrown, hkeeps⟩ := (h.keeps hrun).step growth choice h.store
        have hallowed : allowed request := h.allowed hrun
        exact h.setRun growth hgrown hinv hallowed hkeeps
      · exact h
  | land run choice =>
      simp only [System.apply]
      split
      · rename_i value hrun
        obtain ⟨hinv, hgrown⟩ := (h.keeps hrun).land growth choice h.store
        refine ⟨hinv, fun hother => h.allowed hother, ?_⟩
        intro other found hother
        exact (h.keeps hother).mono growth hgrown
      · exact h
  | lose run =>
      simp only [System.apply]
      split
      · rename_i value hrun
        have hallowed : allowed value.request := h.allowed hrun
        have hkeeps := h.keeps hrun
        exact h.setRun growth (growth.refl system.store) h.store hallowed hkeeps
      · exact h

/-- What every program keeps on its own is kept in every run of the system. -/
theorem sound_run {allowed : ρ → Prop} (growth : Growth R)
    (hbody : ∀ request, allowed request → ∀ store, I store →
      (body request).Keeps I R (bad request) (good request) store)
    {store : S.Store} (hstore : I store) {trace : List (Action ρ)}
    (htrace : Machine.Along (System.apply body) (Starts allowed) (System.initial store) trace) :
    Sound I R bad good allowed
      (Machine.run (System.apply body) (System.initial store) trace) := by
  apply Machine.run_preserves_along
  · intro system action h haction
    exact h.apply growth hbody action haction
  · exact ⟨hstore, by simp [initial], by simp [initial]⟩
  · exact htrace

/-- Every trace only lets the store grow. -/
theorem run_grows (growth : Growth R) (system : System S ε α ρ) (trace : List (Action ρ)) :
    R system.store (Machine.run (apply body) system trace).store := by
  induction trace generalizing system with
  | nil => exact growth.refl system.store
  | cons action rest ih =>
      exact growth.trans (apply_grows growth system action) (ih (apply body system action))

/-- The promise of one run among others. -/
def RunKeeps (I : S.Store → Prop) (R : S.Store → S.Store → Prop) (n : Nat) (request : ρ)
    (ownBad : ε → S.Store → Prop) (ownGood : α → S.Store → Prop)
    (system : System S ε α ρ) : Prop :=
  ∃ run, system.runs n = some run ∧ run.request = request ∧
    run.program.Keeps I R ownBad ownGood system.store

variable {n : Nat} {request : ρ} {ownBad : ε → S.Store → Prop} {ownGood : α → S.Store → Prop}

theorem RunKeeps.apply (growth : Growth R) {system : System S ε α ρ} (hinv : I system.store)
    (h : RunKeeps I R n request ownBad ownGood system) (action : Action ρ) :
    RunKeeps I R n request ownBad ownGood (System.apply body system action) := by
  obtain ⟨run, hrun, hrequest, hkeeps⟩ := h
  have hother : ∀ (other : Nat) (value : Run S ε α ρ) (later : S.Store), other ≠ n →
      R system.store later →
      RunKeeps I R n request ownBad ownGood
        ({ system with store := later }.setRun other value) := by
    intro other value later hne hgrown
    refine ⟨run, ?_, hrequest, hkeeps.mono growth hgrown⟩
    rw [setRun_runs, if_neg hne.symm]
    exact hrun
  have hsame : RunKeeps I R n request ownBad ownGood system := ⟨run, hrun, hrequest, hkeeps⟩
  cases action with
  | start other newRequest =>
      simp only [System.apply]
      split
      · rename_i hfree
        have hne : other ≠ n := by
          rintro rfl
          rw [hrun] at hfree
          cases hfree
        exact hother other _ system.store hne (growth.refl system.store)
      · exact hsame
  | step other choice =>
      simp only [System.apply]
      split
      · rename_i otherRequest program hfound
        by_cases hne : other = n
        · subst hne
          rw [hrun, Option.some.injEq] at hfound
          subst hfound
          obtain ⟨_, _, hstepped⟩ := hkeeps.step growth choice hinv
          exact ⟨_, setRun_self _ _ _, hrequest, hstepped⟩
        · exact hother other _ _ hne (program.step_grows growth choice system.store)
      · exact hsame
  | land other choice =>
      simp only [System.apply]
      split
      · rename_i value _
        exact ⟨run, hrun, hrequest,
          hkeeps.mono growth (value.program.land_grows growth choice system.store)⟩
      · exact hsame
  | lose other =>
      simp only [System.apply]
      split
      · rename_i value hfound
        by_cases hne : other = n
        · subst hne
          rw [hrun, Option.some.injEq] at hfound
          subst hfound
          exact ⟨_, setRun_self _ _ _, hrequest, hkeeps⟩
        · exact hother other _ system.store hne (growth.refl system.store)
      · exact hsame

/-- A run keeps a promise of its own, made in the middle of a trace, to the end. -/
theorem Sound.runKeeps {allowed : ρ → Prop} (growth : Growth R)
    (hbody : ∀ request, allowed request → ∀ store, I store →
      (body request).Keeps I R (bad request) (good request) store)
    {system : System S ε α ρ} (h : Sound I R bad good allowed system)
    (hkeeps : RunKeeps I R n request ownBad ownGood system) {trace : List (Action ρ)}
    (htrace : Machine.Along (System.apply body) (Starts allowed) system trace) :
    RunKeeps I R n request ownBad ownGood (Machine.run (System.apply body) system trace) := by
  induction trace generalizing system with
  | nil => exact hkeeps
  | cons action rest ih =>
      exact ih (h.apply growth hbody action htrace.1) (hkeeps.apply growth h.store action)
        htrace.2

end System

/-! A program that has the store for itself. -/

def Task.eval : Task S ε → S.Store → Except ε S.Store
  | .done, store => .ok store
  | .fail error, _ => .error error
  | .call op next, store => (next (S.exec op store).1).eval (S.exec op store).2

def Program.eval : Program S ε α → S.Store → Except ε (α × S.Store)
  | .ret value, store => .ok (value, store)
  | .fail error _, _ => .error error
  | .call op next, store => (next (S.exec op store).1).eval (S.exec op store).2
  | .pool _ tasks next, store =>
      match tasks.foldlM (fun store task => task.eval store) store with
      | .error error => .error error
      | .ok store => next.eval store

theorem Program.eval_bind {program : Program S ε α} {f : α → Program S ε β} {store after : S.Store}
    {value : α} (h : program.eval store = .ok (value, after)) :
    (program >>= f).eval store = (f value).eval after := by
  change (program.bind f).eval store = _
  induction program generalizing store with
  | ret result =>
      cases h
      rfl
  | fail error dropped => cases h
  | call op next ih => exact ih _ h
  | pool width tasks next ih =>
      simp only [Program.eval, Program.bind] at h ⊢
      split at h
      · cases h
      · exact ih h

/-! A program that is left alone ends. -/

namespace Program

def stepAll : List Nat → Program S ε α → S.Store → Program S ε α × S.Store
  | [], program, store => (program, store)
  | choice :: choices, program, store =>
      stepAll choices (program.step choice store).1 (program.step choice store).2

theorem stops_pool {width : ℕ+} {next : Program S ε α}
    (hnext : ∀ store, ∃ choices, (stepAll choices next store).1.Stopped)
    (tasks : List (Task S ε)) (store : S.Store) :
    ∃ choices, (stepAll choices (.pool width tasks next) store).1.Stopped := by
  have hpos : ¬ (width : Nat) ≤ 0 := Nat.not_le.mpr width.pos
  induction tasks generalizing store with
  | nil =>
      obtain ⟨choices, hstopped⟩ := hnext store
      exact ⟨0 :: choices, hstopped⟩
  | cons task tasks ih =>
      induction task generalizing store with
      | done =>
          obtain ⟨choices, hstopped⟩ := ih store
          refine ⟨0 :: choices, ?_⟩
          simpa [stepAll, step, hpos] using hstopped
      | fail error => exact ⟨[0], by simp [stepAll, step, hpos, Stopped]⟩
      | call op continue_ ihTask =>
          obtain ⟨choices, hstopped⟩ := ihTask (S.exec op store).1 (S.exec op store).2
          refine ⟨0 :: choices, ?_⟩
          simpa [stepAll, step, hpos] using hstopped

theorem stops (program : Program S ε α) (store : S.Store) :
    ∃ choices, (stepAll choices program store).1.Stopped := by
  induction program generalizing store with
  | ret value => exact ⟨[], trivial⟩
  | fail error dropped => exact ⟨[], trivial⟩
  | call op next ih =>
      obtain ⟨choices, hstopped⟩ := ih (S.exec op store).1 (S.exec op store).2
      exact ⟨0 :: choices, hstopped⟩
  | pool width tasks next ih => exact stops_pool ih tasks store

end Program

namespace System

variable {body : ρ → Program S ε α}

theorem run_steps {system : System S ε α ρ} {n : Nat} {request : ρ}
    {program : Program S ε α} (hrun : system.runs n = some ⟨request, program, false⟩)
    (choices : List Nat) :
    (Machine.run (apply body) system (choices.map (Action.step n))).runs n =
      some ⟨request, (Program.stepAll choices program system.store).1, false⟩ := by
  induction choices generalizing system program with
  | nil => exact hrun
  | cons choice choices ih =>
      simp only [List.map_cons, Machine.run_cons, Program.stepAll]
      have hstep : (apply body system (.step n choice)).runs n =
          some ⟨request, (program.step choice system.store).1, false⟩ := by
        simp [apply, hrun, setRun_runs]
      have hstore : (apply body system (.step n choice)).store =
          (program.step choice system.store).2 := by
        simp [apply, hrun, setRun]
      rw [ih hstep, hstore]

/-- Left alone, a run that is not lost comes to its end. -/
theorem run_stops {system : System S ε α ρ} {n : Nat} {request : ρ}
    {program : Program S ε α} (hrun : system.runs n = some ⟨request, program, false⟩) :
    ∃ choices : List Nat, ∃ final : Program S ε α, final.Stopped ∧
      (Machine.run (apply body) system (choices.map (Action.step n))).runs n =
        some ⟨request, final, false⟩ := by
  obtain ⟨choices, hstopped⟩ := program.stops system.store
  exact ⟨choices, _, hstopped, run_steps hrun choices⟩

end System

end Interleave
