/-
Starts and ends in the order of their times: when they alternate, they are the starts and ends
of windows that follow each other.
-/
import Mathlib.Data.List.Sort
import Mathlib.Data.Prod.Lex
import Mathlib.Order.Lattice
import Mathlib.Data.Bool.Basic

universe u

/-- The start or the end of something at a time; at one time starts come first. -/
abbrev Mark (T : Type u) := T ×ₗ Bool

namespace Mark

variable {T : Type u}

def time (mark : Mark T) : T := (ofLex mark).1

def isEnd (mark : Mark T) : Bool := (ofLex mark).2

def start (time : T) : Mark T := toLex (time, false)

def finish (time : T) : Mark T := toLex (time, true)

end Mark

section Windows

variable {T : Type u}

/-- Starts at the even places, ends at the odd ones. -/
def alternates (marks : List (Mark T)) : Bool :=
  marks.zipIdx.all fun item => item.1.isEnd == (item.2 % 2 == 1)

def marksOf (window : T × T) : List (Mark T) := [.start window.1, .finish window.2]

theorem alternates_cons_cons (first second : Mark T) (rest : List (Mark T)) :
    alternates (first :: second :: rest) =
      (!first.isEnd && second.isEnd && alternates rest) := by
  have hrest : (rest.zipIdx 2).all (fun item => item.1.isEnd == (item.2 % 2 == 1)) =
      rest.zipIdx.all fun item => item.1.isEnd == (item.2 % 2 == 1) := by
    rw [List.zipIdx_eq_map_add, List.all_map]
    congr 1
    funext item
    simp
  rw [alternates, List.zipIdx_cons, List.zipIdx_cons, List.all_cons, List.all_cons, hrest,
    alternates]
  cases first.isEnd <;> cases second.isEnd <;> rfl

theorem time_start (time : T) : (Mark.start time).time = time := rfl

theorem time_finish (time : T) : (Mark.finish time).time = time := rfl

theorem isEnd_start (time : T) : (Mark.start time).isEnd = false := rfl

theorem isEnd_finish (time : T) : (Mark.finish time).isEnd = true := rfl

theorem map_time_starts (windows : List (T × T)) :
    ((windows.flatMap marksOf).filter fun mark => !mark.isEnd).map Mark.time =
      windows.map Prod.fst := by
  induction windows with
  | nil => rfl
  | cons window rest ih =>
      rw [List.flatMap_cons, List.filter_append, List.map_append, ih]
      rfl

theorem map_time_ends (windows : List (T × T)) :
    ((windows.flatMap marksOf).filter Mark.isEnd).map Mark.time = windows.map Prod.snd := by
  induction windows with
  | nil => rfl
  | cons window rest ih =>
      rw [List.flatMap_cons, List.filter_append, List.map_append, ih]
      rfl

/-- Starts and ends that are the marks of windows are the starts and the ends of the windows. -/
theorem perm_of_marks {starts ends : List T} {windows : List (T × T)}
    (hmarks : (starts.map Mark.start ++ ends.map Mark.finish).Perm (windows.flatMap marksOf)) :
    starts.Perm (windows.map Prod.fst) ∧ ends.Perm (windows.map Prod.snd) := by
  constructor
  · have htimes := (hmarks.filter fun mark => !mark.isEnd).map Mark.time
    rw [map_time_starts] at htimes
    simpa [List.filter_map, Function.comp_def, isEnd_start, isEnd_finish, time_start]
      using htimes
  · have htimes := (hmarks.filter Mark.isEnd).map Mark.time
    rw [map_time_ends] at htimes
    simpa [List.filter_map, Function.comp_def, isEnd_start, isEnd_finish, time_finish]
      using htimes

variable [LinearOrder T]

/-- Marks in order that alternate and are even in number are those of windows, each of which ends
before the next one starts. -/
theorem exists_windows {marks : List (Mark T)} (hsorted : marks.Pairwise (· ≤ ·))
    (halternates : alternates marks = true) {count : Nat} (hlength : marks.length = count * 2) :
    ∃ windows : List (T × T), windows.length = count ∧ marks = windows.flatMap marksOf ∧
      (∀ window ∈ windows, window.1 ≤ window.2) ∧
      windows.Pairwise fun earlier later => earlier.2 < later.1 := by
  induction count generalizing marks with
  | zero =>
      refine ⟨[], rfl, List.eq_nil_of_length_eq_zero (by omega), ?_, List.Pairwise.nil⟩
      exact fun window hwindow => absurd hwindow List.not_mem_nil
  | succ count ih =>
      match marks with
      | [] | [_] =>
          simp only [List.length_nil, List.length_singleton] at hlength
          omega
      | first :: second :: rest =>
          rw [alternates_cons_cons, Bool.and_eq_true, Bool.and_eq_true,
            Bool.not_eq_true'] at halternates
          obtain ⟨⟨hfirst, hsecond⟩, hrest⟩ := halternates
          have hpairs := List.pairwise_cons.mp hsorted
          have hmore := List.pairwise_cons.mp hpairs.2
          have hcount : rest.length = count * 2 := by
            simp only [List.length_cons] at hlength
            omega
          obtain ⟨windows, hwindows, rfl, hordered, hchain⟩ := ih hmore.2 hrest hcount
          have hstart : first = Mark.start first.time := by
            rw [Mark.start, Mark.time, ← hfirst]
            rfl
          have hfinish : second = Mark.finish second.time := by
            rw [Mark.finish, Mark.time, ← hsecond]
            rfl
          refine ⟨(first.time, second.time) :: windows, ?_, ?_, ?_, ?_⟩
          · rw [List.length_cons, hwindows]
          · rw [List.flatMap_cons, marksOf, ← hstart, ← hfinish]
            rfl
          · intro window hwindow
            rcases List.mem_cons.mp hwindow with rfl | hwindow
            · have hle := hpairs.1 second List.mem_cons_self
              exact Prod.Lex.monotone_fst first second hle
            · exact hordered window hwindow
          · refine List.pairwise_cons.mpr ⟨fun later hlater => ?_, hchain⟩
            have hmark : Mark.start later.1 ∈ windows.flatMap marksOf :=
              List.mem_flatMap.mpr ⟨later, hlater, List.mem_cons_self⟩
            have hle := hmore.1 (Mark.start later.1) hmark
            rw [hfinish, Mark.finish, Mark.start, Prod.Lex.le_iff] at hle
            rcases hle with hlt | ⟨_, hbool⟩
            · exact hlt
            · exact absurd (show true ≤ false from hbool) (by decide)

end Windows
