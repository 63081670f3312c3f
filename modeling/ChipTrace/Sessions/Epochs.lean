/-
The lifecycle state against the epochs: the counts of starts and terminals tell whether a
Session is open exactly until a boundary is lost or doubled.
-/
import ChipTrace.Sessions.Lifecycle
import Mathlib.Data.Int.Notation

namespace ChipTrace

section Words

theorem lastOf_concat (earlier : List Observed) (seen : Observed) :
    lastOf (earlier ++ [seen]) = seen.boundary := by
  simp [lastOf]

theorem breaks_append (previous : Boundary) (earlier later : List Observed) :
    breaks previous (earlier ++ later) =
      breaks previous earlier +
        breaks ((earlier.getLast?.map Observed.boundary).getD previous) later := by
  induction earlier generalizing previous with
  | nil => simp [breaks]
  | cons seen rest ih =>
      rw [List.cons_append, breaks, breaks, ih, Nat.add_assoc]
      cases rest with
      | nil => rfl
      | cons next more => simp [List.getLast?_cons]

theorem closesOpen_concat (earlier : List Observed) (seen : Observed) :
    ClosesOpen (earlier ++ [seen]) ↔ seen.boundary = .terminal ∧ lastOf earlier = .start := by
  constructor
  · rintro ⟨front, last, heq, hterminal, hopen⟩
    obtain ⟨rfl, hlast⟩ := List.append_inj' heq rfl
    obtain rfl := (List.cons.inj hlast).1
    exact ⟨hterminal, hopen⟩
  · rintro ⟨hterminal, hopen⟩
    exact ⟨earlier, seen, rfl, hterminal, hopen⟩

/-- Before every boundary a surplus of starts means that the last boundary is a start. -/
def Matched (level : Int) (previous : Boundary) : List Boundary → Prop
  | [] => True
  | boundary :: rest =>
      (0 < level ↔ previous = .start) ∧
        Matched (level + if boundary = .start then 1 else -1) boundary rest

theorem matched_start {level : Int} (hlevel : 2 ≤ level) (word : List Boundary) :
    Matched level .start word ↔ (word.dropWhile (· = .start)).length ≤ 1 := by
  induction word generalizing level with
  | nil => simp [Matched]
  | cons boundary rest ih =>
      have hopen : 0 < level ↔ Boundary.start = .start := by simp; omega
      cases boundary with
      | start =>
          have hmore := @ih (level + 1) (by omega)
          simp [Matched, hopen, hmore]
      | terminal =>
          rw [Matched]
          cases rest with
          | nil => simp [Matched, hopen]
          | cons next more =>
              have hstuck : ¬ (0 < level + -1 ↔ Boundary.terminal = .start) := by
                simp; omega
              have hnever : ¬ Matched (level + -1) .terminal (next :: more) := fun h => hstuck h.1
              simp [hopen, hnever]

theorem matched_terminal {level : Int} (hlevel : level < 0) (word : List Boundary) :
    Matched level .terminal word ↔ (word.dropWhile (· = .terminal)).length ≤ 1 := by
  induction word generalizing level with
  | nil => simp [Matched]
  | cons boundary rest ih =>
      have hclosed : 0 < level ↔ Boundary.terminal = .start := by simp; omega
      cases boundary with
      | terminal =>
          have hmore := @ih (level + -1) (by omega)
          simp [Matched, hclosed, hmore]
      | start =>
          rw [Matched]
          cases rest with
          | nil => simp [Matched, hclosed]
          | cons next more =>
              have hstuck : ¬ (0 < level + 1 ↔ Boundary.start = .start) := by
                simp; omega
              have hnever : ¬ Matched (level + 1) .start (next :: more) := fun h => hstuck h.1
              simp [hclosed, hnever]

/-- The counts match the epochs exactly in the words that settle. -/
theorem matched_iff_pairsOff (word : List Boundary) :
    Matched 0 .terminal word ↔ PairsOff word = true := by
  induction word using PairsOff.induct with
  | case1 rest ih =>
      rw [PairsOff, ← ih]
      simp [Matched]
  | case2 => simp [Matched, PairsOff]
  | case3 first rest hother =>
      rw [PairsOff, decide_eq_true_iff]
      · cases first with
        | terminal =>
            have hbelow := @matched_terminal (-1) (by decide) rest
            simp [Matched, hbelow]
        | start =>
            cases rest with
            | nil => simp [Matched]
            | cons second more =>
                cases second with
                | terminal => exact absurd rfl (hother more rfl)
                | start =>
                    have habove := @matched_start 2 (by decide) more
                    simp [Matched, habove]
      · exact hother

theorem breaks_concat (word : List Observed) (seen : Observed) :
    breaks .terminal (word ++ [seen]) =
      breaks .terminal word + if seen.boundary = lastOf word then 1 else 0 := by
  rw [breaks_append]
  rfl

end Words

section Runs

theorem observeAll_concat (state : LifecycleState) (word : List Observed) (seen : Observed) :
    observeAll state (word ++ [seen]) =
      (observeAll state word).observe seen.boundary seen.event seen.captureId true := by
  simp [observeAll, List.foldl_append]

/-- How many more starts than terminals the state has counted. -/
def LifecycleState.level (state : LifecycleState) : Int :=
  (state.startCount : Int) - state.terminalCount

theorem level_observe (state : LifecycleState) (boundary : Boundary) (event captureId : String) :
    (state.observe boundary event captureId true).level =
      state.level + if boundary = .start then 1 else -1 := by
  cases boundary with
  | start =>
      simp only [LifecycleState.observe, LifecycleState.level, if_true]
      push_cast
      omega
  | terminal =>
      have hne : ¬ Boundary.terminal = .start := nofun
      rw [if_neg hne, LifecycleState.observe]
      dsimp only
      split_ifs
      · simp only [LifecycleState.level]
        push_cast
        omega
      · simp only [LifecycleState.level]
        push_cast
        omega

/-- One boundary is judged right when the surplus of starts tells what is open. -/
theorem exact_observe {word : List Observed} {state : LifecycleState} (h : Exact word state)
    (seen : Observed) :
    Exact (word ++ [seen]) (state.observe seen.boundary seen.event seen.captureId true) ↔
      (0 < state.level ↔ lastOf word = .start) := by
  have hlevel : 0 < state.level ↔ state.terminalCount < state.startCount := by
    rw [LifecycleState.level]
    omega
  have hclosed := closesOpen_concat word seen
  have hbreaks := breaks_concat word seen
  rw [hlevel]
  obtain ⟨boundary, event, captureId⟩ := seen
  cases boundary with
  | start =>
      have hnever : ¬ ClosesOpen (word ++ [⟨.start, event, captureId⟩]) := by
        rw [hclosed]
        exact fun hboth => nomatch hboth.1
      have hcount : Exact (word ++ [⟨.start, event, captureId⟩])
          (state.observe .start event captureId true) ↔
            state.invalidBoundaryCount +
                (if state.terminalCount < state.startCount then 1 else 0) =
              breaks .terminal word + if Boundary.start = lastOf word then 1 else 0 := by
        constructor
        · intro hexact
          have hinvalid := hexact.invalid
          rw [hbreaks] at hinvalid
          simpa [LifecycleState.observe] using hinvalid
        · intro hinvalid
          constructor
          · simp [LifecycleState.observe, hnever]
          · rw [hbreaks]
            simpa [LifecycleState.observe] using hinvalid
      rw [hcount, h.invalid, Nat.add_left_cancel_iff, eq_comm (a := lastOf word)]
      split_ifs <;> simp_all
  | terminal =>
      by_cases hopen : state.terminalCount < state.startCount
      · have hpaired : ¬ state.startCount < state.terminalCount + 1 := by omega
        rw [iff_true_left hopen]
        constructor
        · intro hexact
          have hflag := hexact.closed
          rw [hclosed] at hflag
          exact (hflag.mp (by simp [LifecycleState.observe, hpaired])).2
        · intro hlast
          constructor
          · rw [hclosed]
            simp [LifecycleState.observe, hpaired, hlast]
          · rw [hbreaks, hlast]
            simp [LifecycleState.observe, hpaired, h.invalid]
      · have hstray : state.startCount < state.terminalCount + 1 := by omega
        rw [iff_false_left hopen]
        constructor
        · intro hexact hlast
          have hflag := hexact.closed.mpr ((hclosed).mpr ⟨rfl, hlast⟩)
          simp [LifecycleState.observe, hstray] at hflag
        · intro hlast
          have hsame : lastOf word = .terminal := by
            cases hkind : lastOf word with
            | start => exact absurd hkind hlast
            | terminal => rfl
          constructor
          · rw [hclosed]
            simp [LifecycleState.observe, hstray, hlast]
          · rw [hbreaks, hsame]
            simp [LifecycleState.observe, hstray, h.invalid]

/-- Every state of the run tells the latest epoch exactly in the words that match. -/
theorem exact_run (word later : List Observed) {state : LifecycleState} (h : Exact word state) :
    (∀ front back, later = front ++ back →
        Exact (word ++ front) (observeAll state front)) ↔
      Matched state.level (lastOf word) (later.map Observed.boundary) := by
  induction later generalizing word state with
  | nil =>
      constructor
      · intro _
        trivial
      · intro _ front back heq
        obtain ⟨rfl, rfl⟩ := List.append_eq_nil_iff.mp heq.symm
        simpa [observeAll] using h
  | cons seen rest ih =>
      rw [List.map_cons, Matched, ← exact_observe h seen,
        ← level_observe state seen.boundary seen.event seen.captureId]
      constructor
      · intro hall
        have hone : Exact (word ++ [seen])
            (state.observe seen.boundary seen.event seen.captureId true) :=
          hall [seen] rest rfl
        refine ⟨hone, ?_⟩
        have hrest := (ih (word ++ [seen]) hone).mp (by
          intro front back heq
          have hfront := hall (seen :: front) back (by rw [heq]; rfl)
          simpa [observeAll] using hfront)
        rwa [lastOf_concat] at hrest
      · rintro ⟨hone, hmatched⟩ front back heq
        cases front with
        | nil => simpa [observeAll] using h
        | cons first front =>
            obtain ⟨rfl, hrest⟩ := List.cons.inj heq
            have hlast : seen.boundary = lastOf (word ++ [seen]) := (lastOf_concat word seen).symm
            have hfront := (ih (word ++ [seen]) hone).mpr (hlast ▸ hmatched) front back hrest
            simpa [observeAll] using hfront

theorem matched_append (state : LifecycleState) (previous : Boundary)
    (earlier later : List Observed) :
    Matched state.level previous ((earlier ++ later).map Observed.boundary) ↔
      Matched state.level previous (earlier.map Observed.boundary) ∧
        Matched (observeAll state earlier).level
          ((earlier.getLast?.map Observed.boundary).getD previous)
          (later.map Observed.boundary) := by
  induction earlier generalizing state previous with
  | nil => simp [Matched, observeAll]
  | cons seen rest ih =>
      have hrest := ih (state.observe seen.boundary seen.event seen.captureId true) seen.boundary
      have hlast : (((seen :: rest).getLast?).map Observed.boundary).getD previous =
          (rest.getLast?.map Observed.boundary).getD seen.boundary := by
        cases rest with
        | nil => rfl
        | cons next more => simp [List.getLast?_cons]
      rw [level_observe] at hrest
      rw [List.cons_append, List.map_cons, List.map_cons, Matched, Matched, hlast, hrest,
        and_assoc]
      rfl

theorem exact_new (source : String) : Exact [] (.new source) := by
  constructor
  · constructor
    · nofun
    · rintro ⟨earlier, seen, heq, _⟩
      simp at heq
  · rfl

/-- Every state of the run is exact in the words that match. -/
theorem exact_prefixes_iff (source : String) (word : List Observed) :
    (∀ earlier later, word = earlier ++ later →
        Exact earlier (observeAll (.new source) earlier)) ↔
      Matched 0 .terminal (word.map Observed.boundary) := by
  have hrun := exact_run [] word (exact_new source)
  simpa [lastOf, LifecycleState.level, LifecycleState.new] using hrun

/-- After a boundary that repeats the one before it, a matched word has room for one more. -/
theorem matched_after_stray {source : String} {earlier : List Observed} {stray next : Observed}
    {later : List Observed} (hstray : stray.boundary = lastOf earlier)
    (hnext : next.boundary ≠ stray.boundary)
    (h : Matched 0 .terminal ((earlier ++ stray :: next :: later).map Observed.boundary)) :
    later = [] ∧ Matched 0 .terminal ((earlier ++ [next]).map Observed.boundary) := by
  have hlevel : (LifecycleState.new source).level = 0 := rfl
  rw [← hlevel, matched_append] at h ⊢
  obtain ⟨hearlier, hbefore, hafter, hlater⟩ := h
  refine ⟨?_, hearlier, ?_, trivial⟩
  · cases later with
    | nil => rfl
    | cons last more =>
        have hlast := hlater.1
        change (0 < _ ↔ lastOf earlier = .start) at hbefore
        rw [← hstray] at hbefore
        cases hkind : stray.boundary with
        | start =>
            have hother : next.boundary = .terminal := by
              cases hboundary : next.boundary with
              | start => exact absurd (hboundary.trans hkind.symm) hnext
              | terminal => rfl
            rw [hkind] at hbefore hlast
            rw [hother] at hlast
            simp at hbefore hlast
            omega
        | terminal =>
            have hother : next.boundary = .start := by
              cases hboundary : next.boundary with
              | terminal => exact absurd (hboundary.trans hkind.symm) hnext
              | start => rfl
            rw [hkind] at hbefore hlast
            rw [hother] at hlast
            simp at hbefore hlast
            omega
  · exact hbefore

/-- The state tells the latest epoch after every boundary, and a stray boundary leaves the
later, paired boundaries as they are judged without it, exactly in the words that settle. -/
theorem lifecycle_exact_iff (source : String) (word : List Observed) :
    ((∀ earlier later, word = earlier ++ later →
        Exact earlier (observeAll (.new source) earlier)) ∧
      ∀ earlier stray next later, word = earlier ++ stray :: next :: later →
        stray.boundary = lastOf earlier → breaks stray.boundary (next :: later) = 0 →
          (observeAll (.new source) word).latestEpochClosed =
              (observeAll (.new source) (earlier ++ next :: later)).latestEpochClosed ∧
            (observeAll (.new source) word).invalidBoundaryCount =
              (observeAll (.new source) (earlier ++ next :: later)).invalidBoundaryCount + 1) ↔
      PairsOff (word.map Observed.boundary) = true := by
  rw [← matched_iff_pairsOff, ← exact_prefixes_iff source]
  constructor
  · exact And.left
  · intro hexact
    refine ⟨hexact, ?_⟩
    rintro earlier stray next later rfl hstray hpaired
    have hnext : next.boundary ≠ stray.boundary := by
      intro heq
      rw [breaks, if_pos heq] at hpaired
      omega
    obtain ⟨rfl, hmatched⟩ := @matched_after_stray source _ _ _ _ hstray hnext
      ((exact_prefixes_iff source _).mp hexact)
    have hwith := hexact (earlier ++ [stray, next]) [] (by simp)
    have hwithout := (exact_prefixes_iff source _).mpr hmatched (earlier ++ [next]) []
      (by simp)
    have hsplit : earlier ++ [stray, next] = (earlier ++ [stray]) ++ [next] := by simp
    constructor
    · have hclosed : ClosesOpen (earlier ++ [stray, next]) ↔ ClosesOpen (earlier ++ [next]) := by
        rw [hsplit, closesOpen_concat, closesOpen_concat, lastOf_concat, hstray]
      rw [Bool.eq_iff_iff, hwith.closed, hwithout.closed, hclosed]
    · rw [hwith.invalid, hwithout.invalid, hsplit, breaks_concat, breaks_concat, breaks_concat,
        lastOf_concat, if_pos hstray, if_neg hnext, ← hstray, if_neg hnext]

/-- A stray terminal makes the next epoch invalid and leaves it open. -/
theorem not_lifecycle_exact :
    ¬ ∀ (source : String) (word earlier later : List Observed), word = earlier ++ later →
      Exact earlier (observeAll (.new source) earlier) := by
  intro h
  have hword := (exact_prefixes_iff "stock_codex_hook"
    [⟨.terminal, "session_end", "a"⟩, ⟨.start, "session_start", "b"⟩,
      ⟨.terminal, "session_end", "c"⟩]).mp (h _ _)
  rw [matched_iff_pairsOff] at hword
  revert hword
  decide

end Runs

end ChipTrace
