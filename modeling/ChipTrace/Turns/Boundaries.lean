/-
What the boundaries of compactions depend on: the captures of one Turn, in any order; and what a
complete summary and a marked capture say about them.
-/
import ChipTrace.Lib.Grouping
import ChipTrace.Turns.Compaction

namespace ChipTrace.Compaction

section Groups

variable {captures : List Json}

/-- The captures of a Turn. -/
def turnCaptures (captures : List Json) (session turn : String) : List Json :=
  captures.filter fun capture => turnOf capture == some (session, turn)

theorem valuesOf_turnOf (session turn : String) :
    valuesOf (toLex (session, turn)) (captures.filterMap fun capture =>
      (turnOf capture).map fun turn => (toLex turn, capture)) =
        turnCaptures captures session turn := by
  induction captures with
  | nil => rfl
  | cons capture rest ih =>
      rw [turnCaptures, List.filterMap_cons, List.filter_cons]
      cases hturn : turnOf capture with
      | none =>
          simp only [Option.map_none]
          rw [ih]
          rfl
      | some key =>
          simp only [Option.map_some]
          rw [valuesOf_cons, ih]
          simp only [EmbeddingLike.apply_eq_iff_eq, beq_iff_eq, Option.some.injEq]
          rfl

theorem mem_groupsOf {session turn : String} {group : List Json} :
    (toLex (session, turn), group) ∈ (groupsOf captures).entries ↔
      group = turnCaptures captures session turn ∧ group ≠ [] := by
  rw [groupsOf, Table.mem_pushAll_empty, valuesOf_turnOf]

theorem get?_groupsOf (session turn : String) :
    OrdMap.lookup (toLex (session, turn)) (groupsOf captures).entries =
      if turnCaptures captures session turn = [] then none
      else some (turnCaptures captures session turn) := by
  change (groupsOf captures).get? _ = _
  rw [groupsOf, Table.get?_pushAll_empty, valuesOf_turnOf]

end Groups

section Fold

variable {parseJson : String → Option Json} {parseRfc3339 : String → Option Int}

/-- The ids of the hooks that a Turn marks. -/
def marked (parseJson : String → Option Json) (parseRfc3339 : String → Option Int)
    (group : List Json) (session turn : String) : Option (String × String) :=
  (closedTurn parseJson parseRfc3339 (evidenceOf group) session turn).bind fun hooks =>
    (captureId hooks.1).bind fun start =>
      (captureId hooks.2).map fun terminal => (start, terminal)

theorem addGroup_eq (boundaries : CompactionBoundaries) (session turn : String)
    (group : List Json) :
    boundaries.addGroup parseJson parseRfc3339 (toLex (session, turn), group) =
      { starts := match marked parseJson parseRfc3339 group session turn with
          | some hooks => boundaries.starts.add hooks.1
          | none => boundaries.starts
        terminals := match marked parseJson parseRfc3339 group session turn with
          | some hooks => boundaries.terminals.add hooks.2
          | none => boundaries.terminals
        summaries := match summarize parseJson parseRfc3339 (evidenceOf group) session turn with
          | some summary => boundaries.summaries.insert (toLex (session, turn)) summary
          | none => boundaries.summaries } := by
  rw [CompactionBoundaries.addGroup]
  simp only [ofLex_toLex]
  cases hsummary : summarize parseJson parseRfc3339 (evidenceOf group) session turn with
  | none =>
      have hclosed : closedTurn parseJson parseRfc3339 (evidenceOf group) session turn = none := by
        rw [closedTurn, hsummary]
      rw [marked, hclosed]
      rfl
  | some summary =>
      simp only [CompactionBoundaries.mark]
      rw [← marked]
      cases marked parseJson parseRfc3339 group session turn with
      | none => rfl
      | some hooks => rfl

theorem mem_starts_addGroup {boundaries : CompactionBoundaries}
    {entry : (String ×ₗ String) × List Json} {id : String} :
    id ∈ (boundaries.addGroup parseJson parseRfc3339 entry).starts.keys ↔
      (∃ terminal, marked parseJson parseRfc3339 entry.2 (ofLex entry.1).1 (ofLex entry.1).2 =
        some (id, terminal)) ∨ id ∈ boundaries.starts.keys := by
  refine (congrArg (id ∈ ·.starts.keys) (addGroup_eq boundaries (ofLex entry.1).1
    (ofLex entry.1).2 entry.2)).to_iff.trans ?_
  cases marked parseJson parseRfc3339 entry.2 (ofLex entry.1).1 (ofLex entry.1).2 with
  | none => simp
  | some hooks =>
      obtain ⟨start, terminal⟩ := hooks
      simp [OrdSet.mem_keys_add, eq_comm]

theorem mem_terminals_addGroup {boundaries : CompactionBoundaries}
    {entry : (String ×ₗ String) × List Json} {id : String} :
    id ∈ (boundaries.addGroup parseJson parseRfc3339 entry).terminals.keys ↔
      (∃ start, marked parseJson parseRfc3339 entry.2 (ofLex entry.1).1 (ofLex entry.1).2 =
        some (start, id)) ∨ id ∈ boundaries.terminals.keys := by
  refine (congrArg (id ∈ ·.terminals.keys) (addGroup_eq boundaries (ofLex entry.1).1
    (ofLex entry.1).2 entry.2)).to_iff.trans ?_
  cases marked parseJson parseRfc3339 entry.2 (ofLex entry.1).1 (ofLex entry.1).2 with
  | none => simp
  | some hooks =>
      obtain ⟨start, terminal⟩ := hooks
      simp [OrdSet.mem_keys_add, eq_comm]

/-- The summary of a Turn is that of its entry. -/
theorem get?_summaries_foldl (entries : List ((String ×ₗ String) × List Json))
    (hnodup : (entries.map Prod.fst).Nodup) (boundaries : CompactionBoundaries)
    (session turn : String) :
    (entries.foldl (CompactionBoundaries.addGroup parseJson parseRfc3339)
        boundaries).summaries.get? (toLex (session, turn)) =
      ((OrdMap.lookup (toLex (session, turn)) entries).bind fun group =>
        summarize parseJson parseRfc3339 (evidenceOf group) session turn).or
          (boundaries.summaries.get? (toLex (session, turn))) := by
  induction entries generalizing boundaries with
  | nil => rfl
  | cons entry rest ih =>
      obtain ⟨key, group⟩ := entry
      rw [List.map_cons, List.nodup_cons] at hnodup
      rw [List.foldl_cons, ih hnodup.2, OrdMap.lookup]
      have hadded : boundaries.addGroup parseJson parseRfc3339 (key, group) = _ :=
        addGroup_eq boundaries (ofLex key).1 (ofLex key).2 group
      rw [hadded]
      by_cases hkey : toLex (session, turn) = key
      · subst hkey
        rw [OrdMap.lookup_eq_none_of_not_mem hnodup.1, if_pos rfl]
        simp only [ofLex_toLex, Option.bind_none, Option.none_or, Option.bind_some]
        cases summarize parseJson parseRfc3339 (evidenceOf group) session turn with
        | none => rfl
        | some summary => exact Table.get?_insert_self _ _ _
      · rw [if_neg hkey]
        congr 1
        simp only
        split
        · exact Table.get?_insert_of_ne _ hkey _
        · rfl

end Fold

section Turns

variable {parseJson : String → Option Json} {parseRfc3339 : String → Option Int}
variable {captures : List Json}

theorem mem_groups {entry : (String ×ₗ String) × List Json} :
    entry ∈ (groupsOf captures).entries ↔
      entry.2 = turnCaptures captures (ofLex entry.1).1 (ofLex entry.1).2 ∧ entry.2 ≠ [] :=
  mem_groupsOf

/-- A Turn without captures marks nothing. -/
theorem marked_nil (session turn : String) :
    marked parseJson parseRfc3339 [] session turn = none := rfl

theorem summarize_nil (session turn : String) :
    summarize parseJson parseRfc3339 (evidenceOf []) session turn = none := rfl

theorem mem_starts_fromCaptures {id : String} :
    id ∈ (fromCaptures parseJson parseRfc3339 captures).starts.keys ↔
      ∃ session turn terminal, marked parseJson parseRfc3339
        (turnCaptures captures session turn) session turn = some (id, terminal) := by
  have hfold := foldl_adds_iff
    (fun boundaries : CompactionBoundaries => id ∈ boundaries.starts.keys)
    (fun entry => ∃ terminal, marked parseJson parseRfc3339 entry.2 (ofLex entry.1).1
      (ofLex entry.1).2 = some (id, terminal)) (fun _ _ => mem_starts_addGroup)
    (groupsOf captures).entries {}
  rw [fromCaptures, hfold]
  constructor
  · rintro (⟨entry, hentry, terminal, hmarked⟩ | hempty)
    · rw [(mem_groups.mp hentry).1] at hmarked
      exact ⟨_, _, terminal, hmarked⟩
    · cases hempty
  · rintro ⟨session, turn, terminal, hmarked⟩
    refine Or.inl ⟨(toLex (session, turn), turnCaptures captures session turn), ?_, terminal,
      hmarked⟩
    refine mem_groupsOf.mpr ⟨rfl, fun hnil => ?_⟩
    rw [hnil, marked_nil] at hmarked
    cases hmarked

theorem mem_terminals_fromCaptures {id : String} :
    id ∈ (fromCaptures parseJson parseRfc3339 captures).terminals.keys ↔
      ∃ session turn start, marked parseJson parseRfc3339
        (turnCaptures captures session turn) session turn = some (start, id) := by
  have hfold := foldl_adds_iff
    (fun boundaries : CompactionBoundaries => id ∈ boundaries.terminals.keys)
    (fun entry => ∃ start, marked parseJson parseRfc3339 entry.2 (ofLex entry.1).1
      (ofLex entry.1).2 = some (start, id)) (fun _ _ => mem_terminals_addGroup)
    (groupsOf captures).entries {}
  rw [fromCaptures, hfold]
  constructor
  · rintro (⟨entry, hentry, start, hmarked⟩ | hempty)
    · rw [(mem_groups.mp hentry).1] at hmarked
      exact ⟨_, _, start, hmarked⟩
    · cases hempty
  · rintro ⟨session, turn, start, hmarked⟩
    refine Or.inl ⟨(toLex (session, turn), turnCaptures captures session turn), ?_, start,
      hmarked⟩
    refine mem_groupsOf.mpr ⟨rfl, fun hnil => ?_⟩
    rw [hnil, marked_nil] at hmarked
    cases hmarked

/-- The summary of a Turn is made of the captures of the Turn. -/
theorem summary_fromCaptures (session turn : String) :
    (fromCaptures parseJson parseRfc3339 captures).summary session turn =
      summarize parseJson parseRfc3339 (evidenceOf (turnCaptures captures session turn)) session
        turn := by
  rw [CompactionBoundaries.summary, fromCaptures,
    get?_summaries_foldl _ (groupsOf captures).sorted.nodup, get?_groupsOf]
  split_ifs with hnil
  · rw [hnil, summarize_nil]
    rfl
  · rw [Option.bind_some]
    exact Option.or_none

end Turns

section Order

variable {parseJson : String → Option Json} {parseRfc3339 : String → Option Int}
variable {captures reordered : List Json} {session turn : String}

theorem insertionSort_eq_of_perm {marks others : List (Mark Int)} (hperm : marks.Perm others) :
    marks.insertionSort (· ≤ ·) = others.insertionSort (· ≤ ·) := by
  have hsame := (List.perm_insertionSort (· ≤ ·) marks).trans
    (hperm.trans (List.perm_insertionSort (· ≤ ·) others).symm)
  exact hsame.eq_of_pairwise (fun _ _ _ _ hle hge => le_antisymm hle hge)
    (List.pairwise_insertionSort (· ≤ ·) marks) (List.pairwise_insertionSort (· ≤ ·) others)

theorem operationsOf_perm (parseJson : String → Option Json) (hperm : captures.Perm reordered) :
    (operationsOf parseJson (evidenceOf captures)).Perm
      (operationsOf parseJson (evidenceOf reordered)) :=
  ((hperm.filter _).filterMap _).dedup

theorem validHooks_perm (hperm : captures.Perm reordered) (trigger : String) (expected : Nat) :
    validHooks parseRfc3339 (evidenceOf captures) session turn trigger expected =
      validHooks parseRfc3339 (evidenceOf reordered) session turn trigger expected := by
  have hstarts : ((evidenceOf captures).starts.filter (triggeredBy trigger)).Perm
      ((evidenceOf reordered).starts.filter (triggeredBy trigger)) := (hperm.filter _).filter _
  have hterminals : ((evidenceOf captures).terminals.filter (triggeredBy trigger)).Perm
      ((evidenceOf reordered).terminals.filter (triggeredBy trigger)) := (hperm.filter _).filter _
  have hhooks := (hstarts.filterMap fun capture =>
      (occurredAt parseRfc3339 capture).map Mark.start).append
    (hterminals.filterMap fun capture => (occurredAt parseRfc3339 capture).map Mark.finish)
  simp only [validHooks]
  rw [hstarts.all_eq, hterminals.all_eq, hstarts.length_eq, hterminals.length_eq,
    hhooks.length_eq, insertionSort_eq_of_perm hhooks]

theorem countOf_perm {operations others : List Operation} (hperm : operations.Perm others)
    (trigger : String) : countOf operations trigger = countOf others trigger :=
  (hperm.filter _).length_eq

theorem validGroup_perm (hperm : captures.Perm reordered) :
    validGroup parseJson parseRfc3339 (evidenceOf captures) session turn =
      validGroup parseJson parseRfc3339 (evidenceOf reordered) session turn := by
  have hwire : (evidenceOf captures).wire.Perm (evidenceOf reordered).wire := hperm.filter _
  have hhooks : ((evidenceOf captures).starts ++ (evidenceOf captures).terminals).Perm
      ((evidenceOf reordered).starts ++ (evidenceOf reordered).terminals) :=
    (hperm.filter _).append (hperm.filter _)
  have hbusiness : (evidenceOf captures).businessTurn = (evidenceOf reordered).businessTurn :=
    hperm.any_eq
  have hoperations := operationsOf_perm parseJson hperm
  have hvalid : ∀ trigger, validHooks parseRfc3339 (evidenceOf captures) session turn trigger
      (countOf (operationsOf parseJson (evidenceOf captures)) trigger) =
        validHooks parseRfc3339 (evidenceOf reordered) session turn trigger
          (countOf (operationsOf parseJson (evidenceOf reordered)) trigger) := by
    intro trigger
    rw [validHooks_perm hperm, countOf_perm hoperations]
  simp only [validGroup, hvalid]
  rw [hwire.all_eq, hwire.all_eq, hhooks.all_eq, hbusiness, hoperations.any_eq,
    hoperations.length_eq]

/-- The summary of a Turn does not depend on the order of its captures. -/
theorem summarize_perm (hperm : captures.Perm reordered) :
    summarize parseJson parseRfc3339 (evidenceOf captures) session turn =
      summarize parseJson parseRfc3339 (evidenceOf reordered) session turn := by
  have hstarts : (evidenceOf captures).starts.Perm (evidenceOf reordered).starts :=
    hperm.filter _
  have hterminals : (evidenceOf captures).terminals.Perm (evidenceOf reordered).terminals :=
    hperm.filter _
  have hoperations := operationsOf_perm parseJson hperm
  simp only [summarize]
  rw [validGroup_perm hperm, hstarts.length_eq, hterminals.length_eq, hoperations.length_eq,
    hoperations.isEmpty_eq, hstarts.isEmpty_eq, hterminals.isEmpty_eq]

/-- What is asked of a Turn that is nothing but a manual compaction, and of its two hooks. -/
structure Closes (parseJson : String → Option Json) (parseRfc3339 : String → Option Int)
    (evidence : Evidence) (session turn : String) (start terminal : Json) : Prop where
  complete : ∃ summary, summarize parseJson parseRfc3339 evidence session turn = some summary ∧
    summary.complete = true
  noBusiness : evidence.businessTurn = false
  requests : evidence.wire ≠ []
  onlyStart : evidence.starts = [start]
  onlyTerminal : evidence.terminals = [terminal]
  validStart : validHook start "PreCompact" "started" session turn "manual" = true
  validTerminal : validHook terminal "PostCompact" "completed" session turn "manual" = true
  ordered : ∃ started finished, occurredAt parseRfc3339 start = some started ∧
    occurredAt parseRfc3339 terminal = some finished ∧ started ≤ finished
  closing : ∀ capture ∈ evidence.wire, closingWire parseJson session turn capture = true

theorem closedTurn_eq_some {evidence : Evidence} {start terminal : Json} :
    closedTurn parseJson parseRfc3339 evidence session turn = some (start, terminal) ↔
      Closes parseJson parseRfc3339 evidence session turn start terminal := by
  constructor
  · intro hclosed
    rw [closedTurn] at hclosed
    cases hsummary : summarize parseJson parseRfc3339 evidence session turn with
    | none =>
        rw [hsummary] at hclosed
        cases hclosed
    | some summary =>
        simp only [hsummary] at hclosed
        split at hclosed
        · cases hclosed
        · rename_i hevidence
          simp only [Bool.or_eq_true, Bool.not_eq_true', not_or, Bool.not_eq_false,
            List.isEmpty_iff, Bool.not_eq_true] at hevidence
          split at hclosed
          · rename_i first last hstarts hterminals
            split at hclosed
            · cases hclosed
            · rename_i hhooks
              simp only [Bool.or_eq_true, Bool.not_eq_true', not_or, Bool.not_eq_false] at hhooks
              split at hclosed
              · rename_i started finished hstarted hfinished
                split at hclosed
                · cases hclosed
                · rename_i hlast
                  simp only [Option.some.injEq, Prod.mk.injEq] at hclosed
                  simp only [Bool.or_eq_true, decide_eq_true_eq, Bool.not_eq_true', not_or,
                    Bool.not_eq_false, not_lt, List.all_eq_true] at hlast
                  obtain ⟨rfl, rfl⟩ := hclosed
                  exact ⟨⟨summary, hsummary, hevidence.1.1⟩, hevidence.1.2, hevidence.2, hstarts,
                    hterminals, hhooks.1, hhooks.2,
                    ⟨started, finished, hstarted, hfinished, hlast.1⟩, hlast.2⟩
              · cases hclosed
          · cases hclosed
  · rintro ⟨⟨summary, hsummary, hcomplete⟩, hbusiness, hrequests, hstart, hterminal, hvalidStart,
      hvalidTerminal, ⟨started, finished, hstarted, hfinished, hle⟩, hclosing⟩
    have hall : evidence.wire.all (closingWire parseJson session turn) = true :=
      List.all_eq_true.mpr hclosing
    have hwire : evidence.wire.isEmpty = false := by
      rw [List.isEmpty_eq_false_iff]
      exact hrequests
    simp [closedTurn, hsummary, hcomplete, hbusiness, hwire, hstart, hterminal, hvalidStart,
      hvalidTerminal, hstarted, hfinished, hall, not_lt.mpr hle]

theorem Closes.perm (hperm : captures.Perm reordered) {start terminal : Json}
    (hcloses : Closes parseJson parseRfc3339 (evidenceOf captures) session turn start terminal) :
    Closes parseJson parseRfc3339 (evidenceOf reordered) session turn start terminal where
  complete := by
    rw [← summarize_perm hperm]
    exact hcloses.complete
  noBusiness := hperm.any_eq.symm.trans hcloses.noBusiness
  requests := fun hnil => hcloses.requests ((hperm.filter isWire).trans
    (List.perm_nil.mpr hnil)).eq_nil
  onlyStart := by
    have honly := hperm.filter (hasEvent "compaction_start")
    have hstart : captures.filter (hasEvent "compaction_start") = [start] := hcloses.onlyStart
    rw [hstart] at honly
    exact List.singleton_perm.mp honly |>.symm
  onlyTerminal := by
    have honly := hperm.filter (hasEvent "compaction_end")
    rw [show captures.filter (hasEvent "compaction_end") = [terminal] from
      hcloses.onlyTerminal] at honly
    exact List.singleton_perm.mp honly |>.symm
  validStart := hcloses.validStart
  validTerminal := hcloses.validTerminal
  ordered := hcloses.ordered
  closing := fun capture hcapture =>
    hcloses.closing capture ((hperm.filter isWire).mem_iff.mpr hcapture)

/-- Neither do the hooks that a Turn marks. -/
theorem marked_perm (hperm : captures.Perm reordered) :
    marked parseJson parseRfc3339 captures session turn =
      marked parseJson parseRfc3339 reordered session turn := by
  have hclosed : closedTurn parseJson parseRfc3339 (evidenceOf captures) session turn =
      closedTurn parseJson parseRfc3339 (evidenceOf reordered) session turn := by
    apply Option.ext
    rintro ⟨start, terminal⟩
    rw [closedTurn_eq_some, closedTurn_eq_some]
    exact ⟨Closes.perm hperm, Closes.perm hperm.symm⟩
  rw [marked, marked, hclosed]

end Order

section Complete

variable {parseJson : String → Option Json} {parseRfc3339 : String → Option Int}
variable {captures : List Json} {session turn : String}

/-- The hooks of a kind that a trigger has among the captures of a Turn. -/
def hooksOf (type trigger : String) (captures : List Json) : List Json :=
  (captures.filter (hasEvent type)).filter (triggeredBy trigger)

/-- In the order of their times every start is followed by its end before the next start. -/
def Followed (parseRfc3339 : String → Option Int) (starts terminals : List Json) : Prop :=
  ∃ windows : List (Int × Int),
    (starts.map (occurredAt parseRfc3339)).Perm (windows.map fun window => some window.1) ∧
      (terminals.map (occurredAt parseRfc3339)).Perm (windows.map fun window => some window.2) ∧
      (∀ window ∈ windows, window.1 ≤ window.2) ∧
      windows.Pairwise fun earlier later => earlier.2 < later.1

theorem map_occurredAt {hooks : List Json}
    (htimes : ∀ capture ∈ hooks, (occurredAt parseRfc3339 capture).isSome = true) :
    hooks.map (occurredAt parseRfc3339) =
      (hooks.filterMap (occurredAt parseRfc3339)).map some := by
  induction hooks with
  | nil => rfl
  | cons hook rest ih =>
      obtain ⟨time, htime⟩ := Option.isSome_iff_exists.mp (htimes hook List.mem_cons_self)
      rw [List.map_cons, List.filterMap_cons, htime,
        ih fun capture hcapture => htimes capture (List.mem_cons_of_mem hook hcapture)]
      rfl

theorem filterMap_mark (mark : Int → Mark Int) (hooks : List Json) :
    (hooks.filterMap fun capture => (occurredAt parseRfc3339 capture).map mark) =
      (hooks.filterMap (occurredAt parseRfc3339)).map mark := by
  rw [List.map_filterMap]

/-- What the check of the hooks of a trigger says. -/
theorem validHooks_spec {trigger : String} {expected : Nat}
    (hvalid : validHooks parseRfc3339 (evidenceOf captures) session turn trigger expected = true) :
    (∀ hook ∈ hooksOf "compaction_start" trigger captures,
        validHook hook "PreCompact" "started" session turn trigger = true) ∧
      (∀ hook ∈ hooksOf "compaction_end" trigger captures,
        validHook hook "PostCompact" "completed" session turn trigger = true) ∧
      (hooksOf "compaction_start" trigger captures).length = expected ∧
      (hooksOf "compaction_end" trigger captures).length = expected ∧
      Followed parseRfc3339 (hooksOf "compaction_start" trigger captures)
        (hooksOf "compaction_end" trigger captures) := by
  have hstarts : (evidenceOf captures).starts.filter (triggeredBy trigger) =
      hooksOf "compaction_start" trigger captures := rfl
  have hterminals : (evidenceOf captures).terminals.filter (triggeredBy trigger) =
      hooksOf "compaction_end" trigger captures := rfl
  simp only [validHooks, hstarts, hterminals, filterMap_mark, Bool.and_eq_true,
    List.all_eq_true, decide_eq_true_eq] at hvalid
  obtain ⟨⟨⟨⟨⟨hstart, hstartCount⟩, hterminal⟩, hterminalCount⟩, hlength⟩, halternates⟩ := hvalid
  refine ⟨fun hook hhook => (hstart hook hhook).1, fun hook hhook => (hterminal hook hhook).1,
    hstartCount, hterminalCount, ?_⟩
  have hsort := List.perm_insertionSort (fun first second : Mark Int => first ≤ second)
    (((hooksOf "compaction_start" trigger captures).filterMap
      (occurredAt parseRfc3339)).map Mark.start ++
    ((hooksOf "compaction_end" trigger captures).filterMap
      (occurredAt parseRfc3339)).map Mark.finish)
  obtain ⟨windows, _, hmarks, hordered, hchain⟩ :=
    exists_windows (List.pairwise_insertionSort (fun first second : Mark Int => first ≤ second) _)
      halternates
      (hsort.length_eq.trans hlength)
  rw [hmarks] at hsort
  obtain ⟨hfirst, hlast⟩ := perm_of_marks hsort.symm
  refine ⟨windows, ?_, ?_, hordered, hchain⟩
  · rw [map_occurredAt fun hook hhook => (hstart hook hhook).2]
    simpa [Function.comp_def] using hfirst.map some
  · rw [map_occurredAt fun hook hhook => (hterminal hook hhook).2]
    simpa [Function.comp_def] using hlast.map some

/-- The compactions that the requests of a Turn are parts of. -/
def turnOperations (parseJson : String → Option Json) (captures : List Json) : List Operation :=
  ((captures.filter isWire).filterMap (operationOf parseJson)).dedup

/-- A Turn whose compactions are all there: at least one, and for each trigger as many hooks of
either kind as compactions, each start followed by its end. -/
structure Complete (parseJson : String → Option Json) (parseRfc3339 : String → Option Int)
    (captures : List Json) (session turn : String) : Prop where
  some : turnOperations parseJson captures ≠ []
  starts : ∀ trigger ∈ ["manual", "auto"],
    (hooksOf "compaction_start" trigger captures).length =
      countOf (turnOperations parseJson captures) trigger
  terminals : ∀ trigger ∈ ["manual", "auto"],
    (hooksOf "compaction_end" trigger captures).length =
      countOf (turnOperations parseJson captures) trigger
  followed : ∀ trigger ∈ ["manual", "auto"],
    Followed parseRfc3339 (hooksOf "compaction_start" trigger captures)
      (hooksOf "compaction_end" trigger captures)
  validStarts : ∀ trigger ∈ ["manual", "auto"],
    ∀ hook ∈ hooksOf "compaction_start" trigger captures,
      validHook hook "PreCompact" "started" session turn trigger = true
  validTerminals : ∀ trigger ∈ ["manual", "auto"],
    ∀ hook ∈ hooksOf "compaction_end" trigger captures,
      validHook hook "PostCompact" "completed" session turn trigger = true

theorem summarize_eq_some {summary : CompactionSummary}
    (hsummary : summarize parseJson parseRfc3339 (evidenceOf captures) session turn =
      some summary) :
    summary.operations = (turnOperations parseJson captures).length ∧
      summary.preHooks = (captures.filter (hasEvent "compaction_start")).length ∧
      summary.postHooks = (captures.filter (hasEvent "compaction_end")).length ∧
      summary.complete = (validGroup parseJson parseRfc3339 (evidenceOf captures) session turn &&
        !(turnOperations parseJson captures).isEmpty) := by
  simp only [summarize] at hsummary
  split at hsummary
  · cases hsummary
  · obtain rfl := Option.some.inj hsummary
    exact ⟨rfl, rfl, rfl, rfl⟩

/-- A summary says complete only of a Turn whose compactions are all there. -/
theorem complete_spec {summary : CompactionSummary}
    (hsummary : summarize parseJson parseRfc3339 (evidenceOf captures) session turn =
      some summary) (hcomplete : summary.complete = true) :
    Complete parseJson parseRfc3339 captures session turn := by
  rw [(summarize_eq_some hsummary).2.2.2, Bool.and_eq_true, Bool.not_eq_true',
    List.isEmpty_eq_false_iff] at hcomplete
  obtain ⟨hgroup, hsome⟩ := hcomplete
  simp only [validGroup, Bool.and_eq_true] at hgroup
  have hvalid := fun trigger htrigger =>
    validHooks_spec (List.all_eq_true.mp hgroup.1.2 trigger htrigger)
  exact {
    some := hsome
    validStarts := fun trigger htrigger => (hvalid trigger htrigger).1
    validTerminals := fun trigger htrigger => (hvalid trigger htrigger).2.1
    starts := fun trigger htrigger => (hvalid trigger htrigger).2.2.1
    terminals := fun trigger htrigger => (hvalid trigger htrigger).2.2.2.1
    followed := fun trigger htrigger => (hvalid trigger htrigger).2.2.2.2 }

end Complete

section Exact

variable {parseJson : String → Option Json} {parseRfc3339 : String → Option Int}
variable {captures : List Json}

/-- No two captures have the same id. -/
def DistinctIds (captures : List Json) : Prop := (captures.filterMap captureId).Nodup

instance (captures : List Json) : Decidable (DistinctIds captures) :=
  inferInstanceAs (Decidable (List.Nodup _))

/-- A Turn that is nothing but manual compactions. -/
structure Standalone (parseJson : String → Option Json) (captures : List Json) : Prop where
  noBusiness : ∀ capture ∈ captures, isBusiness capture = false
  requests : ∃ capture ∈ captures, isWire capture = true
  manual : ∀ capture ∈ captures, isWire capture = true → isManual parseJson capture = true

theorem isManual_of_closingWire {session turn : String} {capture : Json}
    (hclosing : closingWire parseJson session turn capture = true) :
    isManual parseJson capture = true := by
  rw [closingWire, Option.any_eq_true_iff_get] at hclosing
  obtain ⟨hmetadata, hfields⟩ := hclosing
  rw [isManual, Option.any_eq_true_iff_get]
  refine ⟨hmetadata, ?_⟩
  simp only [Bool.and_eq_true] at hfields ⊢
  exact ⟨⟨hfields.1.1.2, hfields.2⟩, hfields.1.2⟩

theorem Closes.standalone {group : List Json} {session turn : String} {start terminal : Json}
    (hcloses : Closes parseJson parseRfc3339 (evidenceOf group) session turn start terminal) :
    Standalone parseJson group where
  noBusiness := fun capture hcapture => by
    have hnone := List.any_eq_false.mp hcloses.noBusiness capture hcapture
    simpa only [Bool.not_eq_true] using hnone
  requests := by
    obtain ⟨capture, hcapture⟩ := List.exists_mem_of_ne_nil _ hcloses.requests
    have hwire := List.mem_filter.mp hcapture
    exact ⟨capture, hwire.1, hwire.2⟩
  manual := fun capture hcapture hwire =>
    isManual_of_closingWire (hcloses.closing capture (List.mem_filter.mpr ⟨hcapture, hwire⟩))

theorem Closes.start_mem {group : List Json} {session turn : String} {start terminal : Json}
    (hcloses : Closes parseJson parseRfc3339 (evidenceOf group) session turn start terminal) :
    start ∈ group := by
  have hstart : start ∈ (evidenceOf group).starts := by
    rw [hcloses.onlyStart]
    exact List.mem_singleton_self start
  exact List.mem_of_mem_filter hstart

theorem Closes.terminal_mem {group : List Json} {session turn : String} {start terminal : Json}
    (hcloses : Closes parseJson parseRfc3339 (evidenceOf group) session turn start terminal) :
    terminal ∈ group := by
  have hterminal : terminal ∈ (evidenceOf group).terminals := by
    rw [hcloses.onlyTerminal]
    exact List.mem_singleton_self terminal
  exact List.mem_of_mem_filter hterminal

theorem marked_eq_some {group : List Json} {session turn start terminal : String} :
    marked parseJson parseRfc3339 group session turn = some (start, terminal) ↔
      ∃ first last, Closes parseJson parseRfc3339 (evidenceOf group) session turn first last ∧
        captureId first = some start ∧ captureId last = some terminal := by
  simp only [marked, Option.bind_eq_some_iff, Option.map_eq_some_iff, Prod.exists,
    closedTurn_eq_some, Prod.mk.injEq]
  constructor
  · rintro ⟨first, last, hcloses, _, hfirst, _, hlast, rfl, rfl⟩
    exact ⟨first, last, hcloses, hfirst, hlast⟩
  · rintro ⟨first, last, hcloses, hfirst, hlast⟩
    exact ⟨first, last, hcloses, start, hfirst, terminal, hlast, rfl, rfl⟩

theorem eq_of_captureId (hids : DistinctIds captures) {first second : Json}
    (hfirst : first ∈ captures) (hsecond : second ∈ captures) {id : String}
    (hfirstId : captureId first = some id) (hsecondId : captureId second = some id) :
    first = second := by
  induction captures with
  | nil => cases hfirst
  | cons capture rest ih =>
      have hrest : DistinctIds rest := by
        refine List.Nodup.sublist ?_ hids
        exact (List.sublist_cons_self capture rest).filterMap captureId
      have hfresh : ∀ other ∈ rest, captureId capture = some id → captureId other ≠ some id := by
        intro other hother hcapture hid
        rw [DistinctIds, List.filterMap_cons, hcapture] at hids
        exact (List.nodup_cons.mp hids).1 (List.mem_filterMap.mpr ⟨other, hother, hid⟩)
      rcases List.mem_cons.mp hfirst with heq | hlater
      · subst heq
        rcases List.mem_cons.mp hsecond with heq | hlater
        · exact heq.symm
        · exact absurd hsecondId (hfresh second hlater hfirstId)
      · rcases List.mem_cons.mp hsecond with heq | hlast
        · subst heq
          exact absurd hfirstId (hfresh first hlater hsecondId)
        · exact ih hrest hlater hlast

theorem mem_turnCaptures {session turn : String} {capture : Json} :
    capture ∈ turnCaptures captures session turn ↔
      capture ∈ captures ∧ turnOf capture = some (session, turn) := by
  rw [turnCaptures, List.mem_filter, beq_iff_eq]

/-- A capture is marked as a start exactly when it is the first hook of a Turn that closes. -/
theorem isStart_iff (hids : DistinctIds captures) {capture : Json} (hcapture : capture ∈ captures) :
    (fromCaptures parseJson parseRfc3339 captures).isStart capture = true ↔
      ∃ session turn terminal, turnOf capture = some (session, turn) ∧
        Closes parseJson parseRfc3339 (evidenceOf (turnCaptures captures session turn)) session
          turn capture terminal ∧
        (captureId capture).isSome ∧ (captureId terminal).isSome := by
  rw [CompactionBoundaries.isStart, Option.any_eq_true]
  constructor
  · rintro ⟨id, hid, hmem⟩
    rw [Option.isSome_iff_exists, ← Table.mem_keys, mem_starts_fromCaptures] at hmem
    obtain ⟨session, turn, terminalId, hmarked⟩ := hmem
    obtain ⟨first, last, hcloses, hfirst, hlast⟩ := marked_eq_some.mp hmarked
    have hmember := mem_turnCaptures.mp hcloses.start_mem
    obtain rfl := eq_of_captureId hids hcapture hmember.1 hid hfirst
    exact ⟨session, turn, last, hmember.2, hcloses, by rw [hfirst]; rfl, by rw [hlast]; rfl⟩
  · rintro ⟨session, turn, terminal, _, hcloses, hstart, hterminal⟩
    obtain ⟨id, hid⟩ := Option.isSome_iff_exists.mp hstart
    obtain ⟨terminalId, hterminalId⟩ := Option.isSome_iff_exists.mp hterminal
    refine ⟨id, hid, ?_⟩
    rw [Option.isSome_iff_exists, ← Table.mem_keys, mem_starts_fromCaptures]
    exact ⟨session, turn, terminalId,
      marked_eq_some.mpr ⟨capture, terminal, hcloses, hid, hterminalId⟩⟩

/-- And as a terminal when it is the last hook of a Turn that closes. -/
theorem isTerminal_iff (hids : DistinctIds captures) {capture : Json}
    (hcapture : capture ∈ captures) :
    (fromCaptures parseJson parseRfc3339 captures).isTerminal capture = true ↔
      ∃ session turn start, turnOf capture = some (session, turn) ∧
        Closes parseJson parseRfc3339 (evidenceOf (turnCaptures captures session turn)) session
          turn start capture ∧
        (captureId start).isSome ∧ (captureId capture).isSome := by
  rw [CompactionBoundaries.isTerminal, Option.any_eq_true]
  constructor
  · rintro ⟨id, hid, hmem⟩
    rw [Option.isSome_iff_exists, ← Table.mem_keys, mem_terminals_fromCaptures] at hmem
    obtain ⟨session, turn, startId, hmarked⟩ := hmem
    obtain ⟨first, last, hcloses, hfirst, hlast⟩ := marked_eq_some.mp hmarked
    have hmember := mem_turnCaptures.mp hcloses.terminal_mem
    obtain rfl := eq_of_captureId hids hcapture hmember.1 hid hlast
    exact ⟨session, turn, first, hmember.2, hcloses, by rw [hfirst]; rfl, by rw [hlast]; rfl⟩
  · rintro ⟨session, turn, start, _, hcloses, hstart, hterminal⟩
    obtain ⟨id, hid⟩ := Option.isSome_iff_exists.mp hterminal
    obtain ⟨startId, hstartId⟩ := Option.isSome_iff_exists.mp hstart
    refine ⟨id, hid, ?_⟩
    rw [Option.isSome_iff_exists, ← Table.mem_keys, mem_terminals_fromCaptures]
    exact ⟨session, turn, startId,
      marked_eq_some.mpr ⟨start, capture, hcloses, hstartId, hid⟩⟩

/-- The marks of the captures of a Turn depend on the captures of that Turn only, in any order. -/
theorem isStart_of_perm {others : List Json} (hids : DistinctIds captures)
    (hothers : DistinctIds others) {session turn : String}
    (hperm : (turnCaptures captures session turn).Perm (turnCaptures others session turn))
    {capture : Json} (hcapture : capture ∈ turnCaptures captures session turn) :
    (fromCaptures parseJson parseRfc3339 captures).isStart capture =
      (fromCaptures parseJson parseRfc3339 others).isStart capture := by
  have hfirst := mem_turnCaptures.mp hcapture
  have hsecond := mem_turnCaptures.mp (hperm.mem_iff.mp hcapture)
  rw [Bool.eq_iff_iff, isStart_iff hids hfirst.1, isStart_iff hothers hsecond.1]
  constructor
  · rintro ⟨_, _, terminal, hturn, hcloses, hmarks⟩
    obtain ⟨rfl, rfl⟩ := Prod.mk.inj (Option.some.inj (hfirst.2.symm.trans hturn))
    exact ⟨_, _, terminal, hturn, hcloses.perm hperm, hmarks⟩
  · rintro ⟨_, _, terminal, hturn, hcloses, hmarks⟩
    obtain ⟨rfl, rfl⟩ := Prod.mk.inj (Option.some.inj (hfirst.2.symm.trans hturn))
    exact ⟨_, _, terminal, hturn, hcloses.perm hperm.symm, hmarks⟩

theorem isTerminal_of_perm {others : List Json} (hids : DistinctIds captures)
    (hothers : DistinctIds others) {session turn : String}
    (hperm : (turnCaptures captures session turn).Perm (turnCaptures others session turn))
    {capture : Json} (hcapture : capture ∈ turnCaptures captures session turn) :
    (fromCaptures parseJson parseRfc3339 captures).isTerminal capture =
      (fromCaptures parseJson parseRfc3339 others).isTerminal capture := by
  have hfirst := mem_turnCaptures.mp hcapture
  have hsecond := mem_turnCaptures.mp (hperm.mem_iff.mp hcapture)
  rw [Bool.eq_iff_iff, isTerminal_iff hids hfirst.1, isTerminal_iff hothers hsecond.1]
  constructor
  · rintro ⟨_, _, start, hturn, hcloses, hmarks⟩
    obtain ⟨rfl, rfl⟩ := Prod.mk.inj (Option.some.inj (hfirst.2.symm.trans hturn))
    exact ⟨_, _, start, hturn, hcloses.perm hperm, hmarks⟩
  · rintro ⟨_, _, start, hturn, hcloses, hmarks⟩
    obtain ⟨rfl, rfl⟩ := Prod.mk.inj (Option.some.inj (hfirst.2.symm.trans hturn))
    exact ⟨_, _, start, hturn, hcloses.perm hperm.symm, hmarks⟩

/-- Only the hooks of Turns that are nothing but manual compactions are marked, a complete summary
is one of a Turn whose compactions are all there, and marks and summaries depend on the captures
of their Turn only, in any order. -/
theorem boundaries_exact (hids : DistinctIds captures) :
    (∀ capture ∈ captures,
      ((fromCaptures parseJson parseRfc3339 captures).isStart capture = true →
        ∃ session turn, turnOf capture = some (session, turn) ∧
          hasEvent "compaction_start" capture = true ∧
          validHook capture "PreCompact" "started" session turn "manual" = true ∧
          Standalone parseJson (turnCaptures captures session turn)) ∧
      ((fromCaptures parseJson parseRfc3339 captures).isTerminal capture = true →
        ∃ session turn, turnOf capture = some (session, turn) ∧
          hasEvent "compaction_end" capture = true ∧
          validHook capture "PostCompact" "completed" session turn "manual" = true ∧
          Standalone parseJson (turnCaptures captures session turn))) ∧
    (∀ session turn summary,
      (fromCaptures parseJson parseRfc3339 captures).summary session turn = some summary →
        summary.complete = true →
          Complete parseJson parseRfc3339 (turnCaptures captures session turn) session turn) ∧
    (∀ others, DistinctIds others → ∀ session turn,
      (turnCaptures captures session turn).Perm (turnCaptures others session turn) →
        (fromCaptures parseJson parseRfc3339 captures).summary session turn =
          (fromCaptures parseJson parseRfc3339 others).summary session turn ∧
        ∀ capture ∈ turnCaptures captures session turn,
          (fromCaptures parseJson parseRfc3339 captures).isStart capture =
            (fromCaptures parseJson parseRfc3339 others).isStart capture ∧
          (fromCaptures parseJson parseRfc3339 captures).isTerminal capture =
            (fromCaptures parseJson parseRfc3339 others).isTerminal capture) := by
  refine ⟨fun capture hcapture => ⟨fun hstart => ?_, fun hterminal => ?_⟩, ?_, ?_⟩
  · obtain ⟨session, turn, terminal, hturn, hcloses, _⟩ := (isStart_iff hids hcapture).mp hstart
    have hevent : capture ∈ (evidenceOf (turnCaptures captures session turn)).starts := by
      rw [hcloses.onlyStart]
      exact List.mem_singleton_self capture
    exact ⟨session, turn, hturn, (List.mem_filter.mp hevent).2, hcloses.validStart,
      hcloses.standalone⟩
  · obtain ⟨session, turn, start, hturn, hcloses, _⟩ :=
      (isTerminal_iff hids hcapture).mp hterminal
    have hevent : capture ∈ (evidenceOf (turnCaptures captures session turn)).terminals := by
      rw [hcloses.onlyTerminal]
      exact List.mem_singleton_self capture
    exact ⟨session, turn, hturn, (List.mem_filter.mp hevent).2, hcloses.validTerminal,
      hcloses.standalone⟩
  · intro session turn summary hsummary hcomplete
    rw [summary_fromCaptures] at hsummary
    exact complete_spec hsummary hcomplete
  · intro others hothers session turn hperm
    rw [summary_fromCaptures, summary_fromCaptures]
    exact ⟨summarize_perm hperm, fun capture hcapture =>
      ⟨isStart_of_perm hids hothers hperm hcapture,
        isTerminal_of_perm hids hothers hperm hcapture⟩⟩

/-- A hook of a manual compaction. -/
def manualHook (id name type status time : String) : Json :=
  .obj [("captureId", .str id),
    ("lifecycleEvent", .obj [("occurred_at", .str time),
      ("source_event", .obj [("hook_event_name", .str name), ("session_id", .str "s"),
        ("trigger", .str "manual"), ("turn_id", .str "t")]),
      ("source_event_name", .str name), ("status", .str status), ("type", .str type)]),
    ("recordType", .str "lifecycle_event"),
    ("traceContext", .obj [("session_id", .str "s"), ("turn_id", .str "t")])]

/-- The metadata of the request of a manual compaction. -/
def manualMetadata : String :=
  "\x7b\"compaction\":\x7b\"phase\":\"standalone_turn\",\"trigger\":\"manual\"\x7d," ++
    "\"request_kind\":\"compaction\",\"session_id\":\"s\",\"turn_id\":\"t\"\x7d"

def readManual (text : String) : Option Json :=
  if text == manualMetadata then
    some (.obj [("compaction", .obj [("phase", .str "standalone_turn"),
      ("trigger", .str "manual")]), ("request_kind", .str "compaction"),
      ("session_id", .str "s"), ("turn_id", .str "t")])
  else none

def readTime : String → Option Int
  | "2026-10-16T00:00:00Z" => some 1792108800
  | "2026-10-16T00:00:02Z" => some 1792108802
  | _ => none

/-- A manual compaction with its hooks and its request. -/
def manualTurn : List Json :=
  [manualHook "pre" "PreCompact" "compaction_start" "started" "2026-10-16T00:00:00Z",
    .obj [("captureId", .str "wire"), ("recordType", .str "api_snapshot"),
      ("requestHeaders", .obj [("x-codex-turn-metadata", .str manualMetadata)]),
      ("traceContext", .obj [("session_id", .str "s"), ("turn_id", .str "t")])],
    manualHook "post" "PostCompact" "compaction_end" "completed" "2026-10-16T00:00:02Z"]

theorem boundaries_exact_manualTurn :
    (manualTurn.map (fromCaptures readManual readTime manualTurn).isStart =
        [true, false, false] ∧
      manualTurn.map (fromCaptures readManual readTime manualTurn).isTerminal =
        [false, false, true]) ∧
      Complete readManual readTime (turnCaptures manualTurn "s" "t") "s" "t" := by
  refine ⟨by decide +kernel, ?_⟩
  exact (boundaries_exact (by decide +kernel)).2.1 "s" "t" ⟨1, 1, 1, true⟩ (by decide +kernel) rfl

end Exact

end ChipTrace.Compaction
