/-
The lineage of Sessions: what the lifecycle of subagents declares about parents, and the table
that is read from it, in any order of the captures.
-/
import Mathlib.Data.Set.Insert
import ChipTrace.Sessions.Links

namespace ChipTrace.Assemble

section Declarations

/-- What a subagent lifecycle event declares. -/
structure Declared where
  child : String
  parent : String
  rootTurnId : Option String
  deriving DecidableEq

/-- The declaration in a capture; other captures declare nothing. -/
def declaration (capture : Json) : Except String (Option Declared) := do
  let event : Option JsonMap := (capture.get? "lifecycleEvent").bind Json.asObject
  let eventType := event.bind fun event => event.str? "type"
  if eventType != some "subagent_spawn" && eventType != some "subagent_join" then
    return none
  let source : Option JsonMap := event.bind fun event => event.object? "source_event"
  let trace : Option JsonMap := (capture.get? "traceContext").bind Json.asObject
  let child ← uniqueIdentity "subagent child Session"
    [filledField source "agent_id", filledField source "agent_thread_id",
      filledField trace "agent_id"]
  let child ← StockSessionLineage.observe.okOrText child
    "subagent lifecycle event has no child Session identity"
  let parent ← uniqueIdentity "subagent parent Session"
    [filledField trace "session_id", filledField source "session_id"]
  let parent ← StockSessionLineage.observe.okOrText parent
    "subagent lifecycle event has no parent Session identity"
  if child = parent then
    throw "subagent lifecycle event links a Session to itself"
  let rootTurnId ← uniqueIdentity "subagent root turn"
    [filledField trace "root_turn_id", filledField trace "turn_id", filledField source "turn_id"]
  return some ⟨child, parent, rootTurnId⟩

/-- A declaration is noted unless it contradicts what is known of the child. -/
def note (lineage : StockSessionLineage) (declared : Declared) :
    Except String StockSessionLineage :=
  match lineage.get? declared.child with
  | none => .ok (lineage.insert declared.child ⟨declared.parent, declared.rootTurnId⟩)
  | some existing =>
      if existing.parentSessionId ≠ declared.parent then
        let child := declared.child
        .error s!"subagent Session \"{child}\" has multiple explicit parents"
      else if existing.rootTurnId.isSome && declared.rootTurnId.isSome &&
          existing.rootTurnId != declared.rootTurnId then
        let child := declared.child
        .error s!"subagent Session \"{child}\" has multiple explicit root turns"
      else
        .ok (lineage.insert declared.child
          { existing with rootTurnId := existing.rootTurnId.or declared.rootTurnId })

theorem observe_eq (lineage : StockSessionLineage) (capture : Json) :
    lineage.observe capture =
      (declaration capture).bind fun declared =>
        match declared with
        | none => .ok lineage
        | some declared => note lineage declared := by
  rw [StockSessionLineage.observe, declaration]
  dsimp only
  split_ifs
  · rfl
  cases uniqueIdentity "subagent child Session" _ with
  | error message => rfl
  | ok child =>
  simp only [Except.ok_bind]
  cases StockSessionLineage.observe.okOrText child _ with
  | error message => rfl
  | ok child =>
  simp only [Except.ok_bind]
  cases uniqueIdentity "subagent parent Session" _ with
  | error message => rfl
  | ok parent =>
  simp only [Except.ok_bind]
  cases StockSessionLineage.observe.okOrText parent _ with
  | error message => rfl
  | ok parent =>
  simp only [Except.ok_bind]
  split_ifs
  · rfl
  cases uniqueIdentity "subagent root turn" _ with
  | error message => rfl
  | ok rootTurnId =>
  simp only [Except.ok_bind]
  change _ = note lineage ⟨child, parent, rootTurnId⟩
  rw [note]
  cases lineage.get? child with
  | none => rfl
  | some existing =>
      simp only
      split_ifs <;> rfl

end Declarations

section Table

/-- Declarations about one child agree. -/
def Consistent (declared : Set Declared) : Prop :=
  ∀ a ∈ declared, ∀ b ∈ declared, a.child = b.child →
    a.parent = b.parent ∧
      ∀ s t, a.rootTurnId = some s → b.rootTurnId = some t → s = t

/-- The table says what the declarations say. -/
def Holds (declared : Set Declared) (lineage : StockSessionLineage) : Prop :=
  ∀ session child, lineage.get? session = some child ↔
    (∃ d ∈ declared, d.child = session ∧ d.parent = child.parentSessionId) ∧
      ∀ turn, child.rootTurnId = some turn ↔
        ∃ d ∈ declared, d.child = session ∧ d.rootTurnId = some turn

variable {declared : Set Declared} {lineage next : StockSessionLineage} {d : Declared}

/-- Nothing else says the same. -/
theorem Holds.unique (h : Holds declared lineage) (hnext : Holds declared next) :
    lineage = next := by
  apply Table.ext_get?
  intro session
  ext child
  exact (h session child).trans (hnext session child).symm

theorem Holds.none (h : Holds declared lineage) (hconsistent : Consistent declared)
    {session : String} (hnone : lineage.get? session = none) :
    ∀ d ∈ declared, d.child ≠ session := by
  intro d hd heq
  obtain ⟨turn, hturn⟩ : ∃ turn : Option String, ∀ t, turn = some t ↔
      ∃ other ∈ declared, other.child = session ∧ other.rootTurnId = some t := by
    by_cases hsome : ∃ t, ∃ other ∈ declared, other.child = session ∧ other.rootTurnId = some t
    · obtain ⟨t, other, hother, hchild, hturn⟩ := hsome
      refine ⟨some t, fun s => ?_⟩
      constructor
      · intro hs
        exact ⟨other, hother, hchild, hs ▸ hturn⟩
      · rintro ⟨more, hmore, hmoreChild, hmoreTurn⟩
        rw [(hconsistent other hother more hmore (hchild.trans hmoreChild.symm)).2 t s hturn
          hmoreTurn]
    · refine ⟨Option.none, fun s => ?_⟩
      constructor
      · intro hs
        cases hs
      · intro hs
        exact absurd ⟨s, hs⟩ hsome
  have hfound := (h session ⟨d.parent, turn⟩).mpr ⟨⟨d, hd, heq, rfl⟩, hturn⟩
  rw [hnone] at hfound
  cases hfound

theorem Consistent.mono (h : Consistent (insert d declared)) : Consistent declared :=
  fun a ha b hb => h a (Set.mem_insert_of_mem d ha) b (Set.mem_insert_of_mem d hb)

/-- Two declarations do not contradict each other. -/
def Agrees (a b : Declared) : Prop :=
  a.parent = b.parent ∧ ∀ s t, a.rootTurnId = some s → b.rootTurnId = some t → s = t

theorem consistent_insert_iff :
    Consistent (insert d declared) ↔
      Consistent declared ∧ ∀ b ∈ declared, b.child = d.child → Agrees b d := by
  constructor
  · intro h
    exact ⟨h.mono, fun b hb hchild =>
      h b (Set.mem_insert_of_mem d hb) d (Set.mem_insert d declared) hchild⟩
  · rintro ⟨hold, hnew⟩ a ha b hb hchild
    rcases Set.mem_insert_iff.mp ha with rfl | ha
    · rcases Set.mem_insert_iff.mp hb with rfl | hb
      · exact ⟨rfl, fun s t hs ht => Option.some.inj (hs.symm.trans ht)⟩
      · obtain ⟨hparent, hturn⟩ := hnew b hb hchild.symm
        exact ⟨hparent.symm, fun s t hs ht => (hturn t s ht hs).symm⟩
    · rcases Set.mem_insert_iff.mp hb with rfl | hb
      · apply hnew a _ hchild
        assumption
      · exact hold a ha b hb hchild

/-- What is known of a child stands for all declarations about it. -/
theorem agrees_iff {existing : ChildSession} (h : Holds declared lineage)
    (hconsistent : Consistent declared) (hget : lineage.get? d.child = some existing) :
    (∀ b ∈ declared, b.child = d.child → Agrees b d) ↔
      existing.parentSessionId = d.parent ∧
        ∀ s t, existing.rootTurnId = some s → d.rootTurnId = some t → s = t := by
  obtain ⟨⟨first, hfirst, hchild, hparent⟩, hturns⟩ := (h d.child existing).mp hget
  constructor
  · intro hagrees
    refine ⟨hparent.symm.trans (hagrees first hfirst hchild).1, fun s t hs ht => ?_⟩
    obtain ⟨other, hother, hotherChild, hotherTurn⟩ := (hturns s).mp hs
    exact (hagrees other hother hotherChild).2 s t hotherTurn ht
  · rintro ⟨hparents, hturn⟩ b hb hbChild
    have hsame := (hconsistent b hb first hfirst (hbChild.trans hchild.symm)).1
    exact ⟨hsame.trans (hparent.trans hparents), fun s t hs ht =>
      hturn s t ((hturns s).mpr ⟨b, hb, hbChild, hs⟩) ht⟩

/-- A declaration leaves what is said of other Sessions. -/
theorem holds_insert_of_ne {value : ChildSession} (h : Holds declared lineage)
    (hself : ∀ child, value = child ↔
      (∃ other ∈ insert d declared, other.child = d.child ∧
          other.parent = child.parentSessionId) ∧
        ∀ turn, child.rootTurnId = some turn ↔
          ∃ other ∈ insert d declared, other.child = d.child ∧ other.rootTurnId = some turn) :
    Holds (insert d declared) (lineage.insert d.child value) := by
  intro session child
  rw [Table.get?_insert]
  split_ifs with hsession
  · rw [Option.some.injEq, hsession]
    exact hself child
  · rw [h session child]
    have hother : ∀ property : Declared → Prop,
        (∃ other ∈ insert d declared, other.child = session ∧ property other) ↔
          ∃ other ∈ declared, other.child = session ∧ property other := by
      intro property
      constructor
      · rintro ⟨other, hother, hchild, hproperty⟩
        rcases Set.mem_insert_iff.mp hother with rfl | hother
        · exact absurd hchild.symm hsession
        · exact ⟨other, hother, hchild, hproperty⟩
      · rintro ⟨other, hother, hrest⟩
        exact ⟨other, Set.mem_insert_of_mem d hother, hrest⟩
    simp only [hother]

theorem conflict_iff {left right : Option String} :
    ¬ (left.isSome && right.isSome && left != right) = true ↔
      ∀ s t, left = some s → right = some t → s = t := by
  cases left with
  | none => simp
  | some s =>
      cases right with
      | none => simp
      | some t => simp

/-- What is known of a child after another declaration about it. -/
theorem merged_iff {existing : ChildSession} (h : Holds declared lineage)
    (hget : lineage.get? d.child = some existing)
    (hparent : existing.parentSessionId = d.parent)
    (hturns : ∀ s t, existing.rootTurnId = some s → d.rootTurnId = some t → s = t)
    (child : ChildSession) :
    { existing with rootTurnId := existing.rootTurnId.or d.rootTurnId } = child ↔
      (∃ other ∈ insert d declared, other.child = d.child ∧
          other.parent = child.parentSessionId) ∧
        ∀ turn, child.rootTurnId = some turn ↔
          ∃ other ∈ insert d declared, other.child = d.child ∧ other.rootTurnId = some turn := by
  obtain ⟨⟨first, hfirst, hchild, hfirstParent⟩, hknown⟩ := (h d.child existing).mp hget
  have hmerged : ∀ turn, existing.rootTurnId.or d.rootTurnId = some turn ↔
      ∃ other ∈ insert d declared, other.child = d.child ∧ other.rootTurnId = some turn := by
    intro turn
    rw [Option.or_eq_some_iff]
    constructor
    · rintro (hold | ⟨_, hnew⟩)
      · obtain ⟨other, hother, hrest⟩ := (hknown turn).mp hold
        exact ⟨other, Set.mem_insert_of_mem d hother, hrest⟩
      · exact ⟨d, Set.mem_insert d declared, rfl, hnew⟩
    · rintro ⟨other, hother, hotherChild, hturn⟩
      rcases Set.mem_insert_iff.mp hother with rfl | hother
      · cases hold : existing.rootTurnId with
        | none => exact Or.inr ⟨rfl, hturn⟩
        | some s => exact Or.inl (congrArg some (hturns s turn hold hturn))
      · exact Or.inl ((hknown turn).mpr ⟨other, hother, hotherChild, hturn⟩)
  constructor
  · rintro rfl
    exact ⟨⟨first, Set.mem_insert_of_mem d hfirst, hchild, hfirstParent⟩, hmerged⟩
  · rintro ⟨⟨other, hother, hotherChild, hotherParent⟩, hturn⟩
    obtain ⟨parent, turn⟩ := child
    simp only at hotherParent hturn
    rw [ChildSession.mk.injEq]
    refine ⟨?_, Option.ext fun t => (hmerged t).trans (hturn t).symm⟩
    rcases Set.mem_insert_iff.mp hother with rfl | hother
    · exact hparent.trans hotherParent
    · have hstored := (h d.child ⟨parent, existing.rootTurnId⟩).mpr
        ⟨⟨other, hother, hotherChild, hotherParent⟩, hknown⟩
      rw [hget] at hstored
      exact congrArg ChildSession.parentSessionId (Option.some.inj hstored)

/-- A declaration is noted exactly when it agrees with those before it. -/
theorem note_spec (h : Holds declared lineage) (hconsistent : Consistent declared) :
    (∀ next, note lineage d = .ok next →
        Consistent (insert d declared) ∧ Holds (insert d declared) next) ∧
      (Consistent (insert d declared) → ∃ next, note lineage d = .ok next) := by
  rw [consistent_insert_iff]
  cases hget : lineage.get? d.child with
  | none =>
      have hfresh := h.none hconsistent hget
      rw [note, hget]
      refine ⟨fun next hnext => ?_, fun _ => ⟨_, rfl⟩⟩
      obtain rfl := Except.ok.inj hnext
      refine ⟨⟨hconsistent, fun b hb hchild => absurd hchild (hfresh b hb)⟩, ?_⟩
      apply holds_insert_of_ne h
      have honly : ∀ property : Declared → Prop,
          (∃ other ∈ insert d declared, other.child = d.child ∧ property other) ↔
            property d := by
        intro property
        constructor
        · rintro ⟨other, hother, hchild, hproperty⟩
          rcases Set.mem_insert_iff.mp hother with rfl | hother
          · exact hproperty
          · exact absurd hchild (hfresh other hother)
        · exact fun hproperty => ⟨d, Set.mem_insert d declared, rfl, hproperty⟩
      intro child
      simp only [honly]
      constructor
      · rintro rfl
        exact ⟨rfl, fun turn => Iff.rfl⟩
      · rintro ⟨hparent, hturn⟩
        obtain ⟨parent, turn⟩ := child
        simp only at hparent hturn
        rw [ChildSession.mk.injEq]
        exact ⟨hparent, Option.ext fun t => (hturn t).symm⟩
  | some existing =>
      rw [agrees_iff h hconsistent hget, note, hget]
      simp only
      by_cases hparent : existing.parentSessionId = d.parent
      · rw [if_neg (not_not.mpr hparent)]
        split_ifs with hturns
        · refine ⟨fun next hnext => absurd hnext (by simp), ?_⟩
          rintro ⟨_, _, hagree⟩
          exact absurd hturns (conflict_iff.mpr hagree)
        · refine ⟨fun next hnext => ?_, fun _ => ⟨_, rfl⟩⟩
          obtain rfl := Except.ok.inj hnext
          refine ⟨⟨hconsistent, hparent, conflict_iff.mp hturns⟩, ?_⟩
          exact holds_insert_of_ne h (merged_iff h hget hparent (conflict_iff.mp hturns))
      · rw [if_pos hparent]
        refine ⟨fun next hnext => absurd hnext (by simp), ?_⟩
        rintro ⟨_, hsame, _⟩
        exact absurd hsame hparent

end Table

section Captures

/-- What captures declare. -/
def declaredBy (captures : List Json) : Set Declared :=
  {d | ∃ capture ∈ captures, declaration capture = .ok (some d)}

/-- No capture has a lifecycle event that cannot be read. -/
def Readable (captures : List Json) : Prop :=
  ∀ capture ∈ captures, ∃ declared, declaration capture = .ok declared

def lineageOf (captures : List Json) : Except String StockSessionLineage :=
  captures.foldlM StockSessionLineage.observe Table.empty

theorem declaredBy_concat_none {captures : List Json} {capture : Json}
    (h : declaration capture = .ok none) :
    declaredBy (captures ++ [capture]) = declaredBy captures := by
  ext d
  simp only [declaredBy, Set.mem_ofPred_eq, List.mem_append, List.mem_singleton]
  constructor
  · rintro ⟨other, hother | rfl, hdeclared⟩
    · exact ⟨other, hother, hdeclared⟩
    · rw [h] at hdeclared
      cases hdeclared
  · rintro ⟨other, hother, hdeclared⟩
    exact ⟨other, Or.inl hother, hdeclared⟩

theorem declaredBy_concat_some {captures : List Json} {capture : Json} {d : Declared}
    (h : declaration capture = .ok (some d)) :
    declaredBy (captures ++ [capture]) = insert d (declaredBy captures) := by
  ext other
  simp only [declaredBy, Set.mem_ofPred_eq, Set.mem_insert_iff, List.mem_append,
    List.mem_singleton]
  constructor
  · rintro ⟨origin, horigin | rfl, hdeclared⟩
    · exact Or.inr ⟨origin, horigin, hdeclared⟩
    · rw [h] at hdeclared
      exact Or.inl (Option.some.inj (Except.ok.inj hdeclared)).symm
  · rintro (rfl | ⟨origin, horigin, hdeclared⟩)
    · exact ⟨capture, Or.inr rfl, h⟩
    · exact ⟨origin, Or.inl horigin, hdeclared⟩

theorem consistent_declaredBy_append {before after : List Json}
    (h : Consistent (declaredBy (before ++ after))) : Consistent (declaredBy before) := by
  intro a ha b hb
  obtain ⟨capture, hcapture, hdeclared⟩ := ha
  obtain ⟨other, hother, hotherDeclared⟩ := hb
  exact h a ⟨capture, List.mem_append_left _ hcapture, hdeclared⟩ b
    ⟨other, List.mem_append_left _ hother, hotherDeclared⟩

/-- Captures that are observed after others: their declarations are read and agree. -/
theorem observe_spec {before : List Json} {lineage : StockSessionLineage}
    (hholds : Holds (declaredBy before) lineage) (hconsistent : Consistent (declaredBy before))
    (captures : List Json) :
    (∀ next, captures.foldlM StockSessionLineage.observe lineage = .ok next →
        Readable captures ∧ Consistent (declaredBy (before ++ captures)) ∧
          Holds (declaredBy (before ++ captures)) next) ∧
      (Readable captures → Consistent (declaredBy (before ++ captures)) →
        ∃ next, captures.foldlM StockSessionLineage.observe lineage = .ok next) := by
  induction captures generalizing before lineage with
  | nil =>
      rw [List.append_nil]
      constructor
      · intro next hnext
        obtain rfl := Except.ok.inj hnext
        exact ⟨fun capture hcapture => absurd hcapture List.not_mem_nil, hconsistent, hholds⟩
      · exact fun _ _ => ⟨lineage, rfl⟩
  | cons capture rest ih =>
      have hsplit : before ++ capture :: rest = (before ++ [capture]) ++ rest := by simp
      rw [List.foldlM_cons, observe_eq, hsplit]
      cases hdeclaration : declaration capture with
      | error message =>
          constructor
          · intro next hnext
            cases hnext
          · intro hreadable
            obtain ⟨declared, hdeclared⟩ := hreadable capture List.mem_cons_self
            rw [hdeclaration] at hdeclared
            cases hdeclared
      | ok declared =>
          have hreadable : Readable (capture :: rest) ↔ Readable rest := by
            rw [Readable, List.forall_mem_cons, Readable]
            exact ⟨fun h => h.2, fun h => ⟨⟨declared, hdeclaration⟩, h⟩⟩
          rw [hreadable]
          cases declared with
          | none =>
              have hsame : declaredBy (before ++ [capture]) = declaredBy before :=
                declaredBy_concat_none hdeclaration
              exact ih (hsame ▸ hholds) (hsame ▸ hconsistent)
          | some d =>
              have hmore : declaredBy (before ++ [capture]) = insert d (declaredBy before) :=
                declaredBy_concat_some hdeclaration
              obtain ⟨hnoted, hnotes⟩ := note_spec (d := d) hholds hconsistent
              rw [← hmore] at hnotes
              constructor
              · intro next hnext
                obtain ⟨mid, hmid, hrest⟩ := Except.bind_eq_ok_iff.mp hnext
                obtain ⟨hagree, hheld⟩ := hnoted mid hmid
                rw [← hmore] at hagree hheld
                exact (ih hheld hagree).1 next hrest
              · intro hrest hall
                have hagree := consistent_declaredBy_append hall
                obtain ⟨mid, hmid⟩ := hnotes hagree
                have hheld := (hnoted mid hmid).2
                rw [← hmore] at hheld
                obtain ⟨next, hnext⟩ := (ih hheld hagree).2 hrest hall
                exact ⟨next, Except.bind_eq_ok_iff.mpr ⟨mid, hmid, hnext⟩⟩

/-- A lineage is read from captures exactly when their declarations can be read and agree, and
then it says what they declare. -/
theorem lineageOf_spec (captures : List Json) :
    (∀ lineage, lineageOf captures = .ok lineage →
        Readable captures ∧ Consistent (declaredBy captures) ∧
          Holds (declaredBy captures) lineage) ∧
      (Readable captures → Consistent (declaredBy captures) →
        ∃ lineage, lineageOf captures = .ok lineage) := by
  have hnone : declaredBy [] = ∅ := by
    ext d
    simp [declaredBy]
  have hholds : Holds (declaredBy []) Table.empty := by
    intro session child
    rw [hnone]
    simp
  have hconsistent : Consistent (declaredBy []) := by
    intro a ha
    rw [hnone] at ha
    exact absurd ha (Set.notMem_empty a)
  exact observe_spec hholds hconsistent captures

end Captures

end ChipTrace.Assemble
