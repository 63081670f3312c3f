/-
The turn that the exact index gives to a record: it was stated together with its session, by the
record or by what was observed, and it is the only turn that the nearest context leaves open.
-/
import ChipTrace.TurnIdentity.Contents

namespace ChipTrace.TurnIdentity

section Statements

variable (track : Bool) (seen : List Observation)

/-- An observation of a span states a value. -/
def SpanStates {V : Type} (field : Observation → Option V) (key : SpanKey) (value : V) : Prop :=
  ∃ item, SpanSeen track seen key item ∧ field item = some value

/-- An observation of a trace states a value. -/
def TraceStates {V : Type} (field : Observation → Option V) (trace : String) (value : V) : Prop :=
  ∃ item, TraceSeen seen trace item ∧ field item = some value

/-- The session of a turn is stated, or none is. -/
def Allowed (states : String → Prop) (pair : NativeTurn) : Prop :=
  states (ofLex pair).1 ∨ ∀ session, ¬ states session

/-- The turns of a span: those that it states, or those of the spans above it when it states
neither a turn nor a scope. -/
inductive SpanTurn : SpanKey → NativeTurn → Prop where
  | stated {key : SpanKey} {pair : NativeTurn}
      (turn : SpanStates track seen Observation.turn key (ofLex pair).2) (native : Native seen pair)
      (allowed : Allowed (SpanStates track seen Observation.session key) pair) : SpanTurn key pair
  | above {key parent : SpanKey} {pair : NativeTurn}
      (silent : ∀ turn, ¬ SpanStates track seen Observation.turn key turn)
      (unscoped : ∀ kind, ¬ SpanStates track seen Observation.kind key kind)
      (up : SpanStates track seen Observation.parentKey key parent)
      (turn : SpanTurn parent pair)
      (allowed : Allowed (SpanStates track seen Observation.session key) pair) : SpanTurn key pair

/-- The turns that the context of a record leaves open: those of its span, else those of its trace,
else those of the turn id that it states. -/
inductive ContextTurn (record : Json) (turn : Option String) : NativeTurn → Prop where
  | span {key : SpanKey} {pair : NativeTurn} (own : spanOf record = some key)
      (turns : SpanTurn track seen key pair) : ContextTurn record turn pair
  | trace {trace : String} {pair : NativeTurn}
      (bare : ∀ key other, spanOf record = some key → ¬ SpanTurn track seen key other)
      (own : hexId (record.get? "traceId") 32 = some trace)
      (states : TraceStates seen Observation.turn trace (ofLex pair).2) (native : Native seen pair)
      (allowed : Allowed (TraceStates seen Observation.session trace) pair) :
      ContextTurn record turn pair
  | stated {pair : NativeTurn}
      (bare : ∀ key other, spanOf record = some key → ¬ SpanTurn track seen key other)
      (unseen : ∀ trace item, hexId (record.get? "traceId") 32 = some trace →
        ¬ TraceSeen seen trace item)
      (own : turn = some (ofLex pair).2) (native : Native seen pair) : ContextTurn record turn pair

end Statements

section Candidates

variable {track : Bool} {seen : List Observation} {pair : NativeTurn} {key : SpanKey}

/-- Every turn of a span was stated together with its session. -/
theorem SpanTurn.isNative (h : SpanTurn track seen key pair) : Native seen pair := by
  induction h with
  | stated _ native _ => exact native
  | above _ _ _ _ _ ih => exact ih

theorem ContextTurn.isNative {record : Json} {turn : Option String}
    (h : ContextTurn track seen record turn pair) : Native seen pair := by
  cases h with
  | span _ turns => exact turns.isNative
  | trace _ _ _ native _ => exact native
  | stated _ _ _ native => exact native

theorem SpanTurn.isSome (h : SpanTurn track seen key pair) :
    ((indexOf track seen).spans.get? key).isSome := by
  rw [span_isSome_iff]
  cases h with
  | stated turn _ _ =>
      obtain ⟨item, hitem, _⟩ := turn
      exact ⟨item, hitem⟩
  | above _ _ up _ _ =>
      obtain ⟨item, hitem, _⟩ := up
      exact ⟨item, hitem⟩

theorem allows_iff {sessions : OrdSet String} {states : String → Prop}
    (h : ∀ session, session ∈ sessions.keys ↔ states session) :
    allows sessions pair = true ↔ Allowed states pair := by
  rw [allows, Bool.or_eq_true, isEmpty_iff, contains_iff, or_comm, Allowed]
  simp only [h]

theorem mem_candidates {sessions turns : OrdSet String} :
    pair ∈ (candidates (indexOf track seen) sessions turns).keys ↔
      (ofLex pair).2 ∈ turns.keys ∧ Native seen pair ∧ allows sessions pair = true := by
  rw [candidates, OrdSet.mem_keys_ofList, List.mem_filter, List.mem_flatMap]
  simp only [mem_nativeTurns]
  constructor
  · intro h
    obtain ⟨⟨turn, hturn, hnative, hsame⟩, hallows⟩ := h
    exact ⟨hsame ▸ hturn, hnative, hallows⟩
  · intro h
    exact ⟨⟨_, h.1, h.2.1, rfl⟩, h.2.2⟩

/-- The members that are collected from some spans. -/
theorem mem_foldlM_addAll {step : SpanKey → Except String (OrdSet NativeTurn)}
    {keep : NativeTurn → Bool} {turns : SpanKey → NativeTurn → Prop}
    (hstep : ∀ parent above, step parent = .ok above →
      ∀ pair, pair ∈ above.keys ↔ turns parent pair)
    {parents : List SpanKey} {start finish : OrdSet NativeTurn}
    (h : parents.foldlM (fun found parent => do
      let above ← step parent
      pure (OrdSet.addAll found (above.keys.filter keep))) start = .ok finish) :
    pair ∈ finish.keys ↔
      pair ∈ start.keys ∨ ∃ parent ∈ parents, turns parent pair ∧ keep pair = true := by
  induction parents generalizing start with
  | nil =>
      rw [List.foldlM_nil, Except.pure_eq_ok_iff] at h
      rw [h]
      simp
  | cons parent rest ih =>
      rw [List.foldlM_cons] at h
      obtain ⟨next, hnext, hrest⟩ := Except.bind_eq_ok_iff.mp h
      obtain ⟨above, habove, hnext⟩ := Except.bind_eq_ok_iff.mp hnext
      rw [Except.pure_eq_ok_iff] at hnext
      rw [ih hrest, ← hnext, OrdSet.mem_keys_addAll, List.mem_filter, hstep parent above habove]
      simp only [List.exists_mem_cons_iff]
      tauto

/-- The turns that are found for a span are its turns. -/
theorem mem_spanCandidatesFrom {fuel : Nat} {visiting : List SpanKey}
    {found : OrdSet NativeTurn}
    (h : spanCandidatesFrom (indexOf track seen) fuel visiting key = .ok found)
    (pair : NativeTurn) : pair ∈ found.keys ↔ SpanTurn track seen key pair := by
  induction fuel generalizing visiting key found pair with
  | zero =>
      rw [spanCandidatesFrom] at h
      cases h
  | succ fuel ih =>
      rw [spanCandidatesFrom] at h
      cases hget : (indexOf track seen).spans.get? key with
      | none =>
          simp only [hget] at h
          cases h
          constructor
          · intro hmem
            exact absurd hmem List.not_mem_nil
          · intro hturn
            have hsome := hturn.isSome
            rw [hget] at hsome
            cases hsome
      | some scope =>
          simp only [hget] at h
          have hallows : allows scope.sessions pair = true ↔ _ :=
            allows_iff fun session => @mem_span_sessions track seen key scope hget session
          split_ifs at h with hcycle hsilent
          · obtain ⟨_, _, h⟩ := Except.bind_eq_ok_iff.mp h
            rw [Bool.and_eq_true, Bool.and_eq_true, isEmpty_iff, isEmpty_iff, isEmpty_iff]
              at hsilent
            obtain ⟨⟨hnone, hturns⟩, hkinds⟩ := hsilent
            rw [mem_foldlM_addAll (fun parent above habove => ih habove) h]
            constructor
            · intro hmem
              obtain ⟨parent, hparent, hturn, hkeep⟩ := hmem.resolve_left (hnone pair)
              exact .above (fun turn hstates => hturns turn ((mem_span_turns hget).mpr hstates))
                (fun kind hstates => hkinds kind ((mem_span_kinds hget).mpr hstates))
                ((mem_span_parents hget).mp hparent) hturn (hallows.mp hkeep)
            · intro hturn
              cases hturn with
              | stated turn _ _ => exact absurd ((mem_span_turns hget).mpr turn) (hturns _)
              | above _ _ up turn allowed =>
                  exact Or.inr ⟨_, (mem_span_parents hget).mpr up, turn, hallows.mpr allowed⟩
          · obtain ⟨_, _, h⟩ := Except.bind_eq_ok_iff.mp h
            rw [Except.pure_eq_ok_iff] at h
            rw [← h, mem_candidates, hallows]
            constructor
            · intro hmem
              exact .stated ((mem_span_turns hget).mp hmem.1) hmem.2.1 hmem.2.2
            · intro hturn
              cases hturn with
              | stated turn native allowed =>
                  exact ⟨(mem_span_turns hget).mpr turn, native, allowed⟩
              | above silent unscoped _ _ _ =>
                  refine absurd ?_ hsilent
                  rw [Bool.and_eq_true, Bool.and_eq_true, isEmpty_iff, isEmpty_iff, isEmpty_iff]
                  have hturns : ∀ turn, turn ∉ scope.turns.keys := fun turn hmem =>
                    silent turn ((mem_span_turns hget).mp hmem)
                  exact ⟨⟨fun other hmem => hturns _ (mem_candidates.mp hmem).1, hturns⟩,
                    fun kind hmem => unscoped kind ((mem_span_kinds hget).mp hmem)⟩

end Candidates

section Contexts

variable {track : Bool} {seen : List Observation} {record : Json} {turn : Option String}
  {pair : NativeTurn}

/-- The turns that are found for the span of a record. -/
theorem mem_spanMatches {found : OrdSet NativeTurn}
    (h : spanMatches (indexOf track seen) record = .ok found) :
    pair ∈ found.keys ↔ ∃ key, spanOf record = some key ∧ SpanTurn track seen key pair := by
  rw [spanMatches] at h
  cases hspan : spanOf record with
  | none =>
      simp only [hspan] at h
      cases h
      constructor
      · intro hmem
        exact absurd hmem List.not_mem_nil
      · intro hturn
        obtain ⟨_, hkey, _⟩ := hturn
        cases hkey
  | some key =>
      simp only [hspan] at h
      rw [mem_spanCandidatesFrom h]
      simp

/-- The turns that are left open are those of the context. -/
theorem mem_contextTurns {found : OrdSet NativeTurn}
    (h : spanMatches (indexOf track seen) record = .ok found) :
    pair ∈ (contextTurns (indexOf track seen) (hexId (record.get? "traceId") 32) turn found).keys ↔
      ContextTurn track seen record turn pair := by
  have hfound := fun other => @mem_spanMatches track seen record other found h
  unfold contextTurns
  split_ifs with hsome
  · rw [Bool.not_eq_true', ← Bool.not_eq_true, isEmpty_iff] at hsome
    push Not at hsome
    obtain ⟨some, hsome⟩ := hsome
    obtain ⟨key, hkey, hturn⟩ := (hfound some).mp hsome
    rw [hfound]
    constructor
    · intro hmem
      obtain ⟨_, own, turns⟩ := hmem
      exact .span own turns
    · intro hcontext
      cases hcontext with
      | span own turns => exact ⟨_, own, turns⟩
      | trace bare _ _ _ _ => exact absurd hturn (bare key some hkey)
      | stated bare _ _ _ => exact absurd hturn (bare key some hkey)
  · rw [Bool.not_eq_true', Bool.not_eq_false, isEmpty_iff] at hsome
    have hbare : ∀ key other, spanOf record = some key → ¬ SpanTurn track seen key other :=
      fun key other hkey hturn => hsome other ((hfound other).mpr ⟨key, hkey, hturn⟩)
    cases hcontext : (hexId (record.get? "traceId") 32).bind (indexOf track seen).traces.get? with
    | some context =>
        obtain ⟨trace, htrace, hget⟩ := Option.bind_eq_some_iff.mp hcontext
        have hallows : allows context.sessions pair = true ↔ _ :=
          allows_iff fun session => @mem_trace_sessions track seen trace context hget session
        dsimp only
        rw [mem_candidates, hallows, mem_trace_turns hget]
        constructor
        · intro hmem
          exact .trace hbare htrace hmem.1 hmem.2.1 hmem.2.2
        · intro hopen
          cases hopen with
          | span own turns => exact absurd turns (hbare _ _ own)
          | trace _ own states native allowed =>
              rw [htrace] at own
              cases own
              exact ⟨states, native, allowed⟩
          | stated _ unseen _ _ =>
              obtain ⟨item, hitem⟩ := trace_isSome_iff.mp (by rw [hget]; rfl)
              exact absurd hitem (unseen trace item htrace)
    | none =>
        have hunseen : ∀ trace item, hexId (record.get? "traceId") 32 = some trace →
            ¬ TraceSeen seen trace item := by
          intro trace item htrace hitem
          have hget := Option.bind_eq_none_iff.mp hcontext trace htrace
          have hsome := (@trace_isSome_iff track seen trace).mpr ⟨item, hitem⟩
          rw [hget] at hsome
          cases hsome
        dsimp only
        cases turn with
        | none =>
            constructor
            · intro hmem
              exact absurd hmem List.not_mem_nil
            · intro hopen
              cases hopen with
              | span own turns => exact absurd turns (hbare _ _ own)
              | trace _ own states _ _ =>
                  obtain ⟨item, hitem, _⟩ := states
                  exact absurd hitem (hunseen _ item own)
              | stated _ _ own _ => cases own
        | some turn =>
            dsimp only
            rw [mem_nativeTurns]
            constructor
            · intro hmem
              exact .stated hbare hunseen (by rw [hmem.2]) hmem.1
            · intro hopen
              cases hopen with
              | span own turns => exact absurd turns (hbare _ _ own)
              | trace _ own states _ _ =>
                  obtain ⟨item, hitem, _⟩ := states
                  exact absurd hitem (hunseen _ item own)
              | stated _ _ own native => exact ⟨native, (Option.some.inj own).symm⟩

end Contexts

section Decisions

variable {index : ExactTurnIndex} {session turn trace : Option String}
  {scope : Option SourceScope} {found : OrdSet NativeTurn} {pair : NativeTurn}

theorem fits_iff : fits session turn pair = true ↔
    agrees session (ofLex pair).1 = true ∧ agrees turn (ofLex pair).2 = true := by
  rw [fits, Bool.and_eq_true]

/-- A turn that is decided fits what the record states; it is what the record states, or the only
turn that is left open and fits. -/
theorem decideTurn_sound (h : decideTurn index session turn trace scope found = .ok (some pair)) :
    fits session turn pair = true ∧
      ((session = some (ofLex pair).1 ∧ turn = some (ofLex pair).2) ∨
        (pair ∈ (contextTurns index trace turn found).keys ∧
          ∀ other ∈ (contextTurns index trace turn found).keys,
            fits session turn other = true → other = pair)) := by
  unfold decideTurn at h
  cases hsole : sole found with
  | some matched =>
      simp only [hsole] at h
      split_ifs at h with hfits
      cases h
      obtain ⟨hmem, hall⟩ := sole_eq_some_iff.mp hsole
      have hsome : isEmpty found = false := by
        rw [← Bool.not_eq_true, isEmpty_iff]
        exact fun hnone => hnone _ hmem
      unfold contextTurns
      rw [hsome, Bool.not_false, if_pos rfl]
      exact ⟨hfits, Or.inr ⟨hmem, fun other hother _ => hall other hother⟩⟩
  | none =>
      simp only [hsole] at h
      have hopen : ∀ result : Option NativeTurn, result = some pair →
          (if scope.isSome && isEmpty found && turn.isNone then
              (.ok none : Except String (Option NativeTurn))
            else .ok (sole (OrdSet.ofList
              ((contextTurns index trace turn found).keys.filter (fits session turn))))) =
            .ok result →
          fits session turn pair = true ∧ pair ∈ (contextTurns index trace turn found).keys ∧
            ∀ other ∈ (contextTurns index trace turn found).keys,
              fits session turn other = true → other = pair := by
        intro result hresult hdecided
        subst hresult
        split_ifs at hdecided
        · cases hdecided
        · obtain ⟨hmem, hall⟩ := sole_eq_some_iff.mp (Except.ok.inj hdecided)
          rw [OrdSet.mem_keys_ofList, List.mem_filter] at hmem
          refine ⟨hmem.2, hmem.1, fun other hother hfits => hall other ?_⟩
          rw [OrdSet.mem_keys_ofList, List.mem_filter]
          exact ⟨hother, hfits⟩
      cases session with
      | none =>
          obtain ⟨hfits, hleft⟩ := hopen _ rfl h
          exact ⟨hfits, Or.inr hleft⟩
      | some session =>
          cases turn with
          | none =>
              obtain ⟨hfits, hleft⟩ := hopen _ rfl h
              exact ⟨hfits, Or.inr hleft⟩
          | some turn =>
              cases h
              exact ⟨fits_iff.mpr ⟨beq_self_eq_true _, beq_self_eq_true _⟩, Or.inl ⟨rfl, rfl⟩⟩

end Decisions

section Boundaries

variable {track : Bool} {seen : List Observation} {scope : SpanScope} {found : Boundary}
  {kind : ScopeKind}

/-- The nearest boundary is not passed over. -/
theorem Boundary.pass_nearest (h : found.nearest = some kind) :
    (found.pass scope).nearest = some kind := by
  rw [Boundary.pass, if_neg (by rw [h, Option.isNone_some]; exact Bool.false_ne_true)]
  split_ifs
  · exact h
  · exact h

theorem boundaryFrom_nearest {index : ExactTurnIndex} {fuel : Nat} {visiting : List SpanKey}
    {key : Option SpanKey} {last : Boundary} (hfound : found.nearest = some kind)
    (h : boundaryFrom index fuel visiting found key = .ok last) : last.nearest = some kind := by
  induction fuel generalizing visiting found key with
  | zero =>
      cases key with
      | none =>
          cases h
          exact hfound
      | some key => cases h
  | succ fuel ih =>
      cases key with
      | none =>
          cases h
          exact hfound
      | some key =>
          rw [boundaryFrom] at h
          split_ifs at h with hcycle
          cases hget : index.spans.get? key with
          | none =>
              simp only [hget] at h
              cases h
              exact hfound
          | some scope =>
              simp only [hget] at h
              obtain ⟨_, _, h⟩ := Except.bind_eq_ok_iff.mp h
              exact ih (Boundary.pass_nearest hfound) h

/-- A span with a single meaning: one parent at most, and no turn under another boundary. -/
theorem validateSpanScope_ok (h : validateSpanScope scope = .ok ()) :
    scope.parents.len ≤ 1 ∧ ((contains scope.kinds .process || contains scope.kinds .session) →
      isEmpty scope.turns = true) := by
  rw [validateSpanScope] at h
  split_ifs at h with hparents _ _ hprocess hsession
  refine ⟨Nat.le_of_not_lt hparents, fun hkinds => ?_⟩
  by_contra hturns
  rw [Bool.not_eq_true] at hturns
  cases hcontains : contains scope.kinds .process with
  | true => exact hprocess (by rw [hcontains, hturns]; simp)
  | false =>
      rw [hcontains, Bool.false_or] at hkinds
      exact hsession (by rw [hkinds, hturns]; rfl)

/-- A span that states a turn is a Turn boundary. -/
theorem pass_of_turn (hvalid : validateSpanScope scope = .ok ()) {turn : String}
    (hturn : turn ∈ scope.turns.keys) (hfound : found.nearest = none) :
    (found.pass scope).nearest = some .turn := by
  have hturns : isEmpty scope.turns = false := by
    rw [← Bool.not_eq_true, isEmpty_iff]
    exact fun hnone => hnone _ hturn
  have hother : ∀ kind, first scope.kinds = some kind → kind = .turn := by
    intro kind hkind
    have hcontains := contains_iff.mpr (mem_of_first hkind)
    cases kind with
    | process =>
        have hempty := (validateSpanScope_ok hvalid).2 (by rw [hcontains, Bool.true_or])
        rw [hturns] at hempty
        cases hempty
    | session =>
        have hempty := (validateSpanScope_ok hvalid).2 (by rw [hcontains, Bool.or_true])
        rw [hturns] at hempty
        cases hempty
    | turn => rfl
  rw [Boundary.pass, hfound, Option.isNone_none, if_pos rfl, hturns, if_neg Bool.false_ne_true]
  cases hfirst : first scope.kinds with
  | none => rfl
  | some kind => rw [hother kind hfirst, Option.some_or]

/-- The nearest boundary above a span that has a turn is a Turn. -/
theorem SpanTurn.boundary {key : SpanKey} {pair : NativeTurn} (h : SpanTurn track seen key pair)
    {fuel : Nat} {visiting : List SpanKey} {last : Boundary} (hfound : found.nearest = none)
    (hrun : boundaryFrom (indexOf track seen) fuel visiting found (some key) = .ok last) :
    last.nearest = some .turn := by
  induction h generalizing fuel visiting found with
  | @stated key pair turn native allowed =>
      cases fuel with
      | zero => cases hrun
      | succ fuel =>
          rw [boundaryFrom] at hrun
          split_ifs at hrun with hcycle
          obtain ⟨scope, hget⟩ :=
            Option.isSome_iff_exists.mp (SpanTurn.stated turn native allowed).isSome
          simp only [hget] at hrun
          obtain ⟨_, hvalid, hrun⟩ := Except.bind_eq_ok_iff.mp hrun
          exact boundaryFrom_nearest
            (pass_of_turn hvalid ((mem_span_turns hget).mpr turn) hfound) hrun
  | @above key parent pair silent unscoped up turn allowed ih =>
      cases fuel with
      | zero => cases hrun
      | succ fuel =>
          rw [boundaryFrom] at hrun
          split_ifs at hrun with hcycle
          obtain ⟨scope, hget⟩ :=
            Option.isSome_iff_exists.mp (SpanTurn.above silent unscoped up turn allowed).isSome
          simp only [hget] at hrun
          obtain ⟨_, hvalid, hrun⟩ := Except.bind_eq_ok_iff.mp hrun
          have hkinds : first scope.kinds = none := first_eq_none_iff.mpr (isEmpty_iff.mpr
            fun kind hmem => unscoped kind ((mem_span_kinds hget).mp hmem))
          have hturns : isEmpty scope.turns = true := isEmpty_iff.mpr
            fun turn hmem => silent turn ((mem_span_turns hget).mp hmem)
          rw [first_of_mem (validateSpanScope_ok hvalid).1 ((mem_span_parents hget).mpr up)]
            at hrun
          refine ih ?_ hrun
          rw [Boundary.pass, hfound, Option.isNone_none, if_pos rfl, hkinds, hturns, if_pos rfl]
          rfl

/-- A record under a Process or a Session boundary states no turn and inherits none; under a
Process boundary it states no session either. -/
theorem combineScopes_boundary {kind : Option ScopeKind} {session turn : Option String}
    {inherited : Option SourceScope} {scope : SourceScope}
    (h : combineScopes kind session turn inherited = .ok (some scope)) (hscope : scope ≠ .turn) :
    turn = none ∧ inherited ≠ some .turn ∧ (scope = .process → session = none) := by
  cases kind with
  | none =>
      rw [combineScopes] at h
      split_ifs at h with hturn _ hprocess
      · cases h
        exact absurd rfl hscope
      · rw [Option.not_isSome_iff_eq_none] at hturn
        cases h
        refine ⟨hturn, fun heq => hscope (Option.some.inj heq), fun heq => ?_⟩
        rw [heq, decide_eq_true rfl, Bool.true_and, Option.not_isSome_iff_eq_none] at hprocess
        exact hprocess
  | some kind =>
      cases kind with
      | process =>
          rw [combineScopes] at h
          split_ifs at h with hconflict
          simp only [Bool.or_eq_true, decide_eq_true_eq, not_or, Bool.not_eq_true,
            Option.isSome_eq_false_iff, Option.isNone_iff_eq_none] at hconflict
          exact ⟨hconflict.1.1.2, hconflict.2, fun _ => hconflict.1.1.1⟩
      | session =>
          rw [combineScopes] at h
          split_ifs at h with hconflict
          simp only [Bool.or_eq_true, decide_eq_true_eq, not_or, Bool.not_eq_true,
            Option.isSome_eq_false_iff, Option.isNone_iff_eq_none] at hconflict
          cases h
          exact ⟨hconflict.1.1, hconflict.2, fun heq => by cases heq⟩
      | turn =>
          rw [combineScopes] at h
          split_ifs at h with hconflict
          cases h
          exact absurd rfl hscope

theorem sourceScope_boundary {index : ExactTurnIndex} {record : Json}
    {attributes : Table String String} {scope : SourceScope} {session turn : Option String}
    (h : sourceScope index record attributes = .ok (some scope)) (hscope : scope ≠ .turn)
    (hsession : sessionAttribute attributes = .ok session)
    (hturn : turnAttribute attributes = .ok turn) :
    turn = none ∧ inheritedScope index record ≠ .ok (some .turn) ∧
      (scope = .process → session = none) := by
  obtain ⟨inherited, hinherited, h⟩ := Except.bind_eq_ok_iff.mp h
  rw [hsession, Except.ok_bind, hturn, Except.ok_bind] at h
  obtain ⟨kind, _, hcombined⟩ := Except.bind_eq_ok_iff.mp h
  obtain ⟨hnone, hinherits, hprocess⟩ := combineScopes_boundary hcombined hscope
  refine ⟨hnone, fun heq => hinherits ?_, hprocess⟩
  rw [heq] at hinherited
  exact (Except.ok.inj hinherited).symm

end Boundaries

section Records

variable {captures : List Json} {index : ExactTurnIndex} {record : Json}
  {attributes : Table String String} {pair : NativeTurn}

/-- A record gets no turn but one that it states with its session, or the only turn that its
nearest context leaves open; the latter was observed with its session, and agrees with what the
record states. -/
theorem resolve_sound
    (hindex : captures.foldlM ExactTurnIndex.observeCapture .forTurns = .ok index)
    (h : resolve index record attributes = .ok (some pair)) :
    ∃ seen session turn, captures.mapM observationsOf = .ok seen ∧
      sessionAttribute attributes = .ok session ∧ turnAttribute attributes = .ok turn ∧
      agrees session (ofLex pair).1 = true ∧ agrees turn (ofLex pair).2 = true ∧
      ((session = some (ofLex pair).1 ∧ turn = some (ofLex pair).2) ∨
        (Native seen.flatten pair ∧ ContextTurn true seen.flatten record turn pair ∧
          ∀ other, ContextTurn true seen.flatten record turn other →
            fits session turn other = true → other = pair)) := by
  obtain ⟨seen, hseen, rfl⟩ := observeCaptures_ok_iff.mp hindex
  obtain ⟨session, hsession, h⟩ := Except.bind_eq_ok_iff.mp h
  obtain ⟨turn, hturn, h⟩ := Except.bind_eq_ok_iff.mp h
  obtain ⟨scope, _, h⟩ := Except.bind_eq_ok_iff.mp h
  obtain ⟨found, hfound, h⟩ := Except.bind_eq_ok_iff.mp h
  obtain ⟨hfits, hcause⟩ := decideTurn_sound h
  have hcontext := fun other =>
    @mem_contextTurns true seen.flatten record turn other found hfound
  refine ⟨seen, session, turn, hseen, hsession, hturn, (fits_iff.mp hfits).1,
    (fits_iff.mp hfits).2, hcause.imp id fun hopen => ?_⟩
  obtain ⟨hmem, hall⟩ := hopen
  have hturn := (hcontext pair).mp hmem
  exact ⟨hturn.isNative, hturn, fun other hother => hall other ((hcontext other).mpr hother)⟩

/-- A record that only names the span of a model request. -/
def tracedRecord : Json :=
  .obj [("traceId", .str "0000000000000000000000000000000a"),
    ("spanId", .str "000000000000000b")]

theorem tracedRecord_resolved :
    (wireIndex.toOption.map fun index => (resolve index tracedRecord Table.empty).toOption) =
      some (some (some (toLex ("s1", "t1")))) := by
  decide +kernel

theorem resolve_sound_traced : ∃ seen, [wireCapture].mapM observationsOf = .ok seen ∧
    ContextTurn true seen.flatten tracedRecord none (toLex ("s1", "t1")) := by
  have hresolved := tracedRecord_resolved
  obtain ⟨index, hindex⟩ := wireIndex_ok
  rw [hindex] at hresolved
  cases hresult : resolve index tracedRecord Table.empty with
  | error _ =>
      rw [Except.toOption, Option.map_some, hresult] at hresolved
      cases hresolved
  | ok result =>
      rw [Except.toOption, Option.map_some, hresult] at hresolved
      cases hresolved
      obtain ⟨seen, session, turn, hseen, hsession, hturn, _, _, hcause⟩ :=
        resolve_sound hindex hresult
      cases hsession
      cases hturn
      obtain ⟨_, hcontext, _⟩ := hcause.resolve_left fun hstated => by cases hstated.1
      exact ⟨seen, hseen, hcontext⟩

/-- A record of a process or of a Session as a whole gets no turn, whatever its trace states. -/
theorem resolve_boundary
    (hindex : captures.foldlM ExactTurnIndex.observeCapture .forTurns = .ok index)
    {scope : SourceScope} (hscope : sourceScope index record attributes = .ok (some scope))
    (hboundary : scope ≠ .turn) {result : Option NativeTurn}
    (h : resolve index record attributes = .ok result) : result = none := by
  obtain ⟨seen, hseen, rfl⟩ := observeCaptures_ok_iff.mp hindex
  obtain ⟨session, hsession, h⟩ := Except.bind_eq_ok_iff.mp h
  obtain ⟨turn, hturn, h⟩ := Except.bind_eq_ok_iff.mp h
  obtain ⟨_, hsame, h⟩ := Except.bind_eq_ok_iff.mp h
  rw [hscope] at hsame
  cases hsame
  obtain ⟨found, hfound, h⟩ := Except.bind_eq_ok_iff.mp h
  obtain ⟨rfl, hinherits, _⟩ := sourceScope_boundary hscope hboundary hsession hturn
  have hnone : ∀ pair, pair ∉ found.keys := by
    intro pair hmem
    obtain ⟨key, hkey, hspan⟩ := (@mem_spanMatches true seen.flatten record pair found hfound).mp
      hmem
    apply hinherits
    obtain ⟨inherited, hinherited, _⟩ := Except.bind_eq_ok_iff.mp hscope
    rw [hinherited]
    rw [inheritedScope, hkey] at hinherited
    dsimp only at hinherited
    rw [spanSourceScope] at hinherited
    cases hlast : boundaryFrom (seen.flatten.foldl ExactTurnIndex.observe .forTurns)
        ((seen.flatten.foldl ExactTurnIndex.observe .forTurns).spans.len + 1) [] {}
        (some key) with
    | error _ =>
        rw [hlast] at hinherited
        cases hinherited
    | ok last =>
        rw [hlast] at hinherited
        rw [← Except.ok.inj hinherited, Boundary.sourceScope, hspan.boundary rfl hlast]
        rfl
  have hempty : isEmpty found = true := isEmpty_iff.mpr hnone
  have hsole : sole found = none := by
    cases hsole : sole found with
    | none => rfl
    | some pair => exact absurd (sole_eq_some_iff.mp hsole).1 (hnone pair)
  unfold decideTurn at h
  simp only [hsole] at h
  rw [hempty] at h
  cases session with
  | none =>
      cases h
      rfl
  | some session =>
      cases h
      rfl

end Records

end ChipTrace.TurnIdentity
