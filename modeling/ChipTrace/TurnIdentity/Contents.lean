/-
What an exact index holds, read off the observations that it was made from, and that neither their
order nor their repetition matters.
-/
import ChipTrace.Lib.Result
import ChipTrace.TurnIdentity.Index

namespace ChipTrace.TurnIdentity

section Sets

variable {K V O : Type} [LinearOrder K]

/-- The same keys with the same values make the same table. -/
theorem ext_isSome {left right : Table K V}
    (hsome : ∀ k, (left.get? k).isSome ↔ (right.get? k).isSome)
    (hvalue : ∀ k v v', left.get? k = some v → right.get? k = some v' → v = v') :
    left = right := by
  apply Table.ext_get?
  intro k
  have hk := hsome k
  cases hleft : left.get? k with
  | none =>
      cases hright : right.get? k with
      | none => rfl
      | some v => simp [hleft, hright] at hk
  | some v =>
      cases hright : right.get? k with
      | none => simp [hleft, hright] at hk
      | some v' => rw [hvalue k v v' hleft hright]

/-- The same members make the same set. -/
theorem ext_mem {left right : OrdSet K} (h : ∀ k, k ∈ left.keys ↔ k ∈ right.keys) :
    left = right := by
  apply ext_isSome
  · intro k
    rw [Option.isSome_iff_exists, Option.isSome_iff_exists, ← Table.mem_keys, ← Table.mem_keys]
    exact h k
  · intro k v v' _ _
    rfl

theorem isEmpty_iff {set : OrdSet K} : isEmpty set = true ↔ ∀ k, k ∉ set.keys := by
  rw [isEmpty, List.isEmpty_iff, Table.keys]
  constructor
  · intro h k
    rw [h]
    exact List.not_mem_nil
  · intro h
    apply List.eq_nil_iff_forall_not_mem.mpr
    intro entry hentry
    exact h entry.1 (List.mem_map_of_mem hentry)

theorem contains_iff {set : OrdSet K} {k : K} : contains set k = true ↔ k ∈ set.keys := by
  rw [contains, Table.mem_keys, Option.isSome_iff_exists]

theorem mem_of_first {set : OrdSet K} {k : K} (h : first set = some k) : k ∈ set.keys :=
  List.mem_of_mem_head? h

theorem first_eq_none_iff {set : OrdSet K} : first set = none ↔ isEmpty set = true := by
  rw [first, List.head?_eq_none_iff, isEmpty, List.isEmpty_iff, Table.keys, List.map_eq_nil_iff]

theorem length_keys (set : OrdSet K) : set.keys.length = set.len := by
  rw [Table.len, Table.keys, List.length_map]

/-- A set of one member at most has no two. -/
theorem eq_of_len_le {set : OrdSet K} (h : set.len ≤ 1) {k k' : K} (hk : k ∈ set.keys)
    (hk' : k' ∈ set.keys) : k = k' := by
  rw [← length_keys] at h
  cases hkeys : set.keys with
  | nil =>
      rw [hkeys] at hk
      cases hk
  | cons only rest =>
      rw [hkeys, List.length_cons] at h
      have hrest := List.length_eq_zero_iff.mp (Nat.le_zero.mp (Nat.le_of_succ_le_succ h))
      rw [hkeys, hrest, List.mem_singleton] at hk hk'
      rw [hk, hk']

theorem first_of_mem {set : OrdSet K} (h : set.len ≤ 1) {k : K} (hk : k ∈ set.keys) :
    first set = some k := by
  cases hfirst : first set with
  | none => exact absurd hk (isEmpty_iff.mp (first_eq_none_iff.mp hfirst) k)
  | some other => rw [eq_of_len_le h (mem_of_first hfirst) hk]

/-- The sole member of a set. -/
theorem sole_eq_some_iff {set : OrdSet K} {k : K} :
    sole set = some k ↔ k ∈ set.keys ∧ ∀ k' ∈ set.keys, k' = k := by
  rw [sole]
  constructor
  · intro h
    split_ifs at h with hone
    have hk := mem_of_first h
    exact ⟨hk, fun k' hk' => eq_of_len_le (Nat.le_of_eq hone) hk' hk⟩
  · intro h
    obtain ⟨hk, hall⟩ := h
    have hone : set.len = 1 := by
      rw [← length_keys]
      have hnodup := OrdSet.nodup_keys set
      cases hkeys : set.keys with
      | nil =>
          rw [hkeys] at hk
          cases hk
      | cons first rest =>
          cases rest with
          | nil => rfl
          | cons second rest =>
              rw [hkeys] at hall hnodup
              have hsame := (hall first List.mem_cons_self).trans
                (hall second (List.mem_cons_of_mem _ List.mem_cons_self)).symm
              rw [hsame] at hnodup
              exact absurd List.mem_cons_self (List.nodup_cons.mp hnodup).1
    rw [if_pos hone, first_of_mem (Nat.le_of_eq hone) hk]

/-- A table whose values are updated under the keys of some items. -/
theorem get?_foldl_upsert (key : O → Option K) (update : O → V → V) (fresh : V) (seen : List O)
    (table : Table K V) (k : K) :
    (seen.foldl (fun table item => upsert table (key item) fresh (update item)) table).get? k =
      if seen.filter (fun item => key item = some k) = [] then table.get? k
      else some ((seen.filter fun item => key item = some k).foldl
        (fun value item => update item value) ((table.get? k).getD fresh)) := by
  induction seen generalizing table with
  | nil => rfl
  | cons item rest ih =>
      rw [List.foldl_cons, ih]
      by_cases hkey : key item = some k
      · rw [List.filter_cons_of_pos (by simpa using hkey), if_neg (List.cons_ne_nil _ _),
          List.foldl_cons, hkey, upsert, Table.get?_insert_self, Option.getD_some]
        split_ifs with hrest
        · rw [hrest, List.foldl_nil]
        · rfl
      · have hsame : (upsert table (key item) fresh (update item)).get? k = table.get? k := by
          cases hitem : key item with
          | none => rfl
          | some other =>
              rw [upsert]
              apply Table.get?_insert_of_ne
              intro heq
              exact hkey (by rw [hitem, heq])
        rw [List.filter_cons_of_neg (by simpa using hkey), hsame]

theorem isSome_foldl_upsert (key : O → Option K) (update : O → V → V) (fresh : V)
    (seen : List O) (k : K) :
    ((seen.foldl (fun table item => upsert table (key item) fresh (update item))
      (Table.empty : Table K V)).get? k).isSome ↔ ∃ item ∈ seen, key item = some k := by
  rw [get?_foldl_upsert]
  split_ifs with hnone
  · have hnever := List.filter_eq_nil_iff.mp hnone
    constructor
    · intro h
      cases h
    · intro h
      obtain ⟨item, hitem, hkey⟩ := h
      exact absurd (by simpa using hkey) (hnever item hitem)
  · refine ⟨fun _ => ?_, fun _ => rfl⟩
    obtain ⟨item, hfilter⟩ := List.exists_mem_of_ne_nil _ hnone
    obtain ⟨hitem, hkey⟩ := List.mem_filter.mp hfilter
    exact ⟨item, hitem, by simpa using hkey⟩

/-- What every update adds to a value is in it in the end, and nothing else. -/
theorem holds_foldl_upsert {key : O → Option K} {update : O → V → V} {fresh : V}
    {seen : List O} {k : K} {value : V}
    (hget : (seen.foldl (fun table item => upsert table (key item) fresh (update item))
      (Table.empty : Table K V)).get? k = some value) (holds : V → Prop) (adds : O → Prop)
    (hupdate : ∀ value item, holds (update item value) ↔ adds item ∨ holds value)
    (hfresh : ¬ holds fresh) : holds value ↔ ∃ item ∈ seen, key item = some k ∧ adds item := by
  rw [get?_foldl_upsert] at hget
  split_ifs at hget with hnone
  · cases hget
  · rw [← Option.some.inj hget, foldl_adds_iff holds adds hupdate, Table.get?_empty,
      Option.getD_none, or_iff_left hfresh]
    simp only [List.mem_filter, decide_eq_true_eq, and_assoc]

end Sets

section Contents

variable (track : Bool) (seen : List Observation)

/-- The index of some observations. -/
def indexOf : ExactTurnIndex := seen.foldl ExactTurnIndex.observe { trackParents := track }

/-- An observation states a session and a turn together. -/
def Native (pair : NativeTurn) : Prop := ∃ item ∈ seen, item.nativeTurn = some pair

/-- An observation is about a span. -/
def SpanSeen (key : SpanKey) (item : Observation) : Prop :=
  item ∈ seen ∧ item.spanKey track = some key

/-- An observation is about a trace. -/
def TraceSeen (trace : String) (item : Observation) : Prop := item ∈ seen ∧ item.trace = some trace

theorem foldl_observe (index : ExactTurnIndex) :
    (seen.foldl ExactTurnIndex.observe index).trackParents = index.trackParents ∧
    (seen.foldl ExactTurnIndex.observe index).native =
        seen.foldl (fun table item => upsert table (item.nativeTurn.map fun turn => (ofLex turn).2)
          Table.empty fun turns => OrdSet.addAll turns item.nativeTurn.toList) index.native ∧
      (seen.foldl ExactTurnIndex.observe index).traces =
        seen.foldl (fun table item => upsert table item.trace {} fun scope => scope.observe item)
          index.traces ∧
      (seen.foldl ExactTurnIndex.observe index).spans =
        seen.foldl (fun table item => upsert table (item.spanKey index.trackParents) {}
          fun scope => scope.observe item) index.spans := by
  induction seen generalizing index with
  | nil => exact ⟨rfl, rfl, rfl, rfl⟩
  | cons item rest ih => exact ih (index.observe item)

variable {track seen}

theorem mem_addAll_toList {K : Type} [LinearOrder K] (set : OrdSet K) (value : Option K) (k : K) :
    k ∈ (OrdSet.addAll set value.toList).keys ↔ value = some k ∨ k ∈ set.keys := by
  rw [OrdSet.mem_keys_addAll, Option.mem_toList]

theorem mem_nativeTurns {turn : String} {pair : NativeTurn} :
    pair ∈ (nativeTurns (indexOf track seen) turn).keys ↔
      Native seen pair ∧ (ofLex pair).2 = turn := by
  have hsome := isSome_foldl_upsert (fun item : Observation =>
    item.nativeTurn.map fun turn => (ofLex turn).2)
    (fun item turns => OrdSet.addAll turns item.nativeTurn.toList)
    (Table.empty : OrdSet NativeTurn) seen turn
  rw [nativeTurns, indexOf, (foldl_observe seen _).2.1]
  dsimp only
  cases hget : (seen.foldl (fun table item => upsert table
      (item.nativeTurn.map fun turn => (ofLex turn).2) (Table.empty : OrdSet NativeTurn)
      fun turns => OrdSet.addAll turns item.nativeTurn.toList) Table.empty).get? turn with
  | none =>
      rw [hget, Option.isSome_none] at hsome
      constructor
      · intro hmem
        exact absurd hmem List.not_mem_nil
      · intro h
        obtain ⟨⟨item, hitem, hpair⟩, hturn⟩ := h
        exact absurd (hsome.mpr ⟨item, hitem, by rw [hpair, Option.map_some, hturn]⟩)
          Bool.false_ne_true
  | some turns =>
      rw [Option.getD_some, holds_foldl_upsert hget (fun turns => pair ∈ turns.keys)
        (fun item => item.nativeTurn = some pair)
        (fun turns item => mem_addAll_toList turns item.nativeTurn pair) List.not_mem_nil]
      constructor
      · intro h
        obtain ⟨item, hitem, hkey, hpair⟩ := h
        rw [hpair, Option.map_some] at hkey
        exact ⟨⟨item, hitem, hpair⟩, Option.some.inj hkey⟩
      · intro h
        obtain ⟨⟨item, hitem, hpair⟩, hturn⟩ := h
        exact ⟨item, hitem, by rw [hpair, Option.map_some, hturn], hpair⟩

/-- A span is in the index exactly when it was seen. -/
theorem span_isSome_iff {key : SpanKey} :
    ((indexOf track seen).spans.get? key).isSome ↔ ∃ item, SpanSeen track seen key item := by
  rw [indexOf, (foldl_observe seen _).2.2.2]
  exact isSome_foldl_upsert _ _ _ seen key

theorem trace_isSome_iff {trace : String} :
    ((indexOf track seen).traces.get? trace).isSome ↔ ∃ item, TraceSeen seen trace item := by
  rw [indexOf, (foldl_observe seen _).2.2.1]
  exact isSome_foldl_upsert _ _ _ seen trace

variable {key : SpanKey} {scope : SpanScope}

/-- A set of a span holds what the observations of the span state. -/
theorem holds_span (hscope : (indexOf track seen).spans.get? key = some scope)
    (holds : SpanScope → Prop) (adds : Observation → Prop)
    (hupdate : ∀ scope (item : Observation), holds (scope.observe item) ↔ adds item ∨ holds scope)
    (hfresh : ¬ holds {}) : holds scope ↔ ∃ item, SpanSeen track seen key item ∧ adds item := by
  rw [indexOf, (foldl_observe seen _).2.2.2] at hscope
  rw [holds_foldl_upsert hscope holds adds hupdate hfresh]
  simp only [SpanSeen, and_assoc]

section Span

variable (hscope : (indexOf track seen).spans.get? key = some scope)

include hscope

theorem mem_span_sessions {session : String} : session ∈ scope.sessions.keys ↔
    ∃ item, SpanSeen track seen key item ∧ item.session = some session :=
  holds_span hscope (fun scope => session ∈ scope.sessions.keys) _
    (fun _ _ => mem_addAll_toList _ _ _) List.not_mem_nil

theorem mem_span_turns {turn : String} : turn ∈ scope.turns.keys ↔
    ∃ item, SpanSeen track seen key item ∧ item.turn = some turn :=
  holds_span hscope (fun scope => turn ∈ scope.turns.keys) _
    (fun _ _ => mem_addAll_toList _ _ _) List.not_mem_nil

theorem mem_span_parents {parent : SpanKey} : parent ∈ scope.parents.keys ↔
    ∃ item, SpanSeen track seen key item ∧ item.parentKey = some parent :=
  holds_span hscope (fun scope => parent ∈ scope.parents.keys) _
    (fun _ _ => mem_addAll_toList _ _ _) List.not_mem_nil

theorem mem_span_kinds {kind : ScopeKind} : kind ∈ scope.kinds.keys ↔
    ∃ item, SpanSeen track seen key item ∧ item.kind = some kind :=
  holds_span hscope (fun scope => kind ∈ scope.kinds.keys) _
    (fun _ _ => mem_addAll_toList _ _ _) List.not_mem_nil

end Span

section Trace

variable {trace : String} {context : TraceScope}

/-- What a trace holds is what the observations of the trace state. -/
theorem holds_trace (hcontext : (indexOf track seen).traces.get? trace = some context)
    (holds : TraceScope → Prop) (adds : Observation → Prop)
    (hupdate : ∀ scope (item : Observation), holds (scope.observe item) ↔ adds item ∨ holds scope)
    (hfresh : ¬ holds {}) : holds context ↔ ∃ item, TraceSeen seen trace item ∧ adds item := by
  rw [indexOf, (foldl_observe seen _).2.2.1] at hcontext
  rw [holds_foldl_upsert hcontext holds adds hupdate hfresh]
  simp only [TraceSeen, and_assoc]

variable (hcontext : (indexOf track seen).traces.get? trace = some context)

include hcontext

theorem mem_trace_sessions {session : String} : session ∈ context.sessions.keys ↔
    ∃ item, TraceSeen seen trace item ∧ item.session = some session :=
  holds_trace hcontext (fun scope => session ∈ scope.sessions.keys) _
    (fun _ _ => mem_addAll_toList _ _ _) List.not_mem_nil

theorem mem_trace_turns {turn : String} : turn ∈ context.turns.keys ↔
    ∃ item, TraceSeen seen trace item ∧ item.turn = some turn :=
  holds_trace hcontext (fun scope => turn ∈ scope.turns.keys) _
    (fun _ _ => mem_addAll_toList _ _ _) List.not_mem_nil

theorem trace_process_iff : context.process = true ↔
    ∃ item, TraceSeen seen trace item ∧ item.kind = some .process := by
  refine holds_trace hcontext (fun scope => scope.process = true) _ ?_ Bool.false_ne_true
  intro scope item
  rw [TraceScope.observe, Bool.or_eq_true, decide_eq_true_eq, or_comm]

end Trace

end Contents

section Orders

variable {track : Bool} {seen others : List Observation}

theorem native_isSome_iff {turn : String} :
    ((indexOf track seen).native.get? turn).isSome ↔
      ∃ item ∈ seen, (item.nativeTurn.map fun pair => (ofLex pair).2) = some turn := by
  rw [indexOf, (foldl_observe seen _).2.1]
  exact isSome_foldl_upsert _ _ _ seen turn

theorem native_congr (h : ∀ item, item ∈ seen ↔ item ∈ others) :
    (indexOf track seen).native = (indexOf track others).native := by
  apply ext_isSome
  · intro turn
    simp only [native_isSome_iff, h]
  · intro turn turns turns' hturns hturns'
    apply ext_mem
    intro pair
    have hleft := @mem_nativeTurns track seen turn pair
    have hright := @mem_nativeTurns track others turn pair
    rw [nativeTurns, hturns, Option.getD_some] at hleft
    rw [nativeTurns, hturns', Option.getD_some] at hright
    simp only [hleft, hright, Native, h]

theorem spans_congr (h : ∀ item, item ∈ seen ↔ item ∈ others) :
    (indexOf track seen).spans = (indexOf track others).spans := by
  apply ext_isSome
  · intro key
    simp only [span_isSome_iff, SpanSeen, h]
  · intro key scope scope' hscope hscope'
    have hsessions : scope.sessions = scope'.sessions := ext_mem fun session => by
      simp only [mem_span_sessions hscope, mem_span_sessions hscope', SpanSeen, h]
    have hturns : scope.turns = scope'.turns := ext_mem fun turn => by
      simp only [mem_span_turns hscope, mem_span_turns hscope', SpanSeen, h]
    have hparents : scope.parents = scope'.parents := ext_mem fun parent => by
      simp only [mem_span_parents hscope, mem_span_parents hscope', SpanSeen, h]
    have hkinds : scope.kinds = scope'.kinds := ext_mem fun kind => by
      simp only [mem_span_kinds hscope, mem_span_kinds hscope', SpanSeen, h]
    exact SpanScope.mk.injEq .. ▸ ⟨hsessions, hturns, hparents, hkinds⟩

theorem traces_congr (h : ∀ item, item ∈ seen ↔ item ∈ others) :
    (indexOf track seen).traces = (indexOf track others).traces := by
  apply ext_isSome
  · intro trace
    simp only [trace_isSome_iff, TraceSeen, h]
  · intro trace context context' hcontext hcontext'
    have hsessions : context.sessions = context'.sessions := ext_mem fun session => by
      simp only [mem_trace_sessions hcontext, mem_trace_sessions hcontext', TraceSeen, h]
    have hturns : context.turns = context'.turns := ext_mem fun turn => by
      simp only [mem_trace_turns hcontext, mem_trace_turns hcontext', TraceSeen, h]
    have hprocess : context.process = context'.process := Bool.eq_iff_iff.mpr (by
      simp only [trace_process_iff hcontext, trace_process_iff hcontext', TraceSeen, h])
    exact TraceScope.mk.injEq .. ▸ ⟨hsessions, hturns, hprocess⟩

/-- The index only depends on which observations were made. -/
theorem indexOf_congr (h : ∀ item, item ∈ seen ↔ item ∈ others) :
    indexOf track seen = indexOf track others := by
  have htrack : (indexOf track seen).trackParents = (indexOf track others).trackParents := by
    rw [indexOf, indexOf, (foldl_observe seen _).1, (foldl_observe others _).1]
  exact ExactTurnIndex.mk.injEq .. ▸
    ⟨native_congr h, traces_congr h, spans_congr h, htrack⟩

end Orders

section Captures

variable {captures selected : List Json} {index world : ExactTurnIndex}

/-- Captures are read into an index when each of them can be read. -/
theorem observeCaptures_ok_iff :
    captures.foldlM ExactTurnIndex.observeCapture index = .ok world ↔
      ∃ seen, captures.mapM observationsOf = .ok seen ∧
        world = seen.flatten.foldl ExactTurnIndex.observe index := by
  induction captures generalizing index with
  | nil =>
      rw [List.foldlM_nil, List.mapM_nil, Except.pure_eq_ok_iff]
      constructor
      · intro h
        exact ⟨[], rfl, h.symm⟩
      · intro h
        obtain ⟨seen, hseen, rfl⟩ := h
        rw [Except.pure_eq_ok_iff] at hseen
        rw [← hseen]
        rfl
  | cons capture rest ih =>
      rw [List.foldlM_cons, List.mapM_cons, ExactTurnIndex.observeCapture]
      cases hcapture : observationsOf capture with
      | error message =>
          constructor
          · intro h
            cases h
          · intro h
            obtain ⟨seen, hseen, _⟩ := h
            cases hseen
      | ok own =>
          rw [Except.map, Except.ok_bind, Except.ok_bind, ih]
          constructor
          · intro h
            obtain ⟨seen, hseen, hworld⟩ := h
            refine ⟨own :: seen, by rw [hseen]; rfl, ?_⟩
            rw [hworld, List.flatten_cons, List.foldl_append]
          · intro h
            obtain ⟨seen, hseen, hworld⟩ := h
            obtain ⟨others, hothers, hcons⟩ := Except.bind_eq_ok_iff.mp hseen
            rw [Except.pure_eq_ok_iff] at hcons
            refine ⟨others, hothers, ?_⟩
            rw [hworld, ← hcons, List.flatten_cons, List.foldl_append]

/-- What some captures say together. -/
theorem mem_observations {seen : List (List Observation)}
    (h : captures.mapM observationsOf = .ok seen) (item : Observation) :
    item ∈ seen.flatten ↔
      ∃ capture ∈ captures, ∃ own, observationsOf capture = .ok own ∧ item ∈ own := by
  induction captures generalizing seen with
  | nil =>
      rw [List.mapM_nil, Except.pure_eq_ok_iff] at h
      rw [← h]
      simp
  | cons capture rest ih =>
      rw [List.mapM_cons] at h
      obtain ⟨own, hown, h⟩ := Except.bind_eq_ok_iff.mp h
      obtain ⟨others, hothers, h⟩ := Except.bind_eq_ok_iff.mp h
      rw [Except.pure_eq_ok_iff] at h
      rw [← h, List.flatten_cons, List.mem_append, ih hothers]
      simp [hown]

/-- Captures that can all be read. -/
theorem mapM_ok_of_subset {seen : List (List Observation)}
    (h : captures.mapM observationsOf = .ok seen) (hsubset : ∀ c ∈ selected, c ∈ captures) :
    ∃ own, selected.mapM observationsOf = .ok own := by
  have hread : ∀ c ∈ captures, ∃ own, observationsOf c = .ok own := by
    clear hsubset
    induction captures generalizing seen with
    | nil =>
        intro c hc
        cases hc
    | cons capture rest ih =>
        rw [List.mapM_cons] at h
        obtain ⟨own, hown, h⟩ := Except.bind_eq_ok_iff.mp h
        obtain ⟨others, hothers, _⟩ := Except.bind_eq_ok_iff.mp h
        exact List.forall_mem_cons.mpr ⟨⟨own, hown⟩, ih hothers⟩
  induction selected with
  | nil => exact ⟨[], rfl⟩
  | cons capture rest ih =>
      obtain ⟨hcapture, hrest⟩ := List.forall_mem_cons.mp hsubset
      obtain ⟨own, hown⟩ := hread capture hcapture
      obtain ⟨others, hothers⟩ := ih hrest
      exact ⟨own :: others, by rw [List.mapM_cons, hown, Except.ok_bind, hothers]; rfl⟩

/-- Captures in another order and with other repetitions make the same index. -/
theorem index_order (h : captures.foldlM ExactTurnIndex.observeCapture .forTurns = .ok index)
    (hsame : ∀ c, c ∈ selected ↔ c ∈ captures) :
    selected.foldlM ExactTurnIndex.observeCapture .forTurns = .ok index := by
  obtain ⟨seen, hseen, rfl⟩ := observeCaptures_ok_iff.mp h
  obtain ⟨own, hown⟩ := mapM_ok_of_subset hseen fun c hc => (hsame c).mp hc
  refine observeCaptures_ok_iff.mpr ⟨own, hown, ?_⟩
  apply indexOf_congr
  intro item
  simp only [mem_observations hseen, mem_observations hown, hsame]

/-- A model request of a turn, with its trace and the span that it belongs to. -/
def wireCapture : Json :=
  .obj [("traceContext", .obj [("session_id", .str "s1"), ("turn_id", .str "t1"),
    ("trace_id", .str "0000000000000000000000000000000a"),
    ("parent_span_id", .str "000000000000000b")])]

def wireIndex : Except String ExactTurnIndex :=
  [wireCapture].foldlM ExactTurnIndex.observeCapture .forTurns

theorem wireIndex_isSome : wireIndex.toOption.isSome = true := by decide +kernel

theorem wireIndex_ok : ∃ index, wireIndex = .ok index := by
  have hsome := wireIndex_isSome
  cases hindex : wireIndex with
  | error _ =>
      rw [hindex] at hsome
      cases hsome
  | ok index => exact ⟨index, rfl⟩

theorem index_order_twice : ∃ index, wireIndex = .ok index ∧
    [wireCapture, wireCapture].foldlM ExactTurnIndex.observeCapture .forTurns = .ok index := by
  obtain ⟨index, hindex⟩ := wireIndex_ok
  exact ⟨index, hindex, index_order hindex fun c => by simp⟩

end Captures

end ChipTrace.TurnIdentity
