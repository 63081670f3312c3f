/-
Boundaries that are delivered twice: the assembled Session counts every copy.
-/
import ChipTrace.Sessions.Deliveries
import Mathlib.Data.List.Forall2
import Mathlib.Data.List.Perm.Basic

namespace ChipTrace

open Telemetry (pointer pointerStr)

/-- The capture is a boundary that a hook reported. -/
structure NativeBoundary (session : String) (capture : Json) (boundary : Boundary) : Prop where
  session : SessionView.sourceSession capture = some session
  event : ∃ event : JsonMap, capture.get? "lifecycleEvent" = some (.obj event) ∧
    match boundary with
    | .start =>
        event.get "source_event_name" = some (.str "SessionStart") ∧
          event.get "type" = some (.str "session_start") ∧
            isCompact (pointerStr (.obj event) ["source_event", "source"]) = false
    | .terminal =>
        event.get "source_event_name" = some (.str "SessionEnd") ∧
          event.get "type" = some (.str "session_end")

/-- A second delivery of a boundary: another capture, at most two seconds apart. -/
structure CopyOf (parseRfc3339 : String → Option Int) (session : String)
    (original copy : Json) : Prop where
  boundary : ∃ boundary, NativeBoundary session original boundary ∧
    NativeBoundary session copy boundary
  other : original.get? "captureId" ≠ copy.get? "captureId"
  near : ∃ first second, SessionView.boundaryMillis parseRfc3339 original = some first ∧
    SessionView.boundaryMillis parseRfc3339 copy = some second ∧
      (first - second).natAbs ≤ 2000

/-- Every boundary is delivered twice, in any order. -/
def Doubled (parseRfc3339 : String → Option Int) (session : String)
    (original delivered : List Json) : Prop :=
  ∃ copies, List.Forall₂ (CopyOf parseRfc3339 session) original copies ∧
    delivered.Perm (original ++ copies)

/-- The capture as assembly has parsed it; the other fields do not matter here. -/
def ParsesTo (capture : Json) (parsed : Assemble.ParsedCapture) : Prop :=
  parsed.lifecycleEventRecords = Assemble.lifecycleEventRecords capture parsed.captureId

/-- The three readers report what they report without the copies, and the same. -/
structure Harmless (parseRfc3339 : String → Option Int) (session : String)
    (original delivered : List Json) (parsed parsedDelivered : List Assemble.ParsedCapture) :
    Prop where
  view : SessionView.report parseRfc3339 session delivered =
    SessionView.report parseRfc3339 session original
  root : RootSpan.report delivered = RootSpan.report original
  rootStatus : RootSpan.status delivered = RootSpan.status original ∧
    RootSpan.rootComplete delivered = RootSpan.rootComplete original
  assembled : Assemble.report parsedDelivered = Assemble.report parsed
  assembledStatus : Assemble.sessionStatus parsedDelivered = Assemble.sessionStatus parsed
  agree : SessionView.report parseRfc3339 session delivered = RootSpan.report delivered ∧
    RootSpan.report delivered = Assemble.report parsedDelivered

section Records

/-- An observed event is no hook's record. -/
theorem stockHookBoundaryRecord_observed (captureId event : String) :
    Assemble.stockHookBoundaryRecord (Json.mkObj [("capture_id", .str captureId),
      ("type", .str event), ("source", .str "observed")]) = none := by
  have hname : (Json.mkObj [("capture_id", .str captureId), ("type", .str event),
      ("source", .str "observed")]).get? "source_event_name" = none := by
    rw [Json.get?_mkObj (by simp)]
    rfl
  rw [Assemble.stockHookBoundaryRecord, hname]
  rfl

/-- Reading a record skips the fields that parsing adds. -/
theorem stockHookBoundaryRecord_orInsert {event : JsonMap} {key : String} {value : Json}
    (hname : "source_event_name" ≠ key) (hsource : "source_event" ≠ key) :
    Assemble.stockHookBoundaryRecord (.obj (Assemble.orInsert event key value)) =
      Assemble.stockHookBoundaryRecord (.obj event) := by
  have hget : (Json.obj (Assemble.orInsert event key value)).get? "source_event_name" =
      (Json.obj event).get? "source_event_name" := Assemble.get_orInsert_of_ne hname
  have hpointer : pointerStr (.obj (Assemble.orInsert event key value))
      ["source_event", "source"] = pointerStr (.obj event) ["source_event", "source"] := by
    have hstep : Telemetry.pointerStep (.obj (Assemble.orInsert event key value))
        "source_event" = Telemetry.pointerStep (.obj event) "source_event" :=
      Assemble.get_orInsert_of_ne hsource
    simp only [pointerStr, pointer, List.foldl_cons, Option.bind_some, hstep]
  rw [Assemble.stockHookBoundaryRecord, Assemble.stockHookBoundaryRecord, hget, hpointer]

theorem stockHookBoundaryEvent_native {session : String} {capture : Json} {boundary : Boundary}
    {parsed : Assemble.ParsedCapture} (hnative : NativeBoundary session capture boundary)
    (hparsed : ParsesTo capture parsed) :
    Assemble.stockHookBoundaryEvent parsed = some (SessionView.boundaryEvent boundary) := by
  obtain ⟨event, hevent, hfields⟩ := hnative.event
  rw [Assemble.stockHookBoundaryEvent, hparsed, Assemble.lifecycleEventRecords, hevent]
  simp only
  have hobserved : ∀ events : List Json, (events.filterMap fun event =>
      event.asStr.map fun event => Json.mkObj [("capture_id", .str parsed.captureId),
        ("type", .str event), ("source", .str "observed")]).findSome?
          Assemble.stockHookBoundaryRecord = none := by
    intro events
    rw [List.findSome?_eq_none_iff]
    intro record hrecord
    obtain ⟨source, _, hmap⟩ := List.mem_filterMap.mp hrecord
    obtain ⟨text, _, rfl⟩ := Option.map_eq_some_iff.mp hmap
    exact stockHookBoundaryRecord_observed parsed.captureId text
  rw [List.findSome?_append, hobserved, Option.none_or, List.findSome?_singleton,
    stockHookBoundaryRecord_orInsert (by decide) (by decide),
    stockHookBoundaryRecord_orInsert (by decide) (by decide)]
  cases boundary with
  | start =>
      obtain ⟨hname, _, hcompact⟩ := hfields
      have hget : (Json.obj event).get? "source_event_name" = some (.str "SessionStart") := hname
      rw [Assemble.stockHookBoundaryRecord, hget]
      simp only [Option.bind_some, Json.asStr, hcompact]
      rfl
  | terminal =>
      have hget : (Json.obj event).get? "source_event_name" = some (.str "SessionEnd") := hfields.1
      rw [Assemble.stockHookBoundaryRecord, hget]
      rfl

end Records

section Counts

theorem observeEvent_boundary (state : LifecycleState) (boundary : Boundary)
    (captureId : String) :
    (state.observeEvent (SessionView.boundaryEvent boundary) captureId true).1 =
      state.observe boundary (SessionView.boundaryEvent boundary) captureId true := by
  have hstart : normalizeEvent "session_start" = "session_start" := by decide +kernel
  have hend : normalizeEvent "session_end" = "session_end" := by decide +kernel
  have hisStart : isStartEvent "session_start" = true := by decide +kernel
  have hisNotStart : isStartEvent "session_end" = false := by decide +kernel
  have hisTerminal : isTerminalEvent "session_end" = true := by decide +kernel
  cases boundary with
  | start =>
      simp only [LifecycleState.observeEvent, SessionView.boundaryEvent, hstart, hisStart,
        if_true]
  | terminal =>
      simp only [LifecycleState.observeEvent, SessionView.boundaryEvent, hend, hisNotStart,
        hisTerminal, if_true, Bool.false_eq_true, if_false]

/-- The name that the hook gave the capture is that of a start. -/
def namesStart (capture : Json) : Bool :=
  pointerStr capture ["lifecycleEvent", "source_event_name"] == some "SessionStart"

theorem namesStart_native {session : String} {capture : Json} {boundary : Boundary}
    (hnative : NativeBoundary session capture boundary) :
    namesStart capture = decide (boundary = .start) := by
  obtain ⟨event, hevent, hfields⟩ := hnative.event
  have hpointer : pointerStr capture ["lifecycleEvent", "source_event_name"] =
      (event.get "source_event_name").bind Json.asStr := by
    cases capture with
    | obj fields =>
        have hlookup : OrdMap.lookup "lifecycleEvent" fields = some (.obj event) := hevent
        simp [pointerStr, pointer, Telemetry.pointerStep, hlookup]
    | null => cases hevent
    | bool value => cases hevent
    | num value => cases hevent
    | str value => cases hevent
    | arr items => cases hevent
  rw [namesStart, hpointer]
  cases boundary with
  | start =>
      rw [hfields.1]
      rfl
  | terminal =>
      rw [hfields.1]
      rfl

/-- A native boundary, and the capture that assembly parses from it. -/
def Read (session : String) (capture : Json) (parsed : Assemble.ParsedCapture) : Prop :=
  (∃ boundary, NativeBoundary session capture boundary) ∧ ParsesTo capture parsed

theorem exists_word {session : String} {captures : List Json}
    {parsed : List Assemble.ParsedCapture} (h : List.Forall₂ (Read session) captures parsed) :
    ∃ word : List Observed,
      word.map (fun seen => decide (seen.boundary = .start)) = captures.map namesStart ∧
        ∀ state : LifecycleState,
          parsed.foldl
            (fun state capture =>
              match Assemble.stockHookBoundaryEvent capture with
              | some event => (state.observeEvent event capture.captureId true).1
              | none => state) state = observeAll state word := by
  induction h with
  | nil => exact ⟨[], rfl, fun _ => rfl⟩
  | @cons capture parsedCapture _ _ hread _ ih =>
      obtain ⟨word, hnames, hrun⟩ := ih
      obtain ⟨⟨boundary, hnative⟩, hparsed⟩ := hread
      refine ⟨⟨boundary, SessionView.boundaryEvent boundary, parsedCapture.captureId⟩ :: word,
        ?_, ?_⟩
      · rw [List.map_cons, List.map_cons, hnames, namesStart_native hnative]
      · intro state
        rw [List.foldl_cons, hrun, stockHookBoundaryEvent_native hnative hparsed]
        simp only [observeEvent_boundary]
        rfl

theorem sessionLifecycleState_native {session : String} {captures : List Json}
    {parsed : List Assemble.ParsedCapture} (h : List.Forall₂ (Read session) captures parsed) :
    ∃ (word : List Observed) (source : String),
      word.map (fun seen => decide (seen.boundary = .start)) = captures.map namesStart ∧
        Assemble.sessionLifecycleState parsed = observeAll (.new source) word := by
  cases h with
  | nil => exact ⟨[], "lifecycle_event", rfl, rfl⟩
  | cons hread hrest =>
      obtain ⟨word, hnames, hrun⟩ := exists_word (List.Forall₂.cons hread hrest)
      obtain ⟨⟨boundary, hnative⟩, hparsed⟩ := hread
      refine ⟨word, "stock_codex_hook", hnames, ?_⟩
      rw [Assemble.sessionLifecycleState, if_pos]
      · exact hrun _
      · rw [List.any_cons, stockHookBoundaryEvent_native hnative hparsed]
        rfl

theorem startCount_observeAll (state : LifecycleState) (word : List Observed) :
    (observeAll state word).startCount =
      state.startCount + word.countP fun seen => seen.boundary = .start := by
  induction word generalizing state with
  | nil => rfl
  | cons seen rest ih =>
      have hstep : (state.observe seen.boundary seen.event seen.captureId true).startCount =
          state.startCount + if seen.boundary = .start then 1 else 0 := by
        cases hboundary : seen.boundary with
        | start => rfl
        | terminal =>
            have hne : ¬ Boundary.terminal = .start := nofun
            rw [if_neg hne, LifecycleState.observe]
            dsimp only
            split_ifs
            · rfl
            · rfl
      have hrest := ih (state.observe seen.boundary seen.event seen.captureId true)
      rw [hstep] at hrest
      rw [List.countP_cons]
      simp only [decide_eq_true_eq]
      rw [observeAll, List.foldl_cons, ← observeAll, hrest]
      omega

/-- Without any start every terminal is invalid. -/
theorem invalidBoundaryCount_terminals (state : LifecycleState) (word : List Observed)
    (hnone : ∀ seen ∈ word, seen.boundary = .terminal) (hstate : state.startCount = 0) :
    (observeAll state word).invalidBoundaryCount = state.invalidBoundaryCount + word.length := by
  induction word generalizing state with
  | nil => rfl
  | cons seen rest ih =>
      have hseen : seen.boundary = .terminal := hnone seen List.mem_cons_self
      have hstray : state.startCount < state.terminalCount + 1 := by omega
      rw [observeAll, List.foldl_cons, ← observeAll, hseen,
        ih _ (fun other hother => hnone other (List.mem_cons_of_mem seen hother))]
      · simp only [LifecycleState.observe, hstray, decide_true, Bool.and_self, if_true,
          List.length_cons]
        omega
      · simp [LifecycleState.observe, hstray, hstate]

end Counts

section Copies

variable {parseRfc3339 : String → Option Int} {session : String}

theorem namesStart_copies {original copies : List Json}
    (h : List.Forall₂ (CopyOf parseRfc3339 session) original copies) :
    copies.map namesStart = original.map namesStart := by
  induction h with
  | nil => rfl
  | cons hcopy _ ih =>
      obtain ⟨boundary, hfirst, hsecond⟩ := hcopy.boundary
      rw [List.map_cons, List.map_cons, ih, namesStart_native hfirst, namesStart_native hsecond]

theorem read_of_native {captures : List Json} {parsed : List Assemble.ParsedCapture}
    (hnative : ∀ capture ∈ captures, ∃ boundary, NativeBoundary session capture boundary)
    (hparsed : List.Forall₂ ParsesTo captures parsed) :
    List.Forall₂ (Read session) captures parsed := by
  induction hparsed with
  | nil => exact List.Forall₂.nil
  | @cons capture parsedCapture captures _ hparse _ ih =>
      refine List.Forall₂.cons ⟨hnative capture List.mem_cons_self, hparse⟩ (ih ?_)
      exact fun other hother => hnative other (List.mem_cons_of_mem capture hother)

theorem native_of_copies {original copies : List Json}
    (h : List.Forall₂ (CopyOf parseRfc3339 session) original copies) :
    ∀ capture ∈ original ++ copies, ∃ boundary, NativeBoundary session capture boundary := by
  induction h with
  | nil => nofun
  | cons hcopy _ ih =>
      obtain ⟨boundary, hfirst, hsecond⟩ := hcopy.boundary
      intro capture hcapture
      simp only [List.cons_append, List.mem_cons, List.mem_append] at hcapture ih
      rcases hcapture with rfl | hold | rfl | hnew
      · exact ⟨boundary, hfirst⟩
      · exact ih capture (Or.inl hold)
      · exact ⟨boundary, hsecond⟩
      · exact ih capture (Or.inr hnew)

theorem startCount_native {captures : List Json} {word : List Observed}
    (hnames : word.map (fun seen => decide (seen.boundary = .start)) = captures.map namesStart)
    (source : String) :
    (observeAll (.new source) word).startCount = (captures.map namesStart).count true := by
  rw [startCount_observeAll, ← hnames, List.count, List.countP_map]
  simp [LifecycleState.new, Function.comp_def]

theorem terminals_of_no_start {captures : List Json} {word : List Observed}
    (hnames : word.map (fun seen => decide (seen.boundary = .start)) = captures.map namesStart)
    (hnone : (captures.map namesStart).count true = 0) :
    ∀ seen ∈ word, seen.boundary = .terminal := by
  intro seen hseen
  cases hboundary : seen.boundary with
  | terminal => rfl
  | start =>
      have hmem : true ∈ captures.map namesStart := by
        rw [← hnames, List.mem_map]
        exact ⟨seen, hseen, by simp [hboundary]⟩
      exact absurd hmem (List.count_eq_zero.mp hnone)

/-- The three readers report the same with and without the copies exactly when there is no
boundary at all. -/
theorem doubled_harmless_iff {original delivered : List Json}
    {parsed parsedDelivered : List Assemble.ParsedCapture}
    (hdoubled : Doubled parseRfc3339 session original delivered)
    (hparsed : List.Forall₂ ParsesTo original parsed)
    (hparsedDelivered : List.Forall₂ ParsesTo delivered parsedDelivered) :
    Harmless parseRfc3339 session original delivered parsed parsedDelivered ↔
      original = [] := by
  obtain ⟨copies, hcopies, hperm⟩ := hdoubled
  have hnative := native_of_copies hcopies
  constructor
  · intro hharmless
    obtain ⟨word, source, hnames, hstate⟩ := sessionLifecycleState_native
      (read_of_native (fun capture hcapture =>
        hnative capture (List.mem_append_left copies hcapture)) hparsed)
    obtain ⟨word', source', hnames', hstate'⟩ := sessionLifecycleState_native
      (read_of_native (fun capture hcapture =>
        hnative capture (hperm.mem_iff.mp hcapture)) hparsedDelivered)
    have hreport := hharmless.assembled
    rw [Assemble.report, Assemble.report, hstate, hstate', EpochReport.mk.injEq] at hreport
    obtain ⟨hepochs, _, hinvalid⟩ := hreport
    have htwice : (delivered.map namesStart).count true =
        (original.map namesStart).count true + (original.map namesStart).count true := by
      rw [(hperm.map namesStart).count_eq, List.map_append, List.count_append,
        namesStart_copies hcopies]
    rw [startCount_native hnames', startCount_native hnames, htwice] at hepochs
    have hnoStart : (original.map namesStart).count true = 0 := by omega
    have hnoStart' : (delivered.map namesStart).count true = 0 := by omega
    rw [invalidBoundaryCount_terminals _ _ (terminals_of_no_start hnames' hnoStart') rfl,
      invalidBoundaryCount_terminals _ _ (terminals_of_no_start hnames hnoStart) rfl] at hinvalid
    have hlength : word.length = original.length := by
      have hlengths := congrArg List.length hnames
      simpa using hlengths
    have hlength' : word'.length = delivered.length := by
      have hlengths := congrArg List.length hnames'
      simpa using hlengths
    have hdouble : delivered.length = original.length + original.length := by
      rw [hperm.length_eq, List.length_append, hcopies.length_eq]
    rw [hlength, hlength', hdouble] at hinvalid
    apply List.eq_nil_of_length_eq_zero
    simp only [LifecycleState.new] at hinvalid
    omega
  · rintro rfl
    cases hcopies
    obtain rfl : delivered = [] := hperm.eq_nil
    cases hparsed
    cases hparsedDelivered
    exact ⟨rfl, rfl, ⟨rfl, rfl⟩, rfl, rfl, ⟨rfl, rfl⟩⟩

end Copies

namespace Samples

/-- The capture of a boundary of the Session `s`. -/
def boundaryCapture (captureId hookName eventType occurredAt : String) : Json :=
  .obj [("captureId", .str captureId),
    ("lifecycleEvent", .obj [("occurred_at", .str occurredAt),
      ("source_event_name", .str hookName), ("type", .str eventType)]),
    ("recordType", .str "lifecycle_event"),
    ("traceContext", .obj [("session_id", .str "s")])]

/-- The times of the samples in nanoseconds. -/
def parseRfc3339 (text : String) : Option Int :=
  if text = "2026-10-20T07:14:49.169Z" then some 1792480489169000000
  else if text = "2026-10-20T07:14:49.172Z" then some 1792480489172000000
  else none

def start : Json :=
  boundaryCapture "cap-1" "SessionStart" "session_start" "2026-10-20T07:14:49.169Z"

def startCopy : Json :=
  boundaryCapture "cap-2" "SessionStart" "session_start" "2026-10-20T07:14:49.172Z"

def parsed (captureId : String) (capture : Json) : Assemble.ParsedCapture :=
  { captureId := captureId
    lifecycleEventRecords := Assemble.lifecycleEventRecords capture captureId }

theorem parsesTo_parsed (captureId : String) (capture : Json) :
    ParsesTo capture (parsed captureId capture) := rfl

theorem start_native : NativeBoundary "s" start .start :=
  ⟨by decide +kernel, _, rfl, rfl, rfl, by decide +kernel⟩

theorem startCopy_native : NativeBoundary "s" startCopy .start :=
  ⟨by decide +kernel, _, rfl, rfl, rfl, by decide +kernel⟩

theorem start_copyOf : CopyOf parseRfc3339 "s" start startCopy where
  boundary := ⟨.start, start_native, startCopy_native⟩
  other := by decide +kernel
  near := ⟨1792480489169, 1792480489172, by decide +kernel, by decide +kernel, by decide⟩

theorem start_doubled : Doubled parseRfc3339 "s" [start] [start, startCopy] :=
  ⟨[startCopy], .cons start_copyOf .nil, List.Perm.refl _⟩

end Samples

/-- A start that is delivered twice is not harmless. -/
theorem doubled_harmless_iff_start :
    ¬ Harmless Samples.parseRfc3339 "s" [Samples.start] [Samples.start, Samples.startCopy]
      [Samples.parsed "cap-1" Samples.start]
      [Samples.parsed "cap-1" Samples.start, Samples.parsed "cap-2" Samples.startCopy] := by
  intro hharmless
  have hnone := (doubled_harmless_iff Samples.start_doubled
    (.cons (Samples.parsesTo_parsed _ _) .nil)
    (.cons (Samples.parsesTo_parsed _ _) (.cons (Samples.parsesTo_parsed _ _) .nil))).mp hharmless
  exact List.cons_ne_nil _ _ hnone

/-- The assembled Session counts two epochs where there is one. -/
theorem not_doubled_harmless :
    ¬ ∀ (original delivered : List Json) (parsed parsedDelivered : List Assemble.ParsedCapture),
      Doubled Samples.parseRfc3339 "s" original delivered →
        List.Forall₂ ParsesTo original parsed →
          List.Forall₂ ParsesTo delivered parsedDelivered →
            Harmless Samples.parseRfc3339 "s" original delivered parsed parsedDelivered := by
  intro h
  have hharmless := h _ _ [Samples.parsed "cap-1" Samples.start]
    [Samples.parsed "cap-1" Samples.start, Samples.parsed "cap-2" Samples.startCopy]
    Samples.start_doubled (.cons (Samples.parsesTo_parsed _ _) .nil)
    (.cons (Samples.parsesTo_parsed _ _) (.cons (Samples.parsesTo_parsed _ _) .nil))
  have hepochs := congrArg EpochReport.epochs hharmless.assembled
  revert hepochs
  decide +kernel

end ChipTrace
