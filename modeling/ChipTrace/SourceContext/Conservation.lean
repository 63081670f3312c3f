/-
No record is lost in a source-context audit: every record that is read gets one disposition of its
source, every gap is in a group or counted as omitted, and the samples are some of the gaps.
-/
import ChipTrace.SourceContext.Audit
import ChipTrace.Lib.Result

namespace ChipTrace.SourceContext

open Telemetry (pointerStr)
open TurnIdentity (rawBatch)

section Visits

/-- A loop that fails nowhere is followed by another whose rounds follow its rounds. -/
theorem foldlM_simulates {ε σ τ α : Type} {step : σ → α → Except ε σ} {follow : τ → α → Except ε τ}
    (rel : σ → τ → Prop)
    (hstep : ∀ state other item next, rel state other → step state item = .ok next →
      ∃ after, follow other item = .ok after ∧ rel next after)
    {items : List α} {start finish : σ} {other : τ} (hstart : rel start other)
    (hrun : items.foldlM step start = .ok finish) :
    ∃ after, items.foldlM follow other = .ok after ∧ rel finish after := by
  induction items generalizing start other with
  | nil =>
      rw [List.foldlM_nil, Except.pure_eq_ok_iff] at hrun
      exact ⟨other, rfl, hrun ▸ hstart⟩
  | cons item rest ih =>
      rw [List.foldlM_cons, Except.bind_eq_ok_iff] at hrun
      obtain ⟨mid, hmid, hrest⟩ := hrun
      obtain ⟨after, hafter, hrel⟩ := hstep start other item mid hstart hmid
      obtain ⟨last, hlast, hfinish⟩ := ih hrel hrest
      refine ⟨last, ?_, hfinish⟩
      rw [List.foldlM_cons, hafter, Except.ok_bind, hlast]

/-- Two visits of an export meet the same records. -/
theorem visitOtlpEnvelope_simulates {σ τ : Type} {endpoint : String} {raw : Json}
    {visit : σ → Json → Table String String → Except String σ}
    {follow : τ → Json → Table String String → Except String τ} (rel : σ → τ → Prop)
    (hvisit : ∀ state other record merged next, rel state other →
      visit state record merged = .ok next →
      ∃ after, follow other record merged = .ok after ∧ rel next after)
    {start finish : σ} {other : τ} (hstart : rel start other)
    (hrun : visitOtlpEnvelope endpoint raw visit start = .ok finish) :
    ∃ after, visitOtlpEnvelope endpoint raw follow other = .ok after ∧ rel finish after := by
  rw [visitOtlpEnvelope] at hrun ⊢
  cases hfields : otlpFields endpoint with
  | none =>
      simp only [hfields] at hrun
      exact ⟨other, rfl, Except.ok.inj hrun ▸ hstart⟩
  | some fields =>
      simp only [hfields] at hrun
      dsimp only
      obtain ⟨_, hvalid, hrun⟩ := Except.bind_eq_ok_iff.mp hrun
      rw [hvalid, Except.ok_bind]
      refine foldlM_simulates rel ?_ hstart hrun
      intro state other resource next hrel hnext
      obtain ⟨outer, houter, hscopes⟩ := Except.bind_eq_ok_iff.mp hnext
      rw [houter, Except.ok_bind]
      refine foldlM_simulates rel ?_ hrel hscopes
      intro state other scope next hrel hnext
      obtain ⟨layered, hlayered, hrecords⟩ := Except.bind_eq_ok_iff.mp hnext
      rw [hlayered, Except.ok_bind]
      refine foldlM_simulates rel ?_ hrel hrecords
      intro state other record next hrel hnext
      obtain ⟨merged, hmerged, hnext⟩ := Except.bind_eq_ok_iff.mp hnext
      obtain ⟨after, hafter, hrel⟩ := hvisit _ _ _ _ _ hrel hnext
      exact ⟨after, by rw [hmerged, Except.ok_bind, hafter], hrel⟩

end Visits

/-- The records of a source that have a disposition. -/
def SourceContextCounts.settled (counts : SourceContextCounts) : Nat :=
  counts.turnAssignedRecords + counts.sessionLevelRecords + counts.processLevelRecords +
    counts.unscopedTurnRecords + counts.otherSessionRecords + counts.unknownSessionRecords +
    counts.ambientRecords

/-- The records of a source that are charged as gaps. -/
def SourceContextCounts.gapRecords (counts : SourceContextCounts) : Nat :=
  counts.unscopedTurnRecords + counts.unknownSessionRecords

def countsOf (sources : Table String SourceContextCounts) (source : String) :
    SourceContextCounts :=
  (sources.get? source).getD {}

def sourceOf (key : PendingKey) : String := (ofLex (ofLex key).2).1

def producerOf (key : PendingKey) : String := (ofLex key).1

/-- The gaps that are held back for some keys. -/
def heldRecords (pending : Table PendingKey Nat) (keep : PendingKey → Bool) : Nat :=
  pending.weigh fun key records => if keep key then records else 0

section Weights

theorem heldRecords_source (pending : Table PendingKey Nat) (source : String) :
    (heldRecords pending fun key => sourceOf key = source) =
      (pending.entries.map fun entry => if sourceOf entry.1 = source then entry.2 else 0).sum := by
  simp only [heldRecords, decide_eq_true_eq]
  rfl

variable {sources : Table String SourceContextCounts} {source : String}
  {update : SourceContextCounts → SourceContextCounts}

theorem countsOf_updateCounts (other : String) :
    countsOf (updateCounts sources source update) other =
      if other = source then update (countsOf sources source) else countsOf sources other := by
  rw [countsOf, updateCounts, Table.get?_insert]
  split_ifs <;> rfl

/-- Two updates of a source are one. -/
theorem updateCounts_twice {first : SourceContextCounts → SourceContextCounts} :
    updateCounts (updateCounts sources source first) source update =
      updateCounts sources source fun counts => update (first counts) := by
  apply Table.ext_get?
  intro other
  simp only [updateCounts, Table.get?_insert]
  split_ifs with h
  · rfl
  · rfl

theorem isSome_updateCounts (other : String) :
    ((updateCounts sources source update).get? other).isSome =
      (decide (other = source) || (sources.get? other).isSome) := by
  rw [updateCounts, Table.get?_insert]
  split_ifs with h
  · simp [h]
  · simp [h]

theorem weigh_updateCounts {weight : SourceContextCounts → Nat} (hzero : weight {} = 0) :
    (updateCounts sources source update).weigh (fun _ => weight) +
        weight (countsOf sources source) =
      sources.weigh (fun _ => weight) + weight (update (countsOf sources source)) := by
  have hinsert := sources.weigh_insert (fun _ => weight) source (update (countsOf sources source))
  rw [updateCounts, ← hinsert, countsOf]
  cases sources.get? source with
  | none => rw [Option.getD_none, Option.map_none, Option.getD_none, hzero]
  | some counts => rfl

theorem weigh_raise {K : Type} [LinearOrder K] (tally : Table K Nat) (key : K) (records : Nat)
    (keep : K → Bool) :
    (raise tally key records).weigh (fun k n => if keep k then n else 0) =
      tally.weigh (fun k n => if keep k then n else 0) + if keep key then records else 0 := by
  have hinsert := tally.weigh_insert (fun k n => if keep k then n else 0) key
    (Tally.count tally key + records)
  rw [raise]
  rw [Tally.count] at hinsert ⊢
  cases hget : tally.get? key with
  | none =>
      rw [hget] at hinsert
      simpa using hinsert
  | some old =>
      rw [hget] at hinsert
      simp only [Option.map_some, Option.getD_some] at hinsert ⊢
      split_ifs at hinsert ⊢ <;> omega

theorem weigh_raise_all {K : Type} [LinearOrder K] (tally : Table K Nat) (key : K)
    (records : Nat) :
    (raise tally key records).weigh (fun _ n => n) = tally.weigh (fun _ n => n) + records := by
  simpa using weigh_raise tally key records fun _ => true

end Weights

section Reading

variable {index : Index} {builder next : SourceContextAuditBuilder} {source captureId : String}
  {record : Json} {attributes : Table String String} {observed : SourceObservation}

/-- What holds while captures are read: the records of a source are those with a disposition and
those held back, and every sample is one of the latter. -/
structure Held (builder : SourceContextAuditBuilder) : Prop where
  conserved : ∀ source, (countsOf builder.sources source).totalRecords =
    (countsOf builder.sources source).settled +
      heldRecords builder.pending fun key => sourceOf key = source
  uncharged : builder.sources.weigh (fun _ => SourceContextCounts.gapRecords) = 0
  noAmbient : builder.sources.weigh (fun _ => SourceContextCounts.ambientRecords) = 0
  named : ∀ source, (builder.sources.get? source).isSome →
    source = "otlp_logs" ∨ source = "otlp_traces"
  present : ∀ key, (builder.pending.get? key).isSome →
    (builder.sources.get? (sourceOf key)).isSome
  sampled : ∀ keep : String → Bool, (builder.pendingSamples.countP fun sample => keep sample.1) ≤
    heldRecords builder.pending fun key => keep (producerOf key)
  ungrouped : builder.groups = Table.empty ∧ builder.omittedGapRecords = 0 ∧ builder.gaps = 0

/-- A record that is counted at once has exactly one disposition, and is no gap. -/
theorem counted_adds {allowed : OrdSet String} {update : SourceContextCounts → SourceContextCounts}
    (h : dispositionOf observed allowed = .counted update) (counts : SourceContextCounts) :
    (update counts).settled = counts.settled + 1 ∧
      (update counts).totalRecords = counts.totalRecords ∧
      (update counts).gapRecords = counts.gapRecords ∧
      (update counts).ambientRecords = counts.ambientRecords := by
  rw [dispositionOf] at h
  split_ifs at h <;> cases h <;>
    refine ⟨?_, rfl, rfl, rfl⟩ <;>
    simp only [SourceContextCounts.settled] <;> omega

/-- A record is read into its source before its disposition is known. -/
theorem Held.countRecord (h : Held builder)
    (hsource : source = "otlp_logs" ∨ source = "otlp_traces") (hits : Table String Bool)
    {update : SourceContextCounts → SourceContextCounts}
    (hupdate : ∀ counts, (update counts).settled = counts.settled + 1 ∧
      (update counts).totalRecords = counts.totalRecords + 1 ∧
      (update counts).gapRecords = counts.gapRecords ∧
      (update counts).ambientRecords = counts.ambientRecords) :
    Held { builder with
      sources := updateCounts builder.sources source update
      producerHits := hits } := by
  constructor
  case conserved =>
    intro other
    dsimp only
    rw [countsOf_updateCounts]
    split_ifs with hother
    · have hconserved := h.conserved source
      rw [hother, (hupdate _).1, (hupdate _).2.1]
      omega
    · exact h.conserved other
  case uncharged =>
    have hweigh := @weigh_updateCounts builder.sources source update
      SourceContextCounts.gapRecords rfl
    rw [h.uncharged, (hupdate _).2.2.1] at hweigh
    dsimp only
    omega
  case noAmbient =>
    have hweigh := @weigh_updateCounts builder.sources source update
      SourceContextCounts.ambientRecords rfl
    rw [h.noAmbient, (hupdate _).2.2.2] at hweigh
    dsimp only
    omega
  case named =>
    intro other hother
    rw [isSome_updateCounts, Bool.or_eq_true, decide_eq_true_eq] at hother
    exact hother.elim (fun heq => heq ▸ hsource) (h.named other)
  case present =>
    intro key hkey
    dsimp only
    rw [isSome_updateCounts, h.present key hkey, Bool.or_true]
  case sampled => exact h.sampled
  case ungrouped => exact h.ungrouped

theorem heldRecords_raise (pending : Table PendingKey Nat) (key : PendingKey)
    (keep : PendingKey → Bool) :
    heldRecords (raise pending key 1) keep =
      heldRecords pending keep + if keep key then 1 else 0 :=
  weigh_raise pending key 1 keep

/-- One more record of a source, without a disposition. -/
def countTotal (counts : SourceContextCounts) : SourceContextCounts :=
  { counts with totalRecords := counts.totalRecords + 1 }

/-- A gap is read into its source and held back. -/
theorem Held.holdBack (h : Held builder) (hsource : source = "otlp_logs" ∨ source = "otlp_traces")
    (hits : Table String Bool) (producer : String) {sample : ContextGapSample}
    (hgap : (ofLex sample.gap).1 = source) :
    Held (SourceContext.holdBack { builder with
      sources := updateCounts builder.sources source countTotal
      producerHits := hits } producer sample) := by
  have hkey : sourceOf (toLex (producer, sample.gap)) = source := hgap
  constructor
  case conserved =>
    intro other
    dsimp only [SourceContext.holdBack]
    rw [countsOf_updateCounts, heldRecords_raise, hkey]
    have hconserved := h.conserved other
    split_ifs with hother hkeep hkeep
    · rw [hother] at hconserved ⊢
      simp only [countTotal, SourceContextCounts.settled] at hconserved ⊢
      omega
    · exact absurd hother.symm (of_decide_eq_false (Bool.eq_false_of_not_eq_true hkeep))
    · exact absurd (of_decide_eq_true hkeep).symm hother
    · exact hconserved
  case uncharged =>
    have hweigh := @weigh_updateCounts builder.sources source countTotal
      SourceContextCounts.gapRecords rfl
    rw [h.uncharged] at hweigh
    simp only [countTotal, SourceContextCounts.gapRecords] at hweigh
    dsimp only [SourceContext.holdBack, SourceContextCounts.gapRecords]
    omega
  case noAmbient =>
    have hweigh := @weigh_updateCounts builder.sources source countTotal
      SourceContextCounts.ambientRecords rfl
    rw [h.noAmbient] at hweigh
    simp only [countTotal] at hweigh
    dsimp only [SourceContext.holdBack]
    omega
  case named =>
    intro other hother
    dsimp only [SourceContext.holdBack] at hother
    rw [isSome_updateCounts, Bool.or_eq_true, decide_eq_true_eq] at hother
    exact hother.elim (fun heq => heq ▸ hsource) (h.named other)
  case present =>
    intro key hstored
    dsimp only [SourceContext.holdBack, raise] at hstored ⊢
    rw [isSome_updateCounts, Bool.or_eq_true, decide_eq_true_eq]
    rw [Table.get?_insert] at hstored
    split_ifs at hstored with hsame
    · rw [hsame]
      exact Or.inl hkey
    · exact Or.inr (h.present key hstored)
  case sampled =>
    intro keep
    have hsampled := h.sampled keep
    dsimp only [SourceContext.holdBack]
    rw [heldRecords_raise]
    have hproducer : producerOf (toLex (producer, sample.gap)) = producer := rfl
    rw [hproducer]
    split_ifs with hroom hkeep hkeep
    · rw [List.countP_append, List.countP_singleton, if_pos hkeep]
      omega
    · rw [List.countP_append, List.countP_singleton, if_neg hkeep]
      omega
    · omega
    · omega
  case ungrouped => exact h.ungrouped

/-- The records that were counted into the sources. -/
def totalOf (sources : Table String SourceContextCounts) : Nat :=
  sources.weigh fun _ => SourceContextCounts.totalRecords

theorem totalOf_updateCounts {sources : Table String SourceContextCounts}
    {update : SourceContextCounts → SourceContextCounts}
    (hupdate : ∀ counts, (update counts).totalRecords = counts.totalRecords + 1) :
    totalOf (updateCounts sources source update) = totalOf sources + 1 := by
  have hweigh := @weigh_updateCounts sources source update SourceContextCounts.totalRecords rfl
  rw [hupdate] at hweigh
  rw [totalOf, totalOf]
  omega

/-- Sources of the same names with the same totals have the same total. -/
theorem totalOf_congr {left right : Table String SourceContextCounts}
    (hnames : ∀ source, (left.get? source).isSome ↔ (right.get? source).isSome)
    (htotals : ∀ source, (countsOf left source).totalRecords =
      (countsOf right source).totalRecords) : totalOf left = totalOf right := by
  apply Table.weigh_congr (fun source => ?_) fun _ n => n
  have hname := hnames source
  have htotal := htotals source
  rw [countsOf, countsOf] at htotal
  cases hleft : left.get? source with
  | none =>
      cases hright : right.get? source with
      | none => rfl
      | some counts => simp [hleft, hright] at hname
  | some counts =>
      cases hright : right.get? source with
      | none => simp [hleft, hright] at hname
      | some others =>
          rw [hleft, hright] at htotal
          exact congrArg some htotal

/-- An audit keeps its Session and its sample limit. -/
def SourceContextAuditBuilder.SameSettings (later builder : SourceContextAuditBuilder) : Prop :=
  later.sessionId = builder.sessionId ∧ later.sampleLimit = builder.sampleLimit

theorem SourceContextAuditBuilder.SameSettings.trans {last later : SourceContextAuditBuilder}
    (h : last.SameSettings later) (hlater : later.SameSettings builder) :
    last.SameSettings builder :=
  ⟨h.1.trans hlater.1, h.2.trans hlater.2⟩

/-- A record is read once, and what holds goes on to hold. -/
theorem held_observeRecord (h : Held builder)
    (hsource : source = "otlp_logs" ∨ source = "otlp_traces") {ordinal : Nat}
    {state : SourceContextAuditBuilder × Nat}
    (hstep : observeRecord index source captureId (builder, ordinal) record attributes =
      .ok state) :
    Held state.1 ∧ state.2 = ordinal + 1 ∧
      totalOf state.1.sources = totalOf builder.sources + 1 ∧ state.1.SameSettings builder := by
  obtain ⟨observed, _, hstep⟩ := Except.bind_eq_ok_iff.mp hstep
  cases hdisposition : dispositionOf observed builder.allowed with
  | counted update =>
      simp only [hdisposition, updateCounts_twice] at hstep
      rw [Except.pure_eq_ok_iff] at hstep
      subst hstep
      have hadds := counted_adds hdisposition
      have hboth : ∀ counts, (update (countTotal counts)).settled = counts.settled + 1 ∧
          (update (countTotal counts)).totalRecords = counts.totalRecords + 1 ∧
          (update (countTotal counts)).gapRecords = counts.gapRecords ∧
          (update (countTotal counts)).ambientRecords = counts.ambientRecords :=
        fun counts => hadds (countTotal counts)
      exact ⟨h.countRecord hsource _ hboth, rfl,
        totalOf_updateCounts fun counts => (hboth counts).2.1, rfl, rfl⟩
  | gap disposition =>
      simp only [hdisposition] at hstep
      obtain ⟨reason, _, hstep⟩ := Except.bind_eq_ok_iff.mp hstep
      rw [Except.pure_eq_ok_iff] at hstep
      subst hstep
      exact ⟨h.holdBack hsource _ _ rfl, rfl, totalOf_updateCounts fun _ => rfl, rfl, rfl⟩

end Reading

section Captures

variable {index : Index} {builder next : SourceContextAuditBuilder} {capture : Json}

/-- How many records the audit visits in a capture. -/
def visitedRecords (capture : Json) : Except String Nat :=
  match pointerStr capture ["telemetryBatch", "endpoint"] with
  | some endpoint =>
      if endpoint = "otlp_logs" ∨ endpoint = "otlp_traces" then do
        let raw ← rawBatch capture
        visitOtlpEnvelope endpoint raw (fun visited _ _ => .ok (visited + 1)) 0
      else .ok 0
  | none => .ok 0

/-- A capture is read through, and each of its records once. -/
theorem held_observeCapture (h : Held builder)
    (hstep : observeCapture index builder capture = .ok next) :
    Held next ∧ next.SameSettings builder ∧
      ∃ visited, visitedRecords capture = .ok visited ∧
        totalOf next.sources = totalOf builder.sources + visited := by
  rw [observeCapture] at hstep
  rw [visitedRecords]
  cases hendpoint : pointerStr capture ["telemetryBatch", "endpoint"] with
  | none =>
      simp only [hendpoint, Except.pure_eq_ok_iff] at hstep
      subst hstep
      exact ⟨⟨h.conserved, h.uncharged, h.noAmbient, h.named, h.present, h.sampled, h.ungrouped⟩,
        ⟨rfl, rfl⟩, 0, rfl, rfl⟩
  | some endpoint =>
      simp only [hendpoint] at hstep
      dsimp only
      split_ifs at hstep ⊢ with hotlp
      · obtain ⟨raw, hraw, hstep⟩ := Except.bind_eq_ok_iff.mp hstep
        obtain ⟨finish, hvisit, hstep⟩ := Except.bind_eq_ok_iff.mp hstep
        rw [Except.pure_eq_ok_iff] at hstep
        subst hstep
        have hstart : Held { builder with selectedCaptures := builder.selectedCaptures + 1 } :=
          ⟨h.conserved, h.uncharged, h.noAmbient, h.named, h.present, h.sampled, h.ungrouped⟩
        obtain ⟨visited, hcount, hheld, _, htotal, hsame⟩ := visitOtlpEnvelope_simulates
          (fun state visited => Held state.1 ∧ state.2 = visited ∧
            totalOf state.1.sources = totalOf builder.sources + visited ∧
            state.1.SameSettings builder)
          (fun state visited record merged next hrel hnext => by
            obtain ⟨hheld, hordinal, htotal, hsame⟩ := hrel
            obtain ⟨hheld, hnextOrdinal, hnextTotal, hnextSame⟩ :=
              held_observeRecord hheld hotlp hnext
            exact ⟨visited + 1, rfl, hheld, by rw [hnextOrdinal, hordinal],
              by rw [hnextTotal, htotal, Nat.add_assoc], hnextSame.trans hsame⟩)
          (⟨hstart, rfl, rfl, rfl, rfl⟩ : _ ∧ _ ∧ _ ∧ _) hvisit
        refine ⟨hheld, hsame, visited, ?_, htotal⟩
        rw [hraw, Except.ok_bind]
        exact hcount
      · rw [Except.pure_eq_ok_iff] at hstep
        subst hstep
        exact ⟨⟨h.conserved, h.uncharged, h.noAmbient, h.named, h.present, h.sampled, h.ungrouped⟩,
          ⟨rfl, rfl⟩, 0, rfl, rfl⟩

/-- All captures are read through, and each of their records once. -/
theorem held_observeCaptures {captures : List Json} (h : Held builder)
    (hrun : captures.foldlM (observeCapture index) builder = .ok next) :
    Held next ∧ next.SameSettings builder ∧
      ∃ visited, captures.mapM visitedRecords = .ok visited ∧
        totalOf next.sources = totalOf builder.sources + visited.sum := by
  induction captures generalizing builder with
  | nil =>
      rw [List.foldlM_nil, Except.pure_eq_ok_iff] at hrun
      subst hrun
      exact ⟨h, ⟨rfl, rfl⟩, [], rfl, rfl⟩
  | cons capture rest ih =>
      rw [List.foldlM_cons, Except.bind_eq_ok_iff] at hrun
      obtain ⟨mid, hmid, hrest⟩ := hrun
      obtain ⟨hheld, hsame, visited, hvisited, htotal⟩ := held_observeCapture h hmid
      obtain ⟨hlast, hlastSame, others, hothers, hsum⟩ := ih hheld hrest
      refine ⟨hlast, hlastSame.trans hsame, visited :: others, ?_, ?_⟩
      · rw [List.mapM_cons, hvisited, Except.ok_bind, hothers, Except.ok_bind]
        rfl
      · rw [hsum, htotal, List.sum_cons, Nat.add_assoc]

theorem held_new {sessionId : String} {allowed : OrdSet String} {sampleLimit : Nat}
    (h : SourceContextAuditBuilder.new sessionId allowed sampleLimit = .ok builder) :
    Held builder ∧ builder.sampleLimit = sampleLimit ∧ totalOf builder.sources = 0 ∧
      builder.sessionId = sessionId := by
  rw [SourceContextAuditBuilder.new] at h
  split_ifs at h
  cases h
  exact ⟨⟨fun _ => rfl, rfl, rfl, (fun _ hsome => by cases hsome), (fun _ hsome => by cases hsome),
    fun _ => Nat.zero_le _, rfl, rfl, rfl⟩, rfl, rfl, rfl⟩

end Captures

section Charging

variable {hits : Table String Bool} {state : Charging} {entry : PendingKey × Nat}

/-- What the end of an audit adds to the counts of a source for the gaps of one key. -/
def settleGap (hits : Table String Bool) (entry : PendingKey × Nat)
    (counts : SourceContextCounts) : SourceContextCounts :=
  if chargeable hits (producerOf entry.1) then
    chargeGap (ofLex (ofLex (ofLex entry.1).2).2).1 entry.2 counts
  else { counts with ambientRecords := counts.ambientRecords + entry.2 }

theorem settleGap_adds (counts : SourceContextCounts) :
    (settleGap hits entry counts).settled = counts.settled + entry.2 ∧
      (settleGap hits entry counts).totalRecords = counts.totalRecords ∧
      (settleGap hits entry counts).gapRecords =
        counts.gapRecords + (if chargeable hits (producerOf entry.1) then entry.2 else 0) ∧
      (settleGap hits entry counts).ambientRecords = counts.ambientRecords +
        (if chargeable hits (producerOf entry.1) then 0 else entry.2) := by
  rw [settleGap]
  split_ifs
  · rw [chargeGap]
    split_ifs <;> refine ⟨?_, rfl, ?_, rfl⟩ <;>
      simp only [SourceContextCounts.settled, SourceContextCounts.gapRecords] <;> omega
  · refine ⟨?_, rfl, rfl, rfl⟩
    simp only [SourceContextCounts.settled]
    omega

theorem charge_chargeable (h : chargeable hits (producerOf entry.1) = true) :
    charge hits state entry =
      { addGroup state (ofLex entry.1).2 entry.2 with
        sources := updateCounts state.sources (sourceOf entry.1) (settleGap hits entry)
        gaps := state.gaps + entry.2 } := by
  have hsettle : settleGap hits entry =
      chargeGap (ofLex (ofLex (ofLex entry.1).2).2).1 entry.2 := by
    funext counts
    rw [settleGap, if_pos h]
  rw [charge, hsettle]
  exact if_pos h

theorem charge_ambient (h : chargeable hits (producerOf entry.1) = false)
    (hpresent : (state.sources.get? (sourceOf entry.1)).isSome) :
    charge hits state entry =
      { state with
        sources := updateCounts state.sources (sourceOf entry.1) (settleGap hits entry)
        ambientProducers := raise state.ambientProducers (producerOf entry.1) entry.2 } := by
  have hsettle : settleGap hits entry = fun counts : SourceContextCounts =>
      { counts with ambientRecords := counts.ambientRecords + entry.2 } := by
    funext counts
    rw [settleGap, h, if_neg Bool.false_ne_true]
  rw [charge, hsettle]
  have hsource : (state.sources.get? (ofLex (ofLex entry.1).2).1).isSome = true := hpresent
  dsimp only
  rw [if_pos hsource]
  apply if_neg
  rw [← Bool.not_eq_true] at h
  exact h

/-- The records of a key get their disposition in its source. -/
theorem charge_sources (hpresent : (state.sources.get? (sourceOf entry.1)).isSome) :
    (charge hits state entry).sources =
      updateCounts state.sources (sourceOf entry.1) (settleGap hits entry) := by
  cases hcharge : chargeable hits (producerOf entry.1) with
  | false => rw [charge_ambient hcharge hpresent]
  | true => rw [charge_chargeable hcharge]

/-- A group gets the records, or they are counted as omitted. -/
theorem addGroup_adds (gap : GapKey) (records : Nat) :
    (addGroup state gap records).groups.weigh (fun _ n => n) +
        (addGroup state gap records).omittedGapRecords =
      state.groups.weigh (fun _ n => n) + state.omittedGapRecords + records := by
  rw [addGroup]
  split_ifs
  · dsimp only
    rw [weigh_raise_all]
    omega
  · exact (Nat.add_assoc _ _ _).symm

theorem len_raise {K : Type} [LinearOrder K] (tally : Table K Nat) (key : K) (records : Nat) :
    (raise tally key records).len =
      if (tally.get? key).isSome then tally.len else tally.len + 1 := by
  have hinsert := tally.weigh_insert (fun _ _ => 1) key (Tally.count tally key + records)
  rw [raise, Table.len_eq_weigh, Table.len_eq_weigh]
  cases hget : tally.get? key with
  | none =>
      rw [hget] at hinsert
      simpa using hinsert
  | some old =>
      rw [hget] at hinsert
      simpa using hinsert

/-- What holds while the gaps are charged. -/
structure Charged (names : String → Prop) (state : Charging) : Prop where
  named : ∀ source, (state.sources.get? source).isSome ↔ names source
  grouped : state.groups.weigh (fun _ n => n) + state.omittedGapRecords = state.gaps
  charged : state.sources.weigh (fun _ => SourceContextCounts.gapRecords) = state.gaps
  ambient : state.sources.weigh (fun _ => SourceContextCounts.ambientRecords) =
    state.ambientProducers.weigh fun _ n => n
  few : state.groups.len ≤ maxGroups

theorem addGroup_few (h : state.groups.len ≤ maxGroups) (gap : GapKey) (records : Nat) :
    (addGroup state gap records).groups.len ≤ maxGroups := by
  rw [addGroup]
  split_ifs with hroom
  · dsimp only
    rw [len_raise]
    split_ifs with hknown
    · exact h
    · exact hroom.resolve_left hknown
  · exact h

theorem addGroup_ambientProducers (gap : GapKey) (records : Nat) :
    (addGroup state gap records).ambientProducers = state.ambientProducers := by
  rw [addGroup]
  split_ifs <;> rfl

theorem Charged.charge {names : String → Prop} (h : Charged names state)
    (hname : names (sourceOf entry.1)) : Charged names (SourceContext.charge hits state entry) := by
  have hpresent := (h.named _).mpr hname
  have hsources := @charge_sources hits state entry hpresent
  have hgap := @weigh_updateCounts state.sources (sourceOf entry.1) (settleGap hits entry)
    SourceContextCounts.gapRecords rfl
  have hambient := @weigh_updateCounts state.sources (sourceOf entry.1) (settleGap hits entry)
    SourceContextCounts.ambientRecords rfl
  rw [(settleGap_adds _).2.2.1, ← hsources, h.charged] at hgap
  rw [(settleGap_adds _).2.2.2, ← hsources, h.ambient] at hambient
  have hnamed : ∀ source, ((SourceContext.charge hits state entry).sources.get? source).isSome ↔
      names source := by
    intro source
    rw [hsources, isSome_updateCounts, Bool.or_eq_true, decide_eq_true_eq, h.named]
    exact ⟨fun hor => hor.elim (fun heq => heq ▸ hname) id, Or.inr⟩
  cases hcharge : chargeable hits (producerOf entry.1) with
  | false =>
      rw [hcharge, if_neg Bool.false_ne_true] at hgap hambient
      rw [charge_ambient hcharge hpresent] at hnamed hgap hambient ⊢
      refine ⟨hnamed, h.grouped, ?_, ?_, h.few⟩
      · dsimp only at hgap ⊢
        omega
      · dsimp only at hambient ⊢
        rw [weigh_raise_all]
        omega
  | true =>
      rw [hcharge, if_pos rfl] at hgap hambient
      rw [charge_chargeable hcharge] at hnamed hgap hambient ⊢
      refine ⟨hnamed, ?_, ?_, ?_, addGroup_few h.few _ _⟩
      · dsimp only
        rw [addGroup_adds, h.grouped]
      · dsimp only at hgap ⊢
        omega
      · dsimp only at hambient ⊢
        rw [addGroup_ambientProducers]
        omega

/-- Every gap that was held back gets its disposition. -/
theorem charge_settles {names : String → Prop} {entries : List (PendingKey × Nat)}
    (h : Charged names state) (hnames : ∀ entry ∈ entries, names (sourceOf entry.1)) :
    Charged names (entries.foldl (charge hits) state) ∧
      (entries.foldl (charge hits) state).gaps = state.gaps +
        (entries.map fun entry =>
          if chargeable hits (producerOf entry.1) then entry.2 else 0).sum ∧
      ∀ source, (countsOf (entries.foldl (charge hits) state).sources source).totalRecords =
          (countsOf state.sources source).totalRecords ∧
        (countsOf (entries.foldl (charge hits) state).sources source).settled =
          (countsOf state.sources source).settled +
            (entries.map fun entry => if sourceOf entry.1 = source then entry.2 else 0).sum := by
  induction entries generalizing state with
  | nil => exact ⟨h, rfl, fun source => ⟨rfl, rfl⟩⟩
  | cons entry rest ih =>
      have hname := hnames entry List.mem_cons_self
      obtain ⟨hcharged, hgaps, hcounts⟩ := ih (@Charged.charge hits state entry names h hname)
        fun other hother => hnames other (List.mem_cons_of_mem _ hother)
      refine ⟨hcharged, ?_, fun source => ?_⟩
      · rw [List.foldl_cons, hgaps, List.map_cons, List.sum_cons]
        cases hcharge : chargeable hits (producerOf entry.1) with
        | false =>
            rw [charge_ambient hcharge ((h.named _).mpr hname), if_neg Bool.false_ne_true,
              Nat.zero_add]
        | true =>
            rw [charge_chargeable hcharge, if_pos rfl]
            exact Nat.add_assoc _ _ _
      · obtain ⟨htotal, hsettled⟩ := hcounts source
        rw [charge_sources ((h.named _).mpr hname), countsOf_updateCounts] at htotal hsettled
        rw [List.foldl_cons, htotal, hsettled, List.map_cons, List.sum_cons]
        split_ifs with hsource hsame hsame
        · rw [(settleGap_adds _).1, (settleGap_adds _).2.1, hsource]
          exact ⟨rfl, Nat.add_assoc _ _ _⟩
        · exact absurd hsource.symm hsame
        · exact absurd hsame.symm hsource
        · exact ⟨rfl, by rw [Nat.zero_add]⟩

end Charging

section Audits

variable {index : Index} {sessionId : String} {allowed : OrdSet String}
  {sampleLimit duplicates : Nat} {captures : List Json} {audit : SourceContextAudit}
  {builder : SourceContextAuditBuilder}

/-- The samples of an audit are as many as the gaps that it charges, at most. -/
theorem Held.sampled_le (h : Held builder) :
    ((builder.pendingSamples.filter fun sample =>
        chargeable builder.producerHits sample.1).map Prod.snd).length ≤
      (builder.pending.entries.map fun entry =>
        if chargeable builder.producerHits (producerOf entry.1) then entry.2 else 0).sum := by
  rw [List.length_map, ← List.countP_eq_length_filter]
  exact h.sampled (chargeable builder.producerHits)

/-- What an audit was made from. -/
theorem audited
    (h : auditCaptures index sessionId allowed sampleLimit duplicates captures = .ok audit) :
    ∃ builder : SourceContextAuditBuilder, audit = builder.finish duplicates ∧ Held builder ∧
      builder.sessionId = sessionId ∧ builder.sampleLimit = sampleLimit ∧
      ∃ visited, captures.mapM visitedRecords = .ok visited ∧
        totalOf builder.sources = visited.sum := by
  obtain ⟨start, hstart, h⟩ := Except.bind_eq_ok_iff.mp h
  obtain ⟨builder, hrun, h⟩ := Except.bind_eq_ok_iff.mp h
  rw [Except.pure_eq_ok_iff] at h
  obtain ⟨hnew, hlimit, hzero, hsession⟩ := held_new hstart
  obtain ⟨hheld, hsame, visited, hvisited, htotal⟩ := held_observeCaptures hnew hrun
  rw [hzero, Nat.zero_add] at htotal
  exact ⟨builder, h.symm, hheld, hsame.1.trans hsession, hsame.2.trans hlimit, visited, hvisited,
    htotal⟩

/-- The end of an audit charges every gap that was held back. -/
theorem Held.charged (h : Held builder) :
    Charged (fun source => (builder.sources.get? source).isSome = true)
        (builder.charging builder.pending.entries) ∧
      (builder.charging builder.pending.entries).gaps = (builder.pending.entries.map fun entry =>
          if chargeable builder.producerHits (producerOf entry.1) then entry.2 else 0).sum ∧
      ∀ source,
        (countsOf (builder.charging builder.pending.entries).sources source).totalRecords =
          (countsOf builder.sources source).totalRecords ∧
        (countsOf (builder.charging builder.pending.entries).sources source).settled =
          (countsOf builder.sources source).totalRecords := by
  have hbase : Charged (fun source => (builder.sources.get? source).isSome = true)
      (builder.charging []) := by
    obtain ⟨hgroups, homitted, hgaps⟩ := h.ungrouped
    refine ⟨fun _ => Iff.rfl, ?_, h.uncharged.trans hgaps.symm, h.noAmbient, ?_⟩
    · dsimp only [SourceContextAuditBuilder.charging, List.foldl_nil]
      rw [hgroups, homitted, hgaps]
      rfl
    · dsimp only [SourceContextAuditBuilder.charging, List.foldl_nil]
      rw [hgroups]
      exact Nat.zero_le _
  obtain ⟨hcharged, hgaps, hcounts⟩ := @charge_settles builder.producerHits _ _
    builder.pending.entries hbase fun entry hentry =>
      h.present entry.1 (by rw [(Table.mem_entries _ _ _).mp hentry]; rfl)
  refine ⟨hcharged, ?_, fun source => ⟨(hcounts source).1, ?_⟩⟩
  · have hzero : (builder.charging []).gaps = 0 := h.ungrouped.2.2
    rw [hzero, Nat.zero_add] at hgaps
    exact hgaps
  · rw [h.conserved source, heldRecords_source]
    exact (hcounts source).2

/-- The dispositions of a source add up to its records. -/
theorem audit_settled
    (h : auditCaptures index sessionId allowed sampleLimit duplicates captures = .ok audit)
    (source : String) :
    (countsOf audit.sources source).settled = (countsOf audit.sources source).totalRecords := by
  obtain ⟨builder, rfl, hheld, _⟩ := audited h
  obtain ⟨_, _, hcounts⟩ := hheld.charged
  exact (hcounts source).2.trans (hcounts source).1.symm

/-- An audit accounts for all that was read: the dispositions of a source add up to its records,
and over all sources to the records that were visited; the groups and the omitted records are the
gaps, and so are the samples and the omitted samples; the other producers have what is ambient. -/
theorem audit_conserves
    (h : auditCaptures index sessionId allowed sampleLimit duplicates captures = .ok audit) :
    (∀ source, (countsOf audit.sources source).settled =
        (countsOf audit.sources source).totalRecords) ∧
      (∃ visited, captures.mapM visitedRecords = .ok visited ∧
        totalOf audit.sources = visited.sum) ∧
      audit.gapGroups.weigh (fun _ n => n) + audit.omittedGapRecords =
        audit.sources.weigh (fun _ => SourceContextCounts.gapRecords) ∧
      audit.samples.length + audit.omittedSamples =
        audit.sources.weigh (fun _ => SourceContextCounts.gapRecords) ∧
      audit.ambientProducers.weigh (fun _ n => n) =
        audit.sources.weigh (fun _ => SourceContextCounts.ambientRecords) ∧
      audit.gapGroups.len ≤ maxGroups ∧ audit.samples.length ≤ sampleLimit := by
  have hsettled := audit_settled h
  obtain ⟨builder, rfl, hheld, _, hlimit, visited, hvisited, htotal⟩ := audited h
  obtain ⟨hcharged, hgaps, hcounts⟩ := hheld.charged
  have hsampled := hheld.sampled_le
  have htake := List.length_take_le' builder.sampleLimit
    ((builder.pendingSamples.filter fun sample =>
      chargeable builder.producerHits sample.1).map Prod.snd)
  rw [SourceContextAuditBuilder.finish]
  dsimp only
  rw [hcharged.charged]
  refine ⟨hsettled, ⟨visited, hvisited, ?_⟩, hcharged.grouped, ?_, hcharged.ambient.symm,
    hcharged.few, ?_⟩
  · rw [← htotal]
    exact totalOf_congr hcharged.named fun source => (hcounts source).1
  · omega
  · rw [← hlimit]
    exact List.length_take_le _ _

/-- An index that knows the Session of a record from a field, and no turns. -/
def sessionIndex : Index where
  otlpSourceObservation _ record _ := .ok
    { sessionId := Telemetry.stringField record "session"
      turnId := none
      requiresTurn := false
      processScoped := false
      relatedSessions := [] }
  unresolvedReason _ _ := .ok "missing_session_identity"

/-- A log record of the Session, and one that nothing is known of. -/
def twoRecords : Json :=
  .obj [("captureId", .str "c1"), ("telemetryBatch", .obj [("endpoint", .str "otlp_logs"),
    ("raw_json", .str ("\x7b\"resourceLogs\":[\x7b\"scopeLogs\":[\x7b\"logRecords\":" ++
      "[\x7b\"session\":\"s1\"\x7d,\x7b\x7d]\x7d]\x7d]\x7d"))])]

def twoRecordsAudit : Except String SourceContextAudit :=
  auditCaptures sessionIndex "s1" (OrdSet.ofList ["s1"]) 10 0 [twoRecords]

theorem twoRecords_audited : twoRecordsAudit.toOption.isSome = true := by decide +kernel

theorem twoRecords_counts :
    (twoRecordsAudit.toOption.map fun audit =>
      (totalOf audit.sources, countsOf audit.sources "otlp_logs")) =
    some (2, { totalRecords := 2, sessionLevelRecords := 1, unknownSessionRecords := 1 }) := by
  decide +kernel

theorem audit_conserves_two : ∃ audit, twoRecordsAudit = .ok audit ∧
    (∀ source, (countsOf audit.sources source).settled =
      (countsOf audit.sources source).totalRecords) ∧
    ∃ visited, [twoRecords].mapM visitedRecords = .ok visited ∧
      totalOf audit.sources = visited.sum := by
  have hsome := twoRecords_audited
  cases haudit : twoRecordsAudit with
  | error _ =>
      rw [haudit] at hsome
      cases hsome
  | ok audit =>
      have hconserves := audit_conserves haudit
      exact ⟨audit, rfl, hconserves.1, hconserves.2.1⟩

end Audits

end ChipTrace.SourceContext
