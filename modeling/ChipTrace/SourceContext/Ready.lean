/-
When the source-context audit of a Session lets it be delivered: exactly when no record that was
read is left as a gap.
-/
import ChipTrace.SourceContext.Conservation

namespace ChipTrace.SourceContext

section Weights

variable {K V : Type} [LinearOrder K]

theorem weigh_eq_zero_iff {table : Table K V} {weight : K → V → Nat} :
    table.weigh weight = 0 ↔ ∀ k v, table.get? k = some v → weight k v = 0 := by
  rw [Table.weigh, OrdMap.weigh, List.sum_eq_zero_iff]
  constructor
  · intro h k v hget
    exact h _ (List.mem_map.mpr ⟨(k, v), (Table.mem_entries _ _ _).mpr hget, rfl⟩)
  · intro h weight hmem
    obtain ⟨entry, hentry, rfl⟩ := List.mem_map.mp hmem
    exact h _ _ ((Table.mem_entries _ _ _).mp hentry)

end Weights

section Sources

variable {audit : SourceContextAudit} {source : String} {unscoped : Nat}

/-- Where nothing overflows, the checked sum of the dispositions is their sum. -/
theorem checkedTotal_eq {counts : SourceContextCounts} (h : counts.settled < U64.limit) :
    counts.checkedTotal = .ok counts.settled := by
  have hadd : ∀ a b : Nat, a + b < U64.limit →
      U64.checkedAdd "source context audit count overflow" a b = .ok (a + b) :=
    fun a b hsum => U64.checkedAdd_eq_ok_iff.mpr ⟨hsum, rfl⟩
  rw [SourceContextCounts.settled] at h ⊢
  rw [SourceContextCounts.checkedTotal]
  rw [hadd _ _ (by omega), Except.ok_bind, hadd _ _ (by omega), Except.ok_bind,
    hadd _ _ (by omega), Except.ok_bind, hadd _ _ (by omega), Except.ok_bind,
    hadd _ _ (by omega), Except.ok_bind, hadd _ _ (by omega)]

/-- A source passes if it has no gap, or if it is not expected. -/
theorem verifySource_ok_iff
    (hcounts : (countsOf audit.sources source).settled =
      (countsOf audit.sources source).totalRecords)
    (hfits : (countsOf audit.sources source).totalRecords < U64.limit) :
    verifySource audit 0 source = .ok unscoped ↔
      unscoped = 0 ∧ ((audit.sources.get? source).isSome ∨
        audit.producerProfile = "claude-code") ∧
      (countsOf audit.sources source).gapRecords = 0 := by
  rw [verifySource]
  rw [countsOf] at hcounts hfits ⊢
  cases hget : audit.sources.get? source with
  | none =>
      dsimp only
      rw [Option.isSome_none, Option.getD_none, SourceContextCounts.gapRecords]
      split_ifs with hprofile
      · simp [hprofile, eq_comm]
      · simp [hprofile]
  | some counts =>
      rw [hget, Option.getD_some] at hcounts hfits
      dsimp only
      rw [checkedTotal_eq (hcounts ▸ hfits), Except.ok_bind, if_neg (not_not.mpr hcounts),
        Option.isSome_some, Option.getD_some]
      by_cases hgap : counts.gapRecords = 0
      · rw [SourceContextCounts.gapRecords, Nat.add_eq_zero_iff] at hgap
        rw [if_neg (by rw [hgap.1, hgap.2]; simp), hgap.1]
        simp [SourceContextCounts.gapRecords, hgap, U64.checkedAdd, U64.limit, eq_comm]
      · have hunresolved : counts.unscopedTurnRecords ≠ 0 ∨ counts.unknownSessionRecords ≠ 0 := by
          rw [SourceContextCounts.gapRecords] at hgap
          omega
        rw [if_pos hunresolved]
        simp [hgap, throw, throwThe, MonadExceptOf.throw, bind, Except.bind]

end Sources

section Deliveries

variable {index : Index} {sessionId : String} {allowed : OrdSet String}
  {sampleLimit duplicates : Nat} {captures : List Json} {audit : SourceContextAudit}

/-- Only the two kinds of exports are sources. -/
theorem audit_names
    (h : auditCaptures index sessionId allowed sampleLimit duplicates captures = .ok audit)
    {source : String} (hsource : (audit.sources.get? source).isSome) :
    source = "otlp_logs" ∨ source = "otlp_traces" := by
  obtain ⟨builder, rfl, hheld, _⟩ := audited h
  exact hheld.named source ((hheld.charged.1.named source).mp hsource)

theorem countsOf_of_none {sources : Table String SourceContextCounts} {source : String}
    (h : ¬ (sources.get? source).isSome) : countsOf sources source = {} := by
  rw [Bool.not_eq_true, Option.isSome_eq_false_iff, Option.isNone_iff_eq_none] at h
  rw [countsOf, h, Option.getD_none]

theorem le_totalOf {sources : Table String SourceContextCounts} (source : String) :
    (countsOf sources source).totalRecords ≤ totalOf sources := by
  by_cases hsome : (sources.get? source).isSome
  · obtain ⟨counts, hget⟩ := Option.isSome_iff_exists.mp hsome
    rw [countsOf, hget, Option.getD_some, totalOf, Table.weigh, OrdMap.weigh]
    exact List.le_sum_of_mem (List.mem_map.mpr
      ⟨(source, counts), (Table.mem_entries _ _ _).mpr hget, rfl⟩)
  · rw [countsOf_of_none hsome]
    exact Nat.zero_le _

theorem audit_fields
    (h : auditCaptures index sessionId allowed sampleLimit duplicates captures = .ok audit) :
    audit.schemaVersion = auditSchemaVersion ∧ audit.sessionId = sessionId ∧
      audit.unscopedOtlpRecords =
        audit.sources.weigh fun _ counts => counts.unscopedTurnRecords := by
  obtain ⟨builder, rfl, _, hsession, _⟩ := audited h
  exact ⟨rfl, hsession, rfl⟩

/-- A source has no gap, and is there if it is expected. -/
def Passes (audit : SourceContextAudit) (profile source : String) : Prop :=
  ((audit.sources.get? source).isSome ∨ profile = "claude-code") ∧
    (countsOf audit.sources source).gapRecords = 0

theorem verifySource_passes {profile source : String} {unscoped : Nat}
    (hsettled : ∀ source, (countsOf audit.sources source).settled =
      (countsOf audit.sources source).totalRecords)
    (hfits : totalOf audit.sources < U64.limit) :
    verifySource { audit with producerProfile := profile } 0 source = .ok unscoped ↔
      unscoped = 0 ∧ Passes audit profile source :=
  verifySource_ok_iff (hsettled source) (lt_of_le_of_lt (le_totalOf source) hfits)

/-- Both sources pass exactly when every record has a disposition that is no gap. -/
theorem passes_iff {profile : String}
    (h : auditCaptures index sessionId allowed sampleLimit duplicates captures = .ok audit) :
    (Passes audit profile "otlp_logs" ∧ Passes audit profile "otlp_traces") ↔
      (profile = "claude-code" ∨ ∀ source ∈ ["otlp_logs", "otlp_traces"],
        (audit.sources.get? source).isSome) ∧
      ∀ source, (countsOf audit.sources source).totalRecords =
        (countsOf audit.sources source).turnAssignedRecords +
          (countsOf audit.sources source).sessionLevelRecords +
          (countsOf audit.sources source).processLevelRecords +
          (countsOf audit.sources source).otherSessionRecords +
          (countsOf audit.sources source).ambientRecords := by
  have hgap : ∀ source, (countsOf audit.sources source).gapRecords = 0 ↔
      (countsOf audit.sources source).totalRecords =
        (countsOf audit.sources source).turnAssignedRecords +
          (countsOf audit.sources source).sessionLevelRecords +
          (countsOf audit.sources source).processLevelRecords +
          (countsOf audit.sources source).otherSessionRecords +
          (countsOf audit.sources source).ambientRecords := by
    intro source
    have hall := audit_settled h source
    rw [SourceContextCounts.settled] at hall
    rw [SourceContextCounts.gapRecords]
    omega
  simp only [← hgap, Passes, List.forall_mem_cons, List.not_mem_nil, false_implies, implies_true,
    and_true]
  constructor
  · intro hpasses
    obtain ⟨⟨hlogs, hlogsGap⟩, htraces, htracesGap⟩ := hpasses
    refine ⟨by tauto, fun source => ?_⟩
    by_cases hsome : (audit.sources.get? source).isSome
    · exact (audit_names h hsome).elim (fun heq => heq ▸ hlogsGap) fun heq => heq ▸ htracesGap
    · rw [countsOf_of_none hsome]
      rfl
  · intro hready
    obtain ⟨hexpected, hnone⟩ := hready
    exact ⟨⟨by tauto, hnone _⟩, by tauto, hnone _⟩

/-- An audit passes exactly when it is of the Session, has both sources if they are expected, and
every record that was visited is assigned to a turn, or is of the Session, of a process, of another
Session or of another producer. -/
theorem verifyDeliveryReady_iff
    (h : auditCaptures index sessionId allowed sampleLimit duplicates captures = .ok audit)
    (hfits : totalOf audit.sources < U64.limit) (profile expected : String) :
    ({ audit with producerProfile := profile }).verifyDeliveryReady expected = .ok () ↔
      expected = sessionId ∧
      (profile = "claude-code" ∨ ∀ source ∈ ["otlp_logs", "otlp_traces"],
        (audit.sources.get? source).isSome) ∧
      ∀ source, (countsOf audit.sources source).totalRecords =
        (countsOf audit.sources source).turnAssignedRecords +
          (countsOf audit.sources source).sessionLevelRecords +
          (countsOf audit.sources source).processLevelRecords +
          (countsOf audit.sources source).otherSessionRecords +
          (countsOf audit.sources source).ambientRecords := by
  have hsettled := audit_settled h
  obtain ⟨hschema, hsession, hunscoped⟩ := audit_fields h
  have hloop : ∀ unscoped, ["otlp_logs", "otlp_traces"].foldlM
      (verifySource { audit with producerProfile := profile }) 0 = .ok unscoped ↔
        unscoped = 0 ∧ Passes audit profile "otlp_logs" ∧ Passes audit profile "otlp_traces" := by
    intro unscoped
    rw [List.foldlM_cons, Except.bind_eq_ok_iff]
    constructor
    · intro hrun
      obtain ⟨mid, hlogs, hrest⟩ := hrun
      obtain ⟨rfl, hlogsPass⟩ := (verifySource_passes hsettled hfits).mp hlogs
      rw [List.foldlM_cons, Except.bind_eq_ok_iff] at hrest
      obtain ⟨last, htraces, hlast⟩ := hrest
      obtain ⟨rfl, htracesPass⟩ := (verifySource_passes hsettled hfits).mp htraces
      rw [List.foldlM_nil, Except.pure_eq_ok_iff] at hlast
      exact ⟨hlast.symm, hlogsPass, htracesPass⟩
    · intro hpasses
      obtain ⟨rfl, hlogs, htraces⟩ := hpasses
      refine ⟨0, (verifySource_passes hsettled hfits).mpr ⟨rfl, hlogs⟩, ?_⟩
      rw [List.foldlM_cons, (verifySource_passes hsettled hfits).mpr ⟨rfl, htraces⟩]
      rfl
  rw [SourceContextAudit.verifyDeliveryReady]
  dsimp only
  rw [if_neg (not_not.mpr hschema), hsession, ← passes_iff h]
  by_cases hexpected : sessionId = expected
  · rw [if_neg (not_not.mpr hexpected), Except.bind_eq_ok_iff]
    constructor
    · intro hok
      obtain ⟨unscoped, hrun, _⟩ := hok
      exact ⟨hexpected.symm, ((hloop unscoped).mp hrun).2⟩
    · intro hready
      refine ⟨0, (hloop 0).mpr ⟨rfl, hready.2⟩, ?_⟩
      have hnone := (passes_iff h).mp hready.2
      have hzero : audit.unscopedOtlpRecords = 0 := by
        rw [hunscoped]
        apply weigh_eq_zero_iff.mpr
        intro source counts hget
        have hsum := hnone.2 source
        have hall := hsettled source
        rw [countsOf, hget, Option.getD_some] at hsum hall
        rw [SourceContextCounts.settled] at hall
        omega
      rw [if_neg (not_not.mpr hzero)]
      rfl
  · rw [if_pos hexpected]
    constructor
    · intro hok
      cases hok
    · intro hready
      exact absurd hready.1.symm hexpected

/-- The record that nothing is known of holds the delivery back. -/
theorem verifyDeliveryReady_two : ∃ audit, twoRecordsAudit = .ok audit ∧
    ({ audit with producerProfile := "claude-code" }).verifyDeliveryReady "s1" ≠ .ok () := by
  have hsome := twoRecords_audited
  have hcounts := twoRecords_counts
  cases haudit : twoRecordsAudit with
  | error _ =>
      rw [haudit] at hsome
      cases hsome
  | ok audit =>
      rw [haudit] at hcounts
      simp only [Except.toOption, Option.map_some, Option.some.injEq, Prod.mk.injEq] at hcounts
      obtain ⟨htotal, hlogs⟩ := hcounts
      refine ⟨audit, rfl, fun hok => ?_⟩
      have hfits : totalOf audit.sources < U64.limit := by
        rw [htotal, U64.limit]
        decide
      have hready := (verifyDeliveryReady_iff haudit hfits "claude-code" "s1").mp hok
      have hnone := hready.2.2 "otlp_logs"
      rw [hlogs] at hnone
      exact absurd hnone (by decide)

end Deliveries

end ChipTrace.SourceContext
