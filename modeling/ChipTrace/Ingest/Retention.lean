/-
The record that keeps the raw text of an ingest request: its stored form, and when the
byte limit lets it through.
-/
import ChipTrace.Capture.Bare
import ChipTrace.Ingest.Refusals
import ChipTrace.Lib.Json.Size

namespace ChipTrace

section Batch

/-- The fields of a telemetry batch in their stored order. -/
def batchFields (rawJson : String) (rawBytes : Nat) (rawSha256 : String)
    (summary : CloudIngestSummary) : JsonMap :=
  [("attributed_quality_errors", .num summary.attributedQualityErrors),
    ("conversion_errors", .arr (summary.conversionErrors.map Json.str)),
    ("derived_captures", .num summary.derivedCaptures), ("endpoint", .str summary.endpoint),
    ("quality_error_reasons", reasonObject (qualityErrorReasons summary)),
    ("raw_bytes", .num rawBytes), ("raw_json", .str rawJson), ("raw_sha256", .str rawSha256),
    ("schema_version", .str telemetryBatchSchemaVersion),
    ("source_records", .num summary.sourceRecords),
    ("unknown_events", .num summary.unknownEvents)]

def batchEnvelope (captureId : String) (batch : JsonMap) : JsonMap :=
  [("captureId", .str captureId), ("captureStage", .str "event"),
    ("recordType", .str "telemetry_batch"), ("sourceNamespace", .str cloudSourceNamespace),
    ("telemetryBatch", .obj batch)]

/-- The envelope of a batch after its promotion, which finds nothing. -/
def promotedBatch (captureId : String) (batch : JsonMap) : JsonMap :=
  [("captureId", .str captureId), ("captureStage", .str "event"), ("fieldEvidence", .arr []),
    ("fieldEvidenceConflicts", .arr []), ("recordType", .str "telemetry_batch"),
    ("sourceNamespace", .str cloudSourceNamespace), ("telemetryBatch", .obj batch),
    ("traceContext", .obj [])]

/-- The stored form of a batch. -/
def storedBatch (captureId : String) (batch : JsonMap) : JsonMap :=
  [("captureError", .null), ("captureId", .str captureId), ("captureStage", .str "event"),
    ("fieldEvidence", .arr []), ("fieldEvidenceConflicts", .arr []),
    ("observedLifecycleEvents", .arr []), ("receivedAt", .null),
    ("recordType", .str "telemetry_batch"), ("redactedHeaders", .arr []),
    ("requestHeaders", .obj []), ("requestTruncated", .bool false),
    ("responseHeaders", .obj []), ("responseTruncated", .bool false),
    ("sourceNamespace", .str cloudSourceNamespace), ("stream", .bool false),
    ("telemetryBatch", .obj batch), ("traceContext", .obj []),
    ("version", .str captureSchemaVersion)]

/-- The order of the keys settles the order of the fields. -/
theorem sorted_of_keys {fields : JsonMap} (h : (fields.map Prod.fst).Pairwise (· < ·)) :
    OrdMap.Sorted fields := List.pairwise_map.mp h

/-- The keys of each stored form are listed in order, whatever the values. -/
theorem batchKeys_sorted (summary : CloudIngestSummary) :
    ((batchFields "" 0 "" summary).map Prod.fst).Pairwise (· < ·) ∧
      ((batchEnvelope "" []).map Prod.fst).Pairwise (· < ·) ∧
      ((promotedBatch "" []).map Prod.fst).Pairwise (· < ·) ∧
      ((storedBatch "" []).map Prod.fst).Pairwise (· < ·) := by
  rw [batchFields, batchEnvelope, promotedBatch, storedBatch]
  simp only [List.map_cons, List.map_nil]
  decide +kernel

theorem batchFields_sorted (rawJson : String) (rawBytes : Nat) (rawSha256 : String)
    (summary : CloudIngestSummary) :
    OrdMap.Sorted (batchFields rawJson rawBytes rawSha256 summary) :=
  sorted_of_keys (batchKeys_sorted summary).1

theorem batchEnvelope_sorted (captureId : String) (batch : JsonMap) :
    OrdMap.Sorted (batchEnvelope captureId batch) :=
  sorted_of_keys (batchKeys_sorted ⟨"", 0, 0, 0, 0, []⟩).2.1

theorem promotedBatch_sorted (captureId : String) (batch : JsonMap) :
    OrdMap.Sorted (promotedBatch captureId batch) :=
  sorted_of_keys (batchKeys_sorted ⟨"", 0, 0, 0, 0, []⟩).2.2.1

theorem storedBatch_sorted (captureId : String) (batch : JsonMap) :
    OrdMap.Sorted (storedBatch captureId batch) :=
  sorted_of_keys (batchKeys_sorted ⟨"", 0, 0, 0, 0, []⟩).2.2.2

theorem telemetryBatchFields_eq (rawJson rawSha256 : String) (summary : CloudIngestSummary) :
    telemetryBatchFields rawJson rawSha256 summary =
      .obj (batchFields rawJson (textBytes rawJson).length rawSha256 summary) :=
  Json.mkObj_eq (by simp) (by simp [batchFields]) (by simp [batchFields])
    (batchFields_sorted _ _ _ _)

theorem telemetryBatchValue_eq (platform : Platform) (rawJson rawSha256 : String)
    (summary : CloudIngestSummary) :
    let batchId := platform.stableDigest ["batch", summary.endpoint, rawSha256]
    telemetryBatchValue platform rawJson rawSha256 summary =
      .obj (batchEnvelope s!"cap-cloud-{batchId}"
        (batchFields rawJson (textBytes rawJson).length rawSha256 summary)) := by
  intro batchId
  rw [telemetryBatchValue, telemetryBatchFields_eq]
  exact Json.mkObj_eq (by simp) (by simp [batchEnvelope, batchId]) (by simp [batchEnvelope])
    (batchEnvelope_sorted _ _)

end Batch

section Stored

variable {captureId : String} {batch : JsonMap}

theorem batchEnvelope_bare : Bare (batchEnvelope captureId batch) := by
  refine ⟨fun key hkey => ?_, fun entry _ name _ _ => rfl⟩
  refine OrdMap.lookup_eq_none_of_not_mem ?_
  rw [batchEnvelope]
  simp only [List.map_cons, List.map_nil]
  revert key
  decide

theorem batchEnvelope_promoteTrace :
    (promoteTrace (sourcesOf (batchEnvelope captureId batch))).trace = [] :=
  batchEnvelope_bare.promoteTrace_trace_eq OrdMap.sorted_nil

theorem batchEnvelope_addedEvidence : addedEvidence (batchEnvelope captureId batch) = [] := by
  rw [batchEnvelope_bare.addedEvidence_eq]
  refine List.eq_nil_iff_forall_not_mem.mpr fun item hitem => ?_
  obtain ⟨field, candidate, hcandidate, _⟩ := mem_promoteTrace_evidence.mp hitem
  by_cases hkey : field ∈ traceAliases.map Prod.fst
  · obtain ⟨⟨field, aliases⟩, hentry, rfl⟩ := List.mem_map.mp hkey
    rw [batchEnvelope_bare.candidatesFor_own hentry] at hcandidate
    cases hcandidate
  · rw [candidatesFor_eq_nil hkey] at hcandidate
    cases hcandidate

theorem promoteProtocolFields_batch :
    promoteProtocolFields (batchEnvelope captureId batch) = promotedBatch captureId batch := by
  have hbare : Bare (batchEnvelope captureId batch) := batchEnvelope_bare
  have hnone : mergedItems [] [] = [] := rfl
  refine OrdMap.eq_of_entries ?_ (promotedBatch_sorted captureId batch) ?_ ?_
  · rw [promoteProtocolFields_eq, JsonMap.orInsert]
    have hidentified : OrdMap.Sorted (identifiedEnvelope (batchEnvelope captureId batch)) := by
      rw [identifiedEnvelope, fill_eq_self, fill_eq_self]
      · exact OrdMap.sorted_insert _ _ (batchEnvelope_sorted captureId batch)
      · exact Or.inr (by rw [hbare.requestId_eq (by decide)]; rfl)
      · exact Or.inr (by rw [hbare.requestId_eq (by decide)]; rfl)
    split_ifs
    · exact OrdMap.sorted_insert _ _ (OrdMap.sorted_insert _ _ hidentified)
    · exact OrdMap.sorted_insert _ _ (OrdMap.sorted_insert _ _ (OrdMap.sorted_insert _ _
        hidentified))
  · intro entry hentry
    simp only [promotedBatch, List.mem_cons, List.not_mem_nil, or_false] at hentry
    rcases hentry with rfl | rfl | rfl | rfl | rfl | rfl | rfl | rfl
    · exact promoteProtocolFields_get _ (by simp)
    · exact promoteProtocolFields_stage _
    · have hevidence := promoteProtocolFields_fieldEvidence (batchEnvelope captureId batch)
      rw [hbare.recordedItems_eq (by decide), batchEnvelope_addedEvidence, hnone] at hevidence
      exact hevidence
    · have hconflicts := promoteProtocolFields_conflicts (batchEnvelope captureId batch)
      rw [hbare.recordedItems_eq (by decide), hbare.addedConflicts_eq, hnone] at hconflicts
      exact hconflicts
    · exact promoteProtocolFields_get _ (by simp)
    · exact promoteProtocolFields_get _ (by simp)
    · exact promoteProtocolFields_get _ (by simp)
    · have htrace := promoteProtocolFields_traceContext (batchEnvelope captureId batch)
      rw [batchEnvelope_promoteTrace] at htrace
      exact htrace
  · intro key hkey
    change (promoteProtocolFields (batchEnvelope captureId batch)).get key = none
    simp only [promotedBatch, List.map_cons, List.map_nil, List.mem_cons, List.not_mem_nil,
      or_false, not_or] at hkey
    by_cases hrequest : key = "requestId"
    · rw [hrequest, promoteProtocolFields_requestId, hbare.promotedId_eq (by decide)]
    by_cases hupstream : key = "upstreamRequestId"
    · rw [hupstream, promoteProtocolFields_upstreamRequestId, hbare.promotedId_eq (by decide)]
    rw [promoteProtocolFields_get _ (by simp [hkey, hrequest, hupstream])]
    exact OrdMap.lookup_eq_none_of_not_mem (by simp [batchEnvelope, hkey])

/-- A batch that passes its own check passes all of them. -/
theorem batchEnvelope_stages {sha256 : Bytes → String}
    (hid : checkCaptureId (batchEnvelope captureId batch) = .ok captureId)
    (hvalid : validateTelemetryBatch sha256 (batchEnvelope captureId batch) = .ok ()) :
    EnvelopeStages sha256 true (batchEnvelope captureId batch) captureId
      (batchEnvelope captureId batch) := by
  have htype : (batchEnvelope captureId batch).orInsert "recordType" (.str "api_snapshot") =
      batchEnvelope captureId batch := JsonMap.orInsert_eq_self.mpr rfl
  refine ⟨hid, ?_, ?_, ?_, ?_, ?_, ?_⟩
  · rw [htype]
    rfl
  · rw [htype]
    rfl
  · rw [htype, checkRecordParts, hvalid]
    rfl
  · rw [htype]
    rfl
  · rfl
  · rw [promoteProtocolFields_batch]
    rfl

variable (hbatch : Json.Within 2 (.obj batch))
include hbatch

theorem batchEnvelope_within : Json.Within 3 (.obj (batchEnvelope captureId batch)) := by
  refine Json.within_obj_iff.mpr ⟨batchEnvelope_sorted captureId batch, fun field hfield => ?_⟩
  simp only [batchEnvelope, List.mem_cons, List.not_mem_nil, or_false] at hfield
  rcases hfield with rfl | rfl | rfl | rfl | rfl
  · exact Json.within_str _
  · exact Json.within_str _
  · exact Json.within_str _
  · exact Json.within_str _
  · exact hbatch

theorem storedForm_batch :
    storedForm (batchEnvelope captureId batch) = storedBatch captureId batch := by
  have hwithin : Json.Within 5 (.obj (promotedBatch captureId batch)) := by
    rw [← promoteProtocolFields_batch]
    exact promoteProtocolFields_within ((batchEnvelope_within hbatch).mono (by omega))
  have hsorted : OrdMap.Sorted (finishEnvelope (promotedBatch captureId batch)) :=
    (Json.within_obj_iff.mp (finishEnvelope_within hwithin)).1
  have hside : ∀ side ∈ ["requestHeaders", "responseHeaders"],
      (finishEnvelope (promotedBatch captureId batch)).get side = some (.obj []) := by
    intro side hside
    have hredacted : side ∈ ["requestHeaders", "responseHeaders", "version",
        "redactedHeaders"] := by
      simp only [List.mem_cons, List.not_mem_nil, or_false] at hside ⊢
      rcases hside with rfl | rfl <;> simp
    rw [finishEnvelope_redacted hredacted, redactedEnvelope_side hside, publicHeaders]
    simp only [List.mem_cons, List.not_mem_nil, or_false] at hside
    rcases hside with rfl | rfl <;> rfl
  rw [storedForm, promoteProtocolFields_batch]
  refine OrdMap.eq_of_entries hsorted (storedBatch_sorted captureId batch) ?_ ?_
  · intro entry hentry
    simp only [storedBatch, List.mem_cons, List.not_mem_nil, or_false] at hentry
    rcases hentry with rfl | rfl | rfl | rfl | rfl | rfl | rfl | rfl | rfl | rfl | rfl | rfl |
      rfl | rfl | rfl | rfl | rfl | rfl
    · exact finishEnvelope_default (by rfl)
    · exact finishEnvelope_get (by simp)
    · exact finishEnvelope_get (by simp)
    · exact finishEnvelope_get (by simp)
    · exact finishEnvelope_get (by simp)
    · exact finishEnvelope_default (by rfl)
    · exact finishEnvelope_receivedAt
    · exact finishEnvelope_get (by simp)
    · exact finishEnvelope_redacted (by simp)
    · exact hside _ (by simp)
    · exact finishEnvelope_default (by rfl)
    · exact hside _ (by simp)
    · exact finishEnvelope_default (by rfl)
    · exact finishEnvelope_get (by simp)
    · exact finishEnvelope_default (by rfl)
    · exact finishEnvelope_get (by simp)
    · exact finishEnvelope_default (by rfl)
    · exact finishEnvelope_redacted (by simp)
  · intro key hkey
    simp only [storedBatch, List.map_cons, List.map_nil, List.mem_cons, List.not_mem_nil,
      or_false, not_or] at hkey
    have hget : (finishEnvelope (promotedBatch captureId batch)).get key =
        (promotedBatch captureId batch).get key := finishEnvelope_get (by simp [hkey])
    rw [JsonMap.get] at hget
    rw [hget]
    exact OrdMap.lookup_eq_none_of_not_mem (by simp [promotedBatch, hkey])

end Stored

section Valid

theorem isAsciiAlphanumeric_of_isHexDigit {c : Char} (h : isHexDigit c = true) :
    isAsciiAlphanumeric c = true := by
  simp only [isHexDigit, isAsciiAlphanumeric, Bool.or_eq_true, Bool.and_eq_true,
    decide_eq_true_eq, Char.le_def, UInt32.le_iff_toNat_le] at h ⊢
  rcases h with (hdigit | ⟨hlow, hhigh⟩) | ⟨hlow, hhigh⟩
  · exact Or.inl (Or.inl hdigit)
  · exact Or.inl (Or.inr ⟨hlow, le_trans hhigh (by decide)⟩)
  · exact Or.inr ⟨hlow, le_trans hhigh (by decide)⟩

/-- A digest makes a capture identifier. -/
theorem checkCaptureId_cloud {object : JsonMap} {digest : String}
    (hdigest : isHexDigest digest = true)
    (hid : object.get "captureId" = some (.str s!"cap-cloud-{digest}")) :
    checkCaptureId object = .ok s!"cap-cloud-{digest}" := by
  have htext : s!"cap-cloud-{digest}".toList = "cap-cloud-".toList ++ digest.toList :=
    String.toList_append
  rw [isHexDigest, Bool.and_eq_true, beq_iff_eq, List.all_eq_true] at hdigest
  have hlength : (textBytes s!"cap-cloud-{digest}").length = 74 := by
    rw [textBytes, htext, Bytes.encode_append, List.length_append, ← textBytes, ← textBytes,
      hdigest.1]
    rfl
  have hsyntax : isCaptureId s!"cap-cloud-{digest}" = true := by
    have hall : ∀ c ∈ digest.toList, isAsciiAlphanumeric c = true := fun c hc =>
      isAsciiAlphanumeric_of_isHexDigit (hdigest.2 c hc)
    rw [isCaptureId, htext]
    change (!("cloud-".toList ++ digest.toList).isEmpty && ("cloud-".toList ++
      digest.toList).all _) = true
    rw [List.all_append, Bool.and_eq_true, Bool.and_eq_true]
    refine ⟨rfl, by decide, List.all_eq_true.mpr fun c hc => ?_⟩
    rw [hall c hc]
    rfl
  rw [checkCaptureId, JsonMap.str?, hid]
  change (bailIf _ _ >>= fun _ => pure s!"cap-cloud-{digest}") = Except.ok s!"cap-cloud-{digest}"
  rw [hlength, hsyntax]
  rfl

/-- A summary whose counts fit and whose errors say something. -/
structure Reportable (summary : CloudIngestSummary) : Prop where
  endpoint : ["otlp_logs", "otlp_traces", "codex_hook"].contains summary.endpoint = true
  sourceRecords : summary.sourceRecords < U64.limit
  derivedCaptures : summary.derivedCaptures < U64.limit
  unknownEvents : summary.unknownEvents < U64.limit
  attributedQualityErrors : summary.attributedQualityErrors < U64.limit
  errors : ∀ error ∈ summary.conversionErrors, error ≠ ""

/-- Published codes with counts that fit. -/
def Published (reasons : Table String Nat) : Prop :=
  ∀ reason count, reasons.get? reason = some count →
    qualityReasonCodes.contains reason = true ∧ count < U64.limit

theorem Published.bump {reasons : Table String Nat} (h : Published reasons) (error : String) :
    Published (Tally.bumpSaturating reasons (classifyQualityError error, 1)) := by
  intro reason count hget
  rw [Tally.bumpSaturating, Table.get?_insert] at hget
  split_ifs at hget with hsame
  · rw [← Option.some.inj hget, hsame]
    exact ⟨List.contains_iff_mem.mpr (classifyQualityError_mem error), U64.saturatingAdd_lt _ _⟩
  · exact h reason count hget

theorem qualityErrorReasons_published {summary : CloudIngestSummary}
    (hunknown : summary.unknownEvents < U64.limit) :
    Published (qualityErrorReasons summary) := by
  refine foldl_preserves _ Published summary.conversionErrors
    (fun error _ reasons hreasons => hreasons.bump error) _ ?_
  split_ifs
  · intro reason count hget
    rw [Table.get?_insert] at hget
    split_ifs at hget with hsame
    · rw [← Option.some.inj hget, hsame]
      exact ⟨by decide, hunknown⟩
    · cases hget
  · intro reason count hget
    cases hget

/-- The reason counts add up to the unknown events and the errors, with one saturation. -/
theorem qualityErrorReasons_total (summary : CloudIngestSummary) :
    U64.saturatingAdd 0 (Tally.total (qualityErrorReasons summary)) =
      U64.saturatingAdd summary.unknownEvents summary.conversionErrors.length := by
  have hfold : ∀ (errors : List String) (start : Table String Nat),
      U64.saturatingAdd 0 (Tally.total (errors.foldl (fun reasons error =>
        Tally.bumpSaturating reasons (classifyQualityError error, 1)) start)) =
        U64.saturatingAdd (Tally.total start) errors.length := by
    intro errors
    induction errors with
    | nil =>
        intro start
        rw [List.foldl_nil, List.length_nil, U64.saturatingAdd, U64.saturatingAdd, Nat.zero_add,
          Nat.add_zero]
    | cons error rest ih =>
        intro start
        have hbump := Tally.total_bumpSaturating start (classifyQualityError error, 1)
        rw [List.foldl_cons, ih, List.length_cons]
        unfold U64.saturatingAdd at hbump ⊢
        dsimp only at hbump
        omega
  rw [qualityErrorReasons, hfold]
  congr 1
  split_ifs with hunknown
  · have htotal := Tally.total_insert (Table.empty : Table String Nat) "unsupported_event"
      summary.unknownEvents
    rw [Tally.count_empty, Tally.total_empty, Nat.zero_add, Nat.add_zero] at htotal
    exact htotal
  · rw [Tally.total_empty]
    omega

theorem validateReasonCounts_ok {batch : JsonMap} {reasons : Table String Nat}
    (hpublished : Published reasons)
    (htotal : U64.saturatingAdd 0 (Tally.total reasons) =
      U64.saturatingAdd ((batch.u64? "unknown_events").getD 0)
        (((batch.array? "conversion_errors").map List.length).getD 0)) :
    validateReasonCounts batch (reasons.entries.map fun entry => (entry.1, .num entry.2)) =
      .ok () := by
  have hloop : ∀ (entries : List (String × Nat)) (start : Nat),
      (∀ entry ∈ entries, qualityReasonCodes.contains entry.1 = true ∧ entry.2 < U64.limit) →
      ((entries.map fun entry => (entry.1, Json.num entry.2)).foldlM (fun total field => do
        bailIf (field.1 != legacyUnclassifiedQualityReason &&
            !qualityReasonCodes.contains field.1)
          "telemetryBatch.quality_error_reasons contains an unsupported code"
        let count ← okOr field.2.asU64
          "telemetryBatch.quality_error_reasons values must be non-negative integers"
        pure (U64.saturatingAdd total count)) start : Except CaptureError Nat) =
          .ok ((entries.map Prod.snd).foldl U64.saturatingAdd start) := by
    intro entries
    induction entries with
    | nil => exact fun start _ => rfl
    | cons entry rest ih =>
        intro start hall
        obtain ⟨hcode, hcount⟩ := hall entry List.mem_cons_self
        have hread : (Json.num entry.2).asU64 = some entry.2 := Json.asU64_natCast_of_lt hcount
        rw [List.map_cons, List.foldlM_cons]
        dsimp only
        rw [hcode, hread, Bool.not_true, Bool.and_false]
        exact ih _ fun other hother => hall other (List.mem_cons_of_mem _ hother)
  have hentries : ∀ entry ∈ reasons.entries,
      qualityReasonCodes.contains entry.1 = true ∧ entry.2 < U64.limit := fun entry hentry =>
    hpublished entry.1 entry.2 ((reasons.mem_entries _ _).mp hentry)
  have hsum := U64.foldl_saturatingAdd (reasons.entries.map Prod.snd) (by decide : 0 < U64.limit)
  have hrun := hloop reasons.entries 0 hentries
  rw [hsum] at hrun
  refine Except.bind_eq_ok_iff.mpr ⟨_, hrun, bailIf_eq_ok.mpr ?_⟩
  rw [bne_eq_false_iff_eq]
  exact htotal

variable {sha256 : Bytes → String} {object : JsonMap} {rawJson : String} {value : Json}
  {summary : CloudIngestSummary}

theorem u64?_of_get {key : String} {n : Nat} (hget : object.get key = some (.num n))
    (hn : n < U64.limit) : object.u64? key = some n := by
  rw [JsonMap.u64?, hget, Option.bind_some, Json.asU64_natCast_of_lt hn]

/-- A batch of a reportable summary passes its check. -/
theorem validateTelemetryBatch_ok (h : Reportable summary)
    (hbatch : object.get "telemetryBatch" = some (.obj (batchFields rawJson
      (textBytes rawJson).length (sha256 (textBytes rawJson)) summary)))
    (hparse : parseText rawJson = some value) (hlength : (textBytes rawJson).length < U64.limit) :
    validateTelemetryBatch sha256 object = .ok () := by
  have hread : readJson rawJson = .ok value := by rw [readJson, hparse]
  have hreasons : validateReasonCounts (batchFields rawJson (textBytes rawJson).length
      (sha256 (textBytes rawJson)) summary) ((qualityErrorReasons summary).entries.map fun entry =>
        (entry.1, .num entry.2)) = .ok () :=
    validateReasonCounts_ok (qualityErrorReasons_published h.unknownEvents) (by
      rw [qualityErrorReasons_total]
      have hunknown : JsonMap.u64? (batchFields rawJson (textBytes rawJson).length
          (sha256 (textBytes rawJson)) summary) "unknown_events" = some summary.unknownEvents :=
        u64?_of_get rfl h.unknownEvents
      have herrors : JsonMap.array? (batchFields rawJson (textBytes rawJson).length
          (sha256 (textBytes rawJson)) summary) "conversion_errors" =
            some (summary.conversionErrors.map Json.str) := rfl
      rw [hunknown, herrors, Option.map_some, List.length_map]
      rfl)
  rw [validateTelemetryBatch, hbatch]
  refine Except.bind_eq_ok_iff.mpr ⟨_, rfl, ?_⟩
  refine Except.bind_eq_ok_iff.mpr ⟨(), rfl, ?_⟩
  refine Except.bind_eq_ok_iff.mpr ⟨(), ?_, ?_⟩
  · refine bailIf_eq_ok.mpr ?_
    rw [Bool.not_eq_false']
    exact h.endpoint
  refine Except.bind_eq_ok_iff.mpr ⟨rawJson, rfl, ?_⟩
  refine Except.bind_eq_ok_iff.mpr ⟨value, by rw [hread]; rfl, ?_⟩
  refine Except.bind_eq_ok_iff.mpr ⟨(), bailIf_eq_ok.mpr ?_, ?_⟩
  · rw [bne_eq_false_iff_eq]
    exact u64?_of_get rfl hlength
  refine Except.bind_eq_ok_iff.mpr ⟨(), bailIf_eq_ok.mpr ?_, ?_⟩
  · rw [bne_eq_false_iff_eq]
    rfl
  refine Except.bind_eq_ok_iff.mpr ⟨(), ?_, ?_⟩
  · refine List.forM_eq_ok_iff.mpr fun field hfield => bailIf_eq_ok.mpr ?_
    simp only [List.mem_cons, List.not_mem_nil, or_false] at hfield
    rcases hfield with rfl | rfl | rfl
    · exact congrArg Option.isNone (u64?_of_get rfl h.sourceRecords)
    · exact congrArg Option.isNone (u64?_of_get rfl h.derivedCaptures)
    · exact congrArg Option.isNone (u64?_of_get rfl h.unknownEvents)
  refine Except.bind_eq_ok_iff.mpr ⟨(), bailIf_eq_ok.mpr ?_, ?_⟩
  · have hget : JsonMap.get (batchFields rawJson (textBytes rawJson).length
        (sha256 (textBytes rawJson)) summary) "attributed_quality_errors" =
          some (.num summary.attributedQualityErrors) := rfl
    rw [hget, Option.any_some, Json.asU64_natCast_of_lt h.attributedQualityErrors]
    rfl
  refine Except.bind_eq_ok_iff.mpr ⟨(), bailIf_eq_ok.mpr ?_, ?_⟩
  · change (summary.conversionErrors.map Json.str).any _ = false
    rw [List.any_map, List.any_eq_false]
    intro error herror
    simpa [Json.asStr] using h.errors error herror
  exact hreasons

end Valid

section Size

theorem reasonObject_within (reasons : Table String Nat) : Json.Within 1 (reasonObject reasons) := by
  refine Json.within_obj_iff.mpr ⟨?_, fun field hfield => ?_⟩
  · exact List.pairwise_map.mpr (reasons.sorted.imp fun hlt => hlt)
  · obtain ⟨entry, _, rfl⟩ := List.mem_map.mp hfield
    exact Json.within_num _

theorem batchFields_within (rawJson : String) (rawBytes : Nat) (rawSha256 : String)
    (summary : CloudIngestSummary) :
    Json.Within 2 (.obj (batchFields rawJson rawBytes rawSha256 summary)) := by
  refine Json.within_obj_iff.mpr ⟨batchFields_sorted _ _ _ _, fun field hfield => ?_⟩
  simp only [batchFields, List.mem_cons, List.not_mem_nil, or_false] at hfield
  rcases hfield with rfl | rfl | rfl | rfl | rfl | rfl | rfl | rfl | rfl | rfl | rfl
  · exact Json.within_num _
  · refine Json.within_arr_iff.mpr fun item hitem => ?_
    obtain ⟨error, _, rfl⟩ := List.mem_map.mp hitem
    exact Json.within_str error
  · exact Json.within_num _
  · exact Json.within_str _
  · exact reasonObject_within _
  · exact Json.within_num _
  · exact Json.within_str _
  · exact Json.within_str _
  · exact Json.within_str _
  · exact Json.within_num _
  · exact Json.within_num _

/-- The stored form is larger than what it was read from. -/
theorem batchEnvelope_size_le (captureId : String) (batch : JsonMap) :
    (jsonBytes (.obj (batchEnvelope captureId batch))).length ≤
      (jsonBytes (.obj (storedBatch captureId batch))).length := by
  change Json.byteSize (.obj (batchEnvelope captureId batch)) ≤
    Json.byteSize (.obj (storedBatch captureId batch))
  rw [Json.byteSize_obj (by simp [batchEnvelope]), Json.byteSize_obj (by simp [storedBatch])]
  simp only [OrdMap.weigh, batchEnvelope, storedBatch, List.map_cons, List.map_nil,
    List.sum_cons, List.sum_nil]
  omega

theorem batchFields_size (rawJson : String) (rawBytes : Nat) (rawSha256 : String)
    (summary : CloudIngestSummary) :
    Json.byteSize (.obj (batchFields rawJson rawBytes rawSha256 summary)) =
      Json.byteSize (.obj (batchFields "" rawBytes rawSha256 summary)) +
        Json.escapedSize rawJson := by
  have hempty : Json.escapedSize "" = 0 := rfl
  rw [Json.byteSize_obj (by simp [batchFields]), Json.byteSize_obj (by simp [batchFields])]
  simp only [OrdMap.weigh, batchFields, List.map_cons, List.map_nil, List.sum_cons,
    List.sum_nil, Json.fieldSize, Json.byteSize_str, hempty]
  omega

/-- The raw text adds its escaped size to the size of the record without it. -/
theorem storedBatch_size (captureId rawJson : String) (rawBytes : Nat) (rawSha256 : String)
    (summary : CloudIngestSummary) :
    (jsonBytes (.obj (storedBatch captureId
        (batchFields rawJson rawBytes rawSha256 summary)))).length =
      Json.byteSize (.obj (storedBatch captureId (batchFields "" rawBytes rawSha256 summary))) +
        Json.escapedSize rawJson := by
  have hfields := batchFields_size rawJson rawBytes rawSha256 summary
  change Json.byteSize (.obj (storedBatch captureId _)) = _
  rw [Json.byteSize_obj (by simp [storedBatch]), Json.byteSize_obj (by simp [storedBatch])]
  simp only [OrdMap.weigh, storedBatch, List.map_cons, List.map_nil, List.sum_cons,
    List.sum_nil, Json.fieldSize]
  omega

end Size

section Retention

variable (platform : Platform) (endpoint : CloudEndpoint)

/-- What the bytes of a request say and what was derived from them. -/
def rawText (raw : Bytes) : String := String.ofList ((Bytes.decode? raw).getD [])

def derivedFrom (envelope : JsonMap) (raw : Bytes) (limit : ByteLimit) : DerivedBatch :=
  deriveEndpoint platform endpoint (.obj envelope) (platform.sha256 raw) limit

def summaryOf (envelope : JsonMap) (raw : Bytes) (limit : ByteLimit) : CloudIngestSummary :=
  summarizeBatch endpoint (derivedFrom platform endpoint envelope raw limit)

def batchCaptureId (raw : Bytes) : String :=
  let batchId := platform.stableDigest ["batch", endpoint.asStr, platform.sha256 raw]
  s!"cap-cloud-{batchId}"

/-- The batch of a request. -/
def batchOf (envelope : JsonMap) (raw : Bytes) (limit : ByteLimit) : JsonMap :=
  batchFields (rawText raw) raw.length (platform.sha256 raw)
    (summaryOf platform endpoint envelope raw limit)

/-- The size of the stored record without the raw text. -/
def batchOverhead (envelope : JsonMap) (raw : Bytes) (limit : ByteLimit) : Nat :=
  Json.byteSize (.obj (storedBatch (batchCaptureId platform endpoint raw)
    (batchFields "" raw.length (platform.sha256 raw)
      (summaryOf platform endpoint envelope raw limit))))

/-- A record that embeds the raw text with its length and digest, and the errors of its
conversion. -/
structure EmbedsRaw (raw : Bytes) (summary : CloudIngestSummary) (record : CaptureRecord) :
    Prop where
  stored : ∃ value batch rawJson, parseBytes record.canonical = some value ∧
    value.get? "recordType" = some (.str "telemetry_batch") ∧
    value.get? "telemetryBatch" = some batch ∧
    batch.get? "raw_json" = some (.str rawJson) ∧ textBytes rawJson = raw ∧
    batch.get? "raw_bytes" = some (.num raw.length) ∧
    batch.get? "raw_sha256" = some (.str (platform.sha256 raw)) ∧
    batch.get? "conversion_errors" = some (.arr (summary.conversionErrors.map Json.str))

/-- The ingest keeps the raw text next to the captures that could be derived. -/
structure Retained (envelope : JsonMap) (raw : Bytes) (limit : ByteLimit)
    (batch : CloudIngestBatch) : Prop where
  head : ∃ record, EmbedsRaw platform raw batch.summary record ∧
    batch.records = record :: (derivedFrom platform endpoint envelope raw limit).records
  summary : batch.summary = summaryOf platform endpoint envelope raw limit

variable {platform} {endpoint}
variable (hdigest : ∀ bytes, isHexDigest (platform.sha256 bytes) = true)
  {envelope : JsonMap} {raw : Bytes} (hraw : parseBytes raw = some (.obj envelope))

theorem textBytes_rawText (hraw : parseBytes raw = some (.obj envelope)) :
    textBytes (rawText raw) = raw ∧ parseText (rawText raw) = some (.obj envelope) := by
  rw [parseBytes, Option.bind_eq_some_iff] at hraw
  obtain ⟨text, htext, hparse⟩ := hraw
  rw [rawText, htext, Option.getD_some, textBytes, parseText, String.toList_ofList]
  exact ⟨Bytes.encode_of_decode? htext, hparse⟩

theorem summaryOf_reportable (limit : ByteLimit) :
    Reportable (summaryOf platform endpoint envelope raw limit) := by
  have h := deriveEndpoint_reportable platform endpoint (.obj envelope) (platform.sha256 raw) limit
  refine ⟨?_, h.sourceRecords, U64.ofLength_lt _, h.unknownEvents, ?_, h.errors⟩
  · cases endpoint <;> rfl
  · exact lt_of_le_of_lt (Nat.min_le_left _ _) (U64.ofLength_lt _)

theorem telemetryBatchValue_of (limit : ByteLimit) (hbytes : textBytes (rawText raw) = raw) :
    telemetryBatchValue platform (rawText raw) (platform.sha256 raw)
        (summaryOf platform endpoint envelope raw limit) =
      .obj (batchEnvelope (batchCaptureId platform endpoint raw)
        (batchOf platform endpoint envelope raw limit)) := by
  rw [telemetryBatchValue_eq, hbytes]
  rfl

include hdigest hraw

variable (endpoint) in
/-- Without a limit the record of a readable request is always stored. -/
theorem normalizeUnbounded_batch (limit : ByteLimit) (hlength : raw.length < U64.limit) :
    ∃ record, normalizeUnbounded platform.sha256 (jsonBytes (.obj (batchEnvelope
        (batchCaptureId platform endpoint raw) (batchOf platform endpoint envelope raw limit))))
          true = .ok record ∧
      record.canonical = jsonBytes (.obj (storedBatch (batchCaptureId platform endpoint raw)
        (batchOf platform endpoint envelope raw limit))) := by
  obtain ⟨hbytes, hparse⟩ := textBytes_rawText hraw
  have hwithin : Json.Within 2 (.obj (batchOf platform endpoint envelope raw limit)) :=
    batchFields_within _ _ _ _
  have henvelope : Json.Within 3 (.obj (batchEnvelope (batchCaptureId platform endpoint raw)
      (batchOf platform endpoint envelope raw limit))) := batchEnvelope_within hwithin
  have hread := readEnvelope_jsonBytes henvelope.1
    (lt_of_le_of_lt henvelope.2 (by decide : 3 < Json.recursionLimit))
  have hid : checkCaptureId (batchEnvelope (batchCaptureId platform endpoint raw)
      (batchOf platform endpoint envelope raw limit)) =
        .ok (batchCaptureId platform endpoint raw) :=
    checkCaptureId_cloud (hdigest _) rfl
  have hsummary : Reportable (summaryOf platform endpoint envelope raw limit) :=
    summaryOf_reportable limit
  have hvalid : validateTelemetryBatch platform.sha256 (batchEnvelope
      (batchCaptureId platform endpoint raw) (batchOf platform endpoint envelope raw limit)) =
        .ok () := by
    refine validateTelemetryBatch_ok hsummary ?_ hparse ?_
    · rw [hbytes]
      rfl
    · rw [hbytes]
      exact hlength
  have hstages := batchEnvelope_stages hid hvalid
  obtain ⟨record, hrecord, _, hcanonical, _⟩ := normalizeUnbounded_of_stages hread
    (normalizeEnvelope_ok_iff.mpr ⟨_, _, hstages, rfl⟩)
  refine ⟨record, hrecord, ?_⟩
  rw [hcanonical]
  exact congrArg (fun stored => jsonBytes (.obj stored)) (storedForm_batch hwithin)

omit hdigest hraw in
theorem parse_storedBatch {limit : ByteLimit} {record : CaptureRecord}
    (hcanonical : record.canonical = jsonBytes (.obj (storedBatch
      (batchCaptureId platform endpoint raw) (batchOf platform endpoint envelope raw limit)))) :
    parseBytes record.canonical = some (.obj (storedBatch (batchCaptureId platform endpoint raw)
      (batchOf platform endpoint envelope raw limit))) := by
  have hbatch : Json.Within 2 (.obj (batchOf platform endpoint envelope raw limit)) :=
    batchFields_within _ _ _ _
  have hstored : Json.Within 5 (.obj (storedBatch (batchCaptureId platform endpoint raw)
      (batchOf platform endpoint envelope raw limit))) := by
    rw [← storedForm_batch hbatch]
    exact finishEnvelope_within (promoteProtocolFields_within
      ((batchEnvelope_within hbatch).mono (by omega)))
  rw [hcanonical, parseBytes_jsonBytes hstored.1,
    if_pos (lt_of_le_of_lt hstored.2 (by decide : 5 < Json.recursionLimit))]

omit hdigest in
/-- A stored batch can be read back. -/
theorem embedsRaw_of_canonical {limit : ByteLimit} {record : CaptureRecord}
    (hcanonical : record.canonical = jsonBytes (.obj (storedBatch
      (batchCaptureId platform endpoint raw) (batchOf platform endpoint envelope raw limit)))) :
    EmbedsRaw platform raw (summaryOf platform endpoint envelope raw limit) record :=
  ⟨.obj (storedBatch (batchCaptureId platform endpoint raw)
    (batchOf platform endpoint envelope raw limit)), .obj (batchOf platform endpoint envelope raw
      limit), rawText raw, parse_storedBatch hcanonical, rfl, rfl, rfl,
    (textBytes_rawText hraw).1, rfl, rfl, rfl⟩

omit hdigest in
theorem readIngestBody_ok {limit : ByteLimit} (hfits : limit.any (· < raw.length) = false) :
    readIngestBody platform raw limit = .ok (rawText raw, .obj envelope) := by
  have hread := hraw
  rw [parseBytes, Option.bind_eq_some_iff] at hread
  obtain ⟨text, htext, hparse⟩ := hread
  have hfilled : raw.isEmpty = false := by
    cases raw with
    | cons byte rest => rfl
    | nil =>
        rw [← Bytes.encode_nil, Bytes.decode?_encode, Option.some.injEq] at htext
        rw [← htext] at hparse
        cases hparse
  rw [readIngestBody, hfilled, hfits, htext]
  simp only [Bool.false_eq_true, if_false, hparse, rawText, htext, Option.getD_some]
  rfl

omit hdigest in
/-- The ingest of a readable body, up to the record that keeps it. -/
theorem prepareCloudIngest_eq {limit : ByteLimit} (hfits : limit.any (· < raw.length) = false) :
    prepareCloudIngest platform endpoint raw limit =
      (platform.normalizeValue limit (.obj (batchEnvelope
        (batchCaptureId platform endpoint raw)
          (batchOf platform endpoint envelope raw limit)))).map fun record =>
        ⟨record :: (derivedFrom platform endpoint envelope raw limit).records,
          summaryOf platform endpoint envelope raw limit⟩ := by
  have hvalue : telemetryBatchValue platform (rawText raw) (platform.sha256 raw)
        (summaryOf platform endpoint envelope raw limit) =
      .obj (batchEnvelope (batchCaptureId platform endpoint raw)
        (batchOf platform endpoint envelope raw limit)) :=
    telemetryBatchValue_of limit (textBytes_rawText hraw).1
  rw [prepareCloudIngest, readIngestBody_ok hraw hfits, Except.ok_bind, ← hvalue]
  change (platform.normalizeValue limit (telemetryBatchValue platform (rawText raw)
    (platform.sha256 raw) (summaryOf platform endpoint envelope raw limit)) >>= _) = _
  generalize telemetryBatchValue platform (rawText raw) (platform.sha256 raw)
    (summaryOf platform endpoint envelope raw limit) = value
  cases platform.normalizeValue limit value with
  | error error => rfl
  | ok record => rfl

/-- The stored record has the size of its other fields and of the escaped raw text. -/
theorem prepareCloudIngest_of_fits {maxBytes : Nat} (hfits : raw.length ≤ maxBytes)
    (hlength : raw.length < U64.limit)
    (hsize : batchOverhead platform endpoint envelope raw (some maxBytes) +
      Json.escapedSize (rawText raw) ≤ maxBytes) :
    ∃ record, prepareCloudIngest platform endpoint raw (some maxBytes) =
        .ok ⟨record :: (derivedFrom platform endpoint envelope raw (some maxBytes)).records,
          summaryOf platform endpoint envelope raw (some maxBytes)⟩ ∧
      record.canonical = jsonBytes (.obj (storedBatch (batchCaptureId platform endpoint raw)
        (batchOf platform endpoint envelope raw (some maxBytes)))) := by
  obtain ⟨record, hrecord, hcanonical⟩ := normalizeUnbounded_batch endpoint hdigest hraw
    (some maxBytes) hlength
  have hstored : record.canonical.length ≤ maxBytes := by
    refine le_trans (le_of_eq ?_) hsize
    rw [hcanonical]
    exact storedBatch_size _ _ _ _ _
  have hwritten : (jsonBytes (.obj (batchEnvelope (batchCaptureId platform endpoint raw)
      (batchOf platform endpoint envelope raw (some maxBytes))))).length ≤ maxBytes := by
    refine le_trans (batchEnvelope_size_le _ _) ?_
    rw [← hcanonical]
    exact hstored
  have hread : platform.normalizeValue (some maxBytes) (.obj (batchEnvelope
      (batchCaptureId platform endpoint raw)
        (batchOf platform endpoint envelope raw (some maxBytes)))) = .ok record :=
    normalizeValue_ok_iff.mpr (normalizeCapture_ok_iff.mpr ⟨hrecord, hwritten, hstored⟩)
  refine ⟨record, ?_, hcanonical⟩
  rw [prepareCloudIngest_eq hraw (by simpa using hfits), hread]
  rfl

end Retention

section Export

/-- An export without any log record. -/
def emptyExport : Bytes := textBytes "\x7b\"resourceLogs\":[]\x7d"

/-- The digests of the texts that the ingest of the empty export hashes, told apart by
their lengths. -/
def exportDigest (bytes : Bytes) : String :=
  match bytes.length with
  | 19 => "6e8a0c7b2e88c8fd437e4b5ab947d4c7a17040d8de489f4bd7dc8081135856a6"
  | 102 => "fbbb2d11b0b16ba86fe5109fd305592660a7614d7ce3b47c6c562ddc5f547d91"
  | 541 => "469bb96515540eb5ac8e274af48a1e1c0acd5d510c890780e20557b166088d0e"
  | _ => "a293bd01001921328f6cf89d62ae3487ec52f29fabe6ec1468b9ab4923855f16"

def exportPlatform : Platform where
  sha256 := exportDigest
  quoted := fun text => "\"" ++ text ++ "\""
  jsonFault := fun _ => ⟨"expected value", 1, 1⟩
  utf8Error := fun _ => "invalid utf-8 sequence of 1 bytes from index 0"
  formatUnixNanos := fun _ => none
  subtractMillis := fun _ _ => none

theorem exportDigest_hex (bytes : Bytes) : isHexDigest (exportPlatform.sha256 bytes) = true := by
  change isHexDigest (exportDigest bytes) = true
  rw [exportDigest]
  split <;> exact (isHexDigest_ofList _).trans (by decide)

theorem parse_emptyExport :
    parseBytes emptyExport = some (.obj [("resourceLogs", .arr [])]) := by
  rw [parseBytes, emptyExport, textBytes, Bytes.decode?_encode, Option.bind_some]
  exact (congrArg Json.parse String.toList_ofList).trans (by decide +kernel)

/-- What evaluation finds out about the empty export: its batch is refused under its own
length and fits a kilobyte. -/
theorem emptyExport_evaluates :
    emptyExport.length ≤ 19 ∧
      (exportPlatform.normalizeValue (some 19) (.obj (batchEnvelope
        (batchCaptureId exportPlatform .otlpLogs emptyExport)
        (batchOf exportPlatform .otlpLogs [("resourceLogs", .arr [])] emptyExport
          (some 19))))).isOk = false ∧
      batchOverhead exportPlatform .otlpLogs [("resourceLogs", .arr [])] emptyExport
          (some (1024 : UInt64).toNat) + Json.escapedSize (rawText emptyExport) ≤
        (1024 : UInt64).toNat := by
  decide +kernel

end Export

end ChipTrace
