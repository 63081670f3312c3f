/-
Fields that the normalisation only carries along: replacing one replaces it in the
stored form and changes nothing else there.
-/
import ChipTrace.Capture.Repromotion

namespace ChipTrace

/-- The fields that the promotion and the stored form read. -/
def readKeys : List String :=
  storedKeys ++ ["requestBody", "responseBody", "finishedAt", "startedAt"] ++
    traceAliases.flatMap Prod.snd

section Congruence

variable {object other : JsonMap} (h : AgreeOn readKeys object other)
include h

theorem headerOf_read {side name : String} (hside : side ∈ ["requestHeaders",
    "responseHeaders"]) : headerOf object side name = headerOf other side name := by
  refine headerOf_congr (h side ?_)
  simp only [List.mem_cons, List.not_mem_nil, or_false] at hside
  rcases hside with rfl | rfl <;> decide

theorem requestOf_read : requestOf object = requestOf other := by
  rw [requestOf, h "requestBody" (by decide), requestOf]

theorem sourcesOf_read :
    SameObserved (sourcesOf object) (sourcesOf other) ∧
      (sourcesOf object).captured = (sourcesOf other).captured ∧
      (sourcesOf object).evidenced = (sourcesOf other).evidenced := by
  refine ⟨⟨?_, ?_, ?_, ?_, ?_⟩, ?_, ?_⟩
  · intro name _
    rw [sourcesOf_requestHeaders, object?_congr (h "requestHeaders" (by decide)),
      sourcesOf_requestHeaders]
  · intro entry hentry name hname
    rw [sourcesOf_topLevel, sourcesOf_topLevel]
    exact h name (List.mem_append_right _ (List.mem_flatMap.mpr ⟨entry, hentry, hname⟩))
  · rw [sourcesOf_metadata, requestOf_read h, sourcesOf_metadata]
  · rw [sourcesOf_turnMetadata, requestOf_read h, sourcesOf_turnMetadata]
  · rw [sourcesOf_request, requestOf_read h, sourcesOf_request]
  · rw [sourcesOf_captured, object?_congr (h "traceContext" (by decide)), sourcesOf_captured]
  · rw [sourcesOf_evidenced, sourcesOf_evidenced, evidenceFields, evidenceFields, JsonMap.array?,
      JsonMap.array?, h "fieldEvidence" (by decide)]

theorem promoteTrace_read : promoteTrace (sourcesOf object) = promoteTrace (sourcesOf other) :=
  have hsources := sourcesOf_read h
  hsources.1.promoteTrace hsources.2.1 hsources.2.2

theorem requestId_read {field header : String} (hfield : field ∈ ["requestId",
    "upstreamRequestId"]) : requestId object field header = requestId other field header := by
  refine requestId_congr (h field ?_) (headerOf_read h (by simp)) (headerOf_read h (by simp))
  simp only [List.mem_cons, List.not_mem_nil, or_false] at hfield
  rcases hfield with rfl | rfl <;> decide

theorem recordedItems_read {field : String} (hfield : field ∈ ["fieldEvidence",
    "fieldEvidenceConflicts"]) : recordedItems object field = recordedItems other field := by
  have hget : object.get field = other.get field := by
    refine h field ?_
    simp only [List.mem_cons, List.not_mem_nil, or_false] at hfield
    rcases hfield with rfl | rfl <;> decide
  rw [recordedItems, JsonMap.array?, hget, recordedItems, JsonMap.array?]

theorem addedEvidence_read : addedEvidence object = addedEvidence other := by
  rw [addedEvidence, addedEvidence, promoteTrace_read h, idEvidence, idEvidence, idEvidence,
    idEvidence, requestId_read h (by simp), requestId_read h (by simp),
    ← sourcesOf_evidenced, (sourcesOf_read h).2.2, sourcesOf_evidenced]

/-- The promotion gives the fields that it reads the same values. -/
theorem promoteProtocolFields_read {key : String} (hkey : key ∈ readKeys) :
    (promoteProtocolFields object).get key = (promoteProtocolFields other).get key := by
  by_cases htrace : key = "traceContext"
  · rw [htrace, promoteProtocolFields_traceContext, promoteTrace_read h,
      promoteProtocolFields_traceContext]
  by_cases hrequest : key = "requestId"
  · rw [hrequest, promoteProtocolFields_requestId, promotedId, requestId_read h (by simp),
      h "requestId" (by decide), promoteProtocolFields_requestId, promotedId]
  by_cases hupstream : key = "upstreamRequestId"
  · rw [hupstream, promoteProtocolFields_upstreamRequestId, promotedId,
      requestId_read h (by simp), h "upstreamRequestId" (by decide),
      promoteProtocolFields_upstreamRequestId, promotedId]
  by_cases hevidence : key = "fieldEvidence"
  · rw [hevidence, promoteProtocolFields_fieldEvidence, recordedItems_read h (by simp),
      addedEvidence_read h, promoteProtocolFields_fieldEvidence]
  by_cases hconflicts : key = "fieldEvidenceConflicts"
  · rw [hconflicts, promoteProtocolFields_conflicts, recordedItems_read h (by simp),
      addedConflicts, promoteTrace_read h, promoteProtocolFields_conflicts, addedConflicts]
  by_cases hstage : key = "captureStage"
  · rw [hstage, promoteProtocolFields_stage, promoteProtocolFields_stage,
      h "captureStage" (by decide), stageOf, stageOf, h "requestBody" (by decide),
      h "responseBody" (by decide)]
  rw [promoteProtocolFields_get _ (by simp [htrace, hrequest, hupstream, hevidence, hconflicts,
    hstage]), h key hkey, promoteProtocolFields_get _ (by simp [htrace, hrequest, hupstream,
    hevidence, hconflicts, hstage])]

/-- The redacted headers and names are those of the header fields. -/
theorem redactedEnvelope_read {key : String}
    (hkey : key ∈ ["requestHeaders", "responseHeaders", "version", "redactedHeaders"]) :
    (redactedEnvelope object).get key = (redactedEnvelope other).get key := by
  have hpublic : ∀ side ∈ ["requestHeaders", "responseHeaders"],
      publicHeaders object side = publicHeaders other side := by
    intro side hside
    rw [publicHeaders, object?_congr (h side ?_), publicHeaders]
    simp only [List.mem_cons, List.not_mem_nil, or_false] at hside
    rcases hside with rfl | rfl <;> decide
  have hnames : (sanitizeHeaders object).2 = (sanitizeHeaders other).2 := by
    rw [sanitizeHeaders, sanitizeHeaders, credentialNames, credentialNames, credentialNames,
      credentialNames, object?_congr (h "requestHeaders" (by decide)),
      object?_congr (h "responseHeaders" (by decide)), recordedNames, recordedNames,
      JsonMap.array?, JsonMap.array?, h "redactedHeaders" (by decide)]
  simp only [List.mem_cons, List.not_mem_nil, or_false] at hkey
  rcases hkey with rfl | rfl | rfl | rfl
  · rw [redactedEnvelope_side (by simp), redactedEnvelope_side (by simp),
      hpublic _ (by simp)]
  · rw [redactedEnvelope_side (by simp), redactedEnvelope_side (by simp),
      hpublic _ (by simp)]
  · rw [redactedEnvelope, JsonMap.get_insert_of_ne (by decide), JsonMap.get_insert_self,
      redactedEnvelope, JsonMap.get_insert_of_ne (by decide), JsonMap.get_insert_self]
  · rw [redactedEnvelope, JsonMap.get_insert_self, redactedEnvelope, JsonMap.get_insert_self,
      hnames]

theorem finishEnvelope_read {key : String} (hkey : key ∈ storedKeys) :
    (finishEnvelope object).get key = (finishEnvelope other).get key := by
  have hread : object.get key = other.get key :=
    h key (List.mem_append_left _ (List.mem_append_left _ hkey))
  by_cases hredacted : key ∈ ["requestHeaders", "responseHeaders", "version", "redactedHeaders"]
  · rw [finishEnvelope_redacted hredacted, finishEnvelope_redacted hredacted,
      redactedEnvelope_read h hredacted]
  by_cases hreceived : key = "receivedAt"
  · rw [hreceived, finishEnvelope_receivedAt, finishEnvelope_receivedAt,
      h "receivedAt" (by decide), receivedAtOf_congr fun time htime => h time (by
        revert time
        decide)]
  cases hdefault : OrdMap.lookup key storedDefaults with
  | some value => rw [finishEnvelope_default hdefault, hread, finishEnvelope_default hdefault]
  | none =>
      have hkept : key ∉ ["requestHeaders", "responseHeaders", "version", "redactedHeaders",
          "receivedAt", "traceContext", "observedLifecycleEvents", "requestTruncated",
          "responseTruncated", "stream", "captureError"] := by
        intro hmem
        have hdefaults : key ∈ storedDefaults.map Prod.fst := by
          simp only [List.mem_cons, List.not_mem_nil, or_false, not_or] at hmem hredacted
          simpa [storedDefaults, hredacted, hreceived] using hmem
        simp only [storedDefaults, List.map_cons, List.map_nil, List.mem_cons, List.not_mem_nil,
          or_false] at hdefaults
        rcases hdefaults with rfl | rfl | rfl | rfl | rfl | rfl <;> cases hdefault
      rw [finishEnvelope_get hkept, hread, finishEnvelope_get hkept]

end Congruence

section Replace

variable {object : JsonMap} {key : String} {value : Json}

/-- Replacing a field that is only carried along replaces it in the stored form. -/
theorem storedForm_insert (hkey : key ∉ readKeys) (hsorted : OrdMap.Sorted (storedForm object))
    (hreplaced : OrdMap.Sorted (storedForm (object.insert key value))) :
    storedForm (object.insert key value) = (storedForm object).insert key value := by
  have hagree : AgreeOn readKeys (object.insert key value) object := fun read hread =>
    JsonMap.get_insert_of_ne fun hsame => hkey (hsame ▸ hread)
  have hstored : key ∉ storedKeys := fun hmem =>
    hkey (List.mem_append_left _ (List.mem_append_left _ hmem))
  refine OrdMap.ext_of_sorted hreplaced (OrdMap.sorted_insert key value hsorted) fun other => ?_
  change (storedForm (object.insert key value)).get other =
    ((storedForm object).insert key value).get other
  by_cases hsame : other = key
  · rw [hsame, storedForm_get hstored, JsonMap.get_insert_self, JsonMap.get_insert_self]
  rw [JsonMap.get_insert_of_ne hsame]
  by_cases hother : other ∈ storedKeys
  · exact finishEnvelope_read (fun read hread => promoteProtocolFields_read hagree hread) hother
  · rw [storedForm_get hother, JsonMap.get_insert_of_ne hsame, storedForm_get hother]

end Replace

end ChipTrace
