/-
Normalising stored bytes again: the reader takes the stored form back when its
nesting allows it, and the second run reproduces it when every trace field is stable.
-/
import ChipTrace.Capture.Repromotion

namespace ChipTrace

/-- The request object of an envelope whose body may still be a text. -/
def envelopeRequest (envelope : JsonMap) : JsonMap :=
  match envelope.get "requestBodyText" with
  | none => requestOf envelope
  | some text => ((text.asStr.bind parseText).bind Json.asObject).getD []

/-- The body texts stay readable inside their wrappers, and no trace field changes its
outcome when the trace context no longer counts as a source. -/
structure StableEnvelope (envelope : JsonMap) : Prop where
  request : TextFits 125 envelope requestBodyFields
  response : TextFits 125 envelope responseBodyFields
  fields : ∀ field aliases, (field, aliases) ∈ traceAliases →
    FieldStable (sourcesWith envelope (envelopeRequest envelope))
      (recordedItems envelope "fieldEvidenceConflicts") field aliases

section Sources

variable {sha256 : Bytes → String} {enforced : Bool} {envelope bodies : JsonMap}
  {captureId : String}

theorem FieldStable.congr {left right : CandidateSources} {conflicts : List Json}
    {field : String} {aliases : List String} (h : FieldStable left conflicts field aliases)
    (hobserved : left.observedCandidates field aliases = right.observedCandidates field aliases)
    (hcaptured : left.captured = right.captured) (hevidenced : left.evidenced = right.evidenced) :
    FieldStable right conflicts field aliases := by
  have hcandidates : left.capturedCandidates field aliases =
      right.capturedCandidates field aliases := by
    rw [CandidateSources.capturedCandidates, hcaptured, hevidenced,
      CandidateSources.capturedCandidates]
  exact ⟨by rw [← hcandidates, ← hobserved]; exact h.conflict,
    by rw [← hcandidates, ← hobserved, ← hcaptured]; exact h.selection⟩

theorem extractBody_wrapBodyText (text : String) :
    ((extractBody (some (wrapBodyText text))).bind Json.asObject) =
      (parseText text).bind Json.asObject := by
  rw [wrapBodyText]
  cases hparse : parseText text with
  | none => simp [extractBody, Json.mkObj, Json.mkFields, Json.get?, OrdMap.lookup_insert,
      Json.asStr, Json.asObject]
  | some value => simp [extractBody, Json.mkObj, Json.mkFields, Json.get?, OrdMap.lookup_insert,
      Json.asStr]

/-- The settled body of the request holds the object of its text. -/
theorem requestOf_bodies (h : BodiesNormalized sha256 (withRecordType envelope) bodies) :
    requestOf bodies = envelopeRequest envelope := by
  have hget : ∀ key, key ≠ "recordType" →
      (withRecordType envelope).get key = envelope.get key := fun key hkey =>
    JsonMap.get_orInsert_of_ne hkey
  have hcases := h.body requestBodyFields (by simp)
  rw [envelopeRequest]
  rcases hcases with ⟨hnone, hbody⟩ | ⟨text, hgiven, hbody⟩
  · rw [requestBodyFields] at hnone hbody
    rw [hget _ (by decide)] at hnone hbody
    rw [hnone, requestOf, hbody, requestOf]
  · rw [requestBodyFields] at hbody hgiven
    rw [hget _ (by decide)] at hgiven
    rw [requestOf, hbody, extractBody_wrapBodyText]
    rcases hgiven with ⟨hnull, rfl⟩ | htext
    · rw [hnull]
      have hempty : parseText "" = none := by decide
      rw [hempty]
      rfl
    · rw [htext]
      rfl

theorem sameSources_bodies (h : BodiesNormalized sha256 (withRecordType envelope) bodies) :
    SameObserved (sourcesWith envelope (envelopeRequest envelope)) (sourcesOf bodies) ∧
      (sourcesWith envelope (envelopeRequest envelope)).captured = (sourcesOf bodies).captured ∧
      (sourcesWith envelope (envelopeRequest envelope)).evidenced =
        (sourcesOf bodies).evidenced := by
  have hget : ∀ key, key ≠ "recordType" → key ∉ bodyKeys → bodies.get key = envelope.get key :=
    fun key htype hbody => by
      rw [h.frame key hbody]
      exact JsonMap.get_orInsert_of_ne htype
  rw [sourcesOf, requestOf_bodies h]
  refine ⟨⟨?_, ?_, rfl, rfl, rfl⟩, ?_, ?_⟩
  · intro name _
    simp only [sourcesWith, object?_congr (hget "requestHeaders" (by decide) (by decide))]
  · intro entry hentry name hname
    simp only [sourcesWith]
    refine (hget name ?_ ?_).symm <;> revert name <;> revert entry <;> decide
  · simp only [sourcesWith, object?_congr (hget "traceContext" (by decide) (by decide))]
  · simp only [sourcesWith, evidenceFields, JsonMap.array?,
      hget "fieldEvidence" (by decide) (by decide)]

/-- The fields of the envelope are stable when those of its settled form are. -/
theorem fieldStable_bodies_iff (h : BodiesNormalized sha256 (withRecordType envelope) bodies)
    {field : String} {aliases : List String} (hfield : (field, aliases) ∈ traceAliases) :
    FieldStable (sourcesWith envelope (envelopeRequest envelope))
        (recordedItems envelope "fieldEvidenceConflicts") field aliases ↔
      FieldStable (sourcesOf bodies) (recordedItems bodies "fieldEvidenceConflicts") field
        aliases := by
  obtain ⟨hsame, hcaptured, hevidenced⟩ := sameSources_bodies h
  have hconflicts : recordedItems envelope "fieldEvidenceConflicts" =
      recordedItems bodies "fieldEvidenceConflicts" := by
    rw [recordedItems, recordedItems, JsonMap.array?, JsonMap.array?, h.frame _ (by decide),
      withRecordType, JsonMap.get_orInsert_of_ne (by decide)]
  rw [hconflicts]
  exact ⟨fun hstable => hstable.congr (hsame.observedCandidates hfield) hcaptured hevidenced,
    fun hstable => hstable.congr (hsame.observedCandidates hfield).symm hcaptured.symm
      hevidenced.symm⟩

end Sources

section Envelope

variable {sha256 : Bytes → String} {enforced : Bool} {envelope bodies : JsonMap}
  {captureId : String}

theorem withRecordType_within {bound : Nat} (h : Json.Within (bound + 1) (.obj envelope)) :
    Json.Within (bound + 1) (.obj (withRecordType envelope)) :=
  within_orInsert h (Json.within_str _)

theorem textFits_withRecordType {bound : Nat} {fields : BodyFields}
    (hne : fields.text ≠ "recordType") :
    TextFits bound (withRecordType envelope) fields ↔ TextFits bound envelope fields := by
  rw [TextFits, withRecordType, JsonMap.get_orInsert_of_ne hne, TextFits]

variable (hwithin : Json.Within 127 (.obj envelope))
include hwithin

theorem envelope_sorted : OrdMap.Sorted envelope :=
  (Json.within_obj_iff.mp (hwithin : Json.Within (126 + 1) _)).1

variable (h : EnvelopeStages sha256 enforced envelope captureId bodies)
include h

/-- Whatever the nesting of the texts, the stored form is well formed. -/
theorem EnvelopeStages.bodies_within : Json.Within 129 (.obj bodies) :=
  (h.normalized (envelope_sorted hwithin)).within 127
    (withRecordType_within (hwithin.mono (by omega))) textFits_reader textFits_reader

theorem EnvelopeStages.stored_within : Json.Within 129 (.obj (storedForm bodies)) :=
  finishEnvelope_within (promoteProtocolFields_within (h.bodies_within hwithin))

theorem EnvelopeStages.stored_sorted : OrdMap.Sorted (storedForm bodies) :=
  (Json.within_obj_iff.mp (h.stored_within hwithin : Json.Within (128 + 1) _)).1

/-- The stored form nests within the reader's limit exactly when the texts do. -/
theorem EnvelopeStages.stored_depth_iff :
    (Json.obj (storedForm bodies)).depth < Json.recursionLimit ↔
      TextFits 125 envelope requestBodyFields ∧ TextFits 125 envelope responseBodyFields := by
  have hlimit : Json.recursionLimit = 128 := rfl
  have hnormalized := h.normalized (envelope_sorted hwithin)
  have hrequest : TextFits 125 (withRecordType envelope) requestBodyFields ↔
      TextFits 125 envelope requestBodyFields := textFits_withRecordType (by decide)
  have hresponse : TextFits 125 (withRecordType envelope) responseBodyFields ↔
      TextFits 125 envelope responseBodyFields := textFits_withRecordType (by decide)
  constructor
  · intro hdepth
    have hfits : ∀ fields ∈ [requestBodyFields, responseBodyFields],
        fields.body ∉ storedKeys → TextFits 125 (withRecordType envelope) fields := by
      intro fields hfields hkey text value hget hparse
      rcases hnormalized.body fields hfields with ⟨hnone, _⟩ | ⟨other, hgiven, hbody⟩
      · rw [hget] at hnone
        cases hnone
      · have hsame : other = text := by
          rcases hgiven with ⟨hnull, _⟩ | hother
          · rw [hget] at hnull
            cases hnull
          · rw [hget] at hother
            exact (Json.str.inj (Option.some.inj hother)).symm
        subst hsame
        have hstored : (Json.obj (storedForm bodies)).get? fields.body =
            some (wrapBodyText other) := by
          rw [Json.get?, ← hbody]
          exact storedForm_get hkey
        have houter := Json.depth_lt_of_get? hstored
        have hinner := wrapBodyText_depth hparse
        omega
    exact ⟨hrequest.mp (hfits _ (by simp) (by decide)),
      hresponse.mp (hfits _ (by simp) (by decide))⟩
  · rintro ⟨hfitsRequest, hfitsResponse⟩
    have hbodies : Json.Within 127 (.obj bodies) := hnormalized.within 125
      (withRecordType_within hwithin) (hrequest.mpr hfitsRequest) (hresponse.mpr hfitsResponse)
    have hstored : Json.Within 127 (.obj (storedForm bodies)) :=
      finishEnvelope_within (promoteProtocolFields_within hbodies)
    have := hstored.2
    omega

/-- A second run that stores the same form promoted nothing. -/
theorem EnvelopeStages.promote_eq_self
    (hsame : finishEnvelope (promoteProtocolFields (storedForm bodies)) = storedForm bodies) :
    promoteProtocolFields (storedForm bodies) = storedForm bodies := by
  have hsorted := h.stored_sorted hwithin
  refine (storedForm_promotable (h.bodies_within hwithin).1 hsorted).promote_eq_self ?_ ?_
  · rw [← finishEnvelope_get (by decide), hsame]
  · rw [← finishEnvelope_get (by decide), hsame]

/-- Normalising the stored form again gives it back exactly when its promotion does. -/
theorem EnvelopeStages.again_iff {otherId : String} :
    normalizeEnvelope sha256 enforced (storedForm bodies) = .ok (otherId, storedForm bodies) ↔
      otherId = captureId ∧ promoteProtocolFields (storedForm bodies) = storedForm bodies := by
  have hsorted := h.stored_sorted hwithin
  constructor
  · intro hagain
    obtain ⟨id, again, hstages, hresult⟩ := normalizeEnvelope_ok_iff.mp hagain
    have hbodies : again = storedForm bodies := by
      have hsettled := hstages.settled
      have htype := h.recordType (envelope_sorted hwithin)
      rw [withRecordType] at htype
      rw [htype, h.bodiesSettled (envelope_sorted hwithin)] at hsettled
      exact (Except.ok.inj hsettled).symm
    rw [hbodies] at hresult
    obtain ⟨hid, hform⟩ := Prod.mk.inj hresult
    have hkept := hstages.captureId
    rw [h.storedId (envelope_sorted hwithin), ← hid] at hkept
    exact ⟨(Except.ok.inj hkept).symm, h.promote_eq_self hwithin hform.symm⟩
  · rintro ⟨rfl, hpromote⟩
    refine normalizeEnvelope_ok_iff.mpr ⟨otherId, storedForm bodies,
      h.stored (envelope_sorted hwithin) hpromote, ?_⟩
    rw [hpromote]
    exact congrArg _ (finishEnvelope_finishEnvelope hsorted).symm

end Envelope

end ChipTrace
