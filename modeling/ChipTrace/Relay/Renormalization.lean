/-
The Collector normalises the bytes that the Relay stored: when it stores the same
bytes again, and when its receipt verifies.
-/
import ChipTrace.Capture.Idempotence
import ChipTrace.Collector.Replies
import ChipTrace.Ledger.Ops
import ChipTrace.Store.Layout

namespace ChipTrace

section Again

variable {sha256 : Bytes → String} {raw : Bytes} {maxBytes : Nat} {record : CaptureRecord}
  {envelope bodies : JsonMap} (h : Normalized sha256 raw record envelope bodies)
include h

theorem Normalized.read_canonical :
    readEnvelope record.canonical = .ok (storedForm bodies) ↔
      TextFits 125 envelope requestBodyFields ∧ TextFits 125 envelope responseBodyFields := by
  have hwithin := readEnvelope_within h.read
  rw [readEnvelope_ok_iff, h.canonical,
    parseBytes_jsonBytes (h.stages.stored_within hwithin).1, ← h.stages.stored_depth_iff hwithin]
  split_ifs with hdepth <;> simp [hdepth]

/-- What a second run reads is what the first one stored. -/
theorem Normalized.read_eq {other : JsonMap} (hread : readEnvelope record.canonical = .ok other) :
    other = storedForm bodies := by
  have hwithin := readEnvelope_within h.read
  rw [readEnvelope_ok_iff, h.canonical,
    parseBytes_jsonBytes (h.stages.stored_within hwithin).1] at hread
  split_ifs at hread
  exact (Json.obj.inj (Option.some.inj hread)).symm

theorem Normalized.promote_iff :
    promoteProtocolFields (storedForm bodies) = storedForm bodies ↔
      ∀ field aliases, (field, aliases) ∈ traceAliases →
        FieldStable (sourcesWith envelope (envelopeRequest envelope))
          (recordedItems envelope "fieldEvidenceConflicts") field aliases := by
  have hwithin := readEnvelope_within h.read
  have hnormalized := h.stages.normalized (envelope_sorted hwithin)
  rw [promote_storedForm_eq_self_iff (h.stages.bodies_within hwithin).1
    (h.stages.stored_sorted hwithin)]
  constructor
  · exact fun hstable field aliases hfield =>
      (fieldStable_bodies_iff hnormalized hfield).mpr (hstable field aliases hfield)
  · exact fun hstable field aliases hfield =>
      (fieldStable_bodies_iff hnormalized hfield).mp (hstable field aliases hfield)

/-- A second run that stores the same bytes shows the envelope to be stable. -/
theorem Normalized.stable {again : CaptureRecord}
    (hagain : normalizeUnbounded sha256 record.canonical true = .ok again)
    (hcanonical : again.canonical = record.canonical) : StableEnvelope envelope := by
  have hwithin := readEnvelope_within h.read
  obtain ⟨other, otherBodies, hother⟩ := normalizeUnbounded_spec hagain
  rw [h.read_eq hother.read] at hother
  have hread := hother.read
  have hstored : storedForm otherBodies = storedForm bodies := by
    have hbytes := hother.canonical
    rw [hcanonical, h.canonical] at hbytes
    exact (Json.obj.inj (jsonBytes_injective (h.stages.stored_within hwithin).1
      (hother.stages.stored_within (readEnvelope_within hread)).1 hbytes)).symm
  have hsame : normalizeEnvelope sha256 true (storedForm bodies) =
      .ok (again.captureId, storedForm bodies) := by
    refine normalizeEnvelope_ok_iff.mpr ⟨again.captureId, otherBodies, hother.stages, ?_⟩
    rw [← hstored]
    rfl
  have htexts := h.read_canonical.mp hread
  exact ⟨htexts.1, htexts.2, h.promote_iff.mp ((h.stages.again_iff hwithin).mp hsame).2⟩

/-- The stored bytes of a stable envelope are normalised to themselves. -/
theorem Normalized.again (hstable : StableEnvelope envelope) :
    ∃ again, normalizeUnbounded sha256 record.canonical true = .ok again ∧
      again.captureId = record.captureId ∧ again.canonical = record.canonical ∧
      again.sha256 = record.sha256 := by
  have hwithin := readEnvelope_within h.read
  have hread := h.read_canonical.mpr ⟨hstable.request, hstable.response⟩
  have hstored := (h.stages.again_iff hwithin).mpr ⟨rfl, h.promote_iff.mpr hstable.fields⟩
  obtain ⟨again, hagain, hid, hcanonical, hsha⟩ := normalizeUnbounded_of_stages hread hstored
  refine ⟨again, hagain, hid, by rw [hcanonical, h.canonical], ?_⟩
  rw [hsha, hcanonical, h.sha256, h.canonical]

end Again

section Receipts

variable {sha256 : Bytes → String} {raw : Bytes} {maxBytes : Nat} {record : CaptureRecord}

/-- A position that the 64-bit integers of a receipt can hold. -/
def ValidPosition (segmentId offset length : Nat) : Prop :=
  segmentId ≠ 0 ∧ segmentId < U64.limit ∧ offset + length < U64.limit

/-- The reply of a Collector that stored a record, or had stored it before. -/
def storedReply (record : CaptureRecord) (segmentId offset : Nat) (duplicate : Bool) : Json :=
  acceptedReply (ack (record.locator segmentId offset) duplicate
    (if duplicate then "duplicate" else "accepted"))

/-- The stored bytes are normalised to themselves, and the Collector's reply for the
result is a receipt for the Relay's delivery, wherever each of them stored it. -/
structure Renormalizes (sha256 : Bytes → String) (maxBytes : Nat) (record : CaptureRecord) :
    Prop where
  same : ∃ again, normalizeCapture sha256 record.canonical maxBytes = .ok again ∧
    again.canonical = record.canonical ∧ again.sha256 = record.sha256
  receipt : ∀ again, normalizeCapture sha256 record.canonical maxBytes = .ok again →
    ∀ segmentId offset localSegmentId localOffset duplicate,
      ValidPosition segmentId offset (again.canonical.length + 1) →
      verifyCollectorReceipt (newDelivery (record.locator localSegmentId localOffset))
        (storedReply again segmentId offset duplicate) = .ok ()

theorem verify_storedReply {again : CaptureRecord} {segmentId offset localSegmentId
    localOffset : Nat} {duplicate : Bool} (hid : again.captureId = record.captureId)
    (hcanonical : again.canonical = record.canonical) (hsha : again.sha256 = record.sha256)
    (hposition : ValidPosition segmentId offset (again.canonical.length + 1)) :
    verifyCollectorReceipt (newDelivery (record.locator localSegmentId localOffset))
      (storedReply again segmentId offset duplicate) = .ok () := by
  refine verify_acceptedReply hid hsha ?_ (Nat.succ_ne_zero _) rfl ?_
    ⟨hposition.1, hposition.2.1⟩ hposition.2.2
  · exact congrArg (fun bytes : Bytes => bytes.length + 1) hcanonical
  · cases duplicate
    · exact Or.inl ⟨rfl, rfl⟩
    · exact Or.inr ⟨rfl, rfl⟩

/-- What was read is stable. -/
def StableBytes (raw : Bytes) : Prop :=
  ∀ envelope, readEnvelope raw = .ok envelope → StableEnvelope envelope

/-- A normalised capture is normalised to itself again, with a receipt that verifies,
exactly when its bytes held a stable envelope. -/
theorem normalizeCapture_renormalizes_iff
    (hok : normalizeCapture sha256 raw maxBytes = .ok record) :
    Renormalizes sha256 maxBytes record ↔ StableBytes raw := by
  obtain ⟨hunbounded, _, hfits⟩ := normalizeCapture_ok_iff.mp hok
  obtain ⟨envelope, bodies, h⟩ := normalizeUnbounded_spec hunbounded
  constructor
  · rintro ⟨⟨again, hagain, hcanonical, _⟩, _⟩ other hread
    have hsame : envelope = other := Except.ok.inj (h.read.symm.trans hread)
    exact hsame ▸ h.stable (normalizeCapture_ok_iff.mp hagain).1 hcanonical
  · intro hstable
    obtain ⟨again, hsecond, hid, hcanonical, hsha⟩ := h.again (hstable envelope h.read)
    have hagain : normalizeCapture sha256 record.canonical maxBytes = .ok again :=
      normalizeCapture_ok_iff.mpr ⟨hsecond, hfits, by rw [hcanonical]; exact hfits⟩
    refine ⟨⟨again, hagain, hcanonical, hsha⟩, ?_⟩
    intro other hother segmentId offset localSegmentId localOffset duplicate hposition
    have hsame : again = other := Except.ok.inj (hagain.symm.trans hother)
    exact verify_storedReply (hsame ▸ hid) (hsame ▸ hcanonical) (hsame ▸ hsha) hposition

end Receipts

section Examples

/-- An envelope whose trace context differs from a header and from a field of its own. -/
def conflictedEnvelope : JsonMap :=
  [("captureId", .str "cap-a"),
    ("requestHeaders", .obj [("x-chiptrace-session-id", .str "header")]),
    ("session_id", .str "body"),
    ("traceContext", .obj [("session_id", .str "captured")])]

/-- An envelope whose header agrees with its aliased trace context. -/
def agreeingEnvelope : JsonMap :=
  [("captureId", .str "cap-a"),
    ("requestHeaders", .obj [("x-chiptrace-session-id", .str "session")]),
    ("traceContext", .obj [("sessionId", .str "session")])]

/-- The stored form of an envelope that passes every check. -/
def storedOf (envelope : JsonMap) : String × JsonMap :=
  match normalizeEnvelope (fun _ => "") true envelope with
  | .ok stored => stored
  | .error _ => ("", [])

/-- A byte limit that the envelope and its stored form respect. -/
def roomFor (envelope : JsonMap) : Nat :=
  (jsonBytes (.obj envelope)).length + (jsonBytes (.obj (storedOf envelope).2)).length

theorem normalizeCapture_example {envelope : JsonMap} (hwf : (Json.obj envelope).WellFormed)
    (hdepth : (Json.obj envelope).depth < Json.recursionLimit)
    (hok : (normalizeEnvelope (fun _ => "") true envelope).isOk = true) :
    ∃ record, normalizeCapture (fun _ => "") (jsonBytes (.obj envelope)) (roomFor envelope) =
      .ok record := by
  have hstored : normalizeEnvelope (fun _ => "") true envelope = .ok (storedOf envelope) := by
    rw [storedOf]
    cases hresult : normalizeEnvelope (fun _ => "") true envelope with
    | ok stored => rfl
    | error error =>
        rw [hresult] at hok
        cases hok
  obtain ⟨record, hrecord, _, hcanonical, _⟩ :=
    normalizeUnbounded_of_stages (readEnvelope_jsonBytes hwf hdepth) hstored
  refine ⟨record, normalizeCapture_ok_iff.mpr ⟨hrecord, Nat.le_add_right _ _, ?_⟩⟩
  rw [hcanonical]
  exact Nat.le_add_left _ _

theorem conflictedEnvelope_wellFormed : (Json.obj conflictedEnvelope).WellFormed := by
  have hbuilt : (Json.mkObj conflictedEnvelope).WellFormed := Json.mkObj_wellFormed (by
    simp [conflictedEnvelope, Json.WellFormed, Json.WellFormedFields, OrdMap.Sorted])
  exact hbuilt

theorem agreeingEnvelope_wellFormed : (Json.obj agreeingEnvelope).WellFormed := by
  have hbuilt : (Json.mkObj agreeingEnvelope).WellFormed := Json.mkObj_wellFormed (by
    simp [agreeingEnvelope, Json.WellFormed, Json.WellFormedFields, OrdMap.Sorted])
  exact hbuilt

/-- The conflict of the header and the field is recorded a second time. -/
theorem not_renormalizes :
    ¬ ∀ sha256 raw maxBytes record, normalizeCapture sha256 raw maxBytes = .ok record →
      Renormalizes sha256 maxBytes record := by
  intro hall
  obtain ⟨record, hok⟩ := normalizeCapture_example conflictedEnvelope_wellFormed
    (by decide) (by decide +kernel)
  obtain ⟨envelope, bodies, h⟩ := normalizeUnbounded_spec (normalizeCapture_ok_iff.mp hok).1
  have hread := readEnvelope_jsonBytes conflictedEnvelope_wellFormed (by decide)
  have hsame : envelope = conflictedEnvelope := Except.ok.inj (h.read.symm.trans hread)
  obtain ⟨⟨again, hagain, hcanonical, _⟩, _⟩ := hall _ _ _ record hok
  have hfield := (h.stable (normalizeCapture_ok_iff.mp hagain).1 hcanonical).fields "session_id" ["session_id", "sessionId"]
    (by decide)
  rw [hsame] at hfield
  have hrecorded := hfield.conflict (by decide) (by decide)
  have hnone : recordedItems conflictedEnvelope "fieldEvidenceConflicts" = [] := by decide
  rw [hnone] at hrecorded
  cases hrecorded

theorem agreeingEnvelope_stable : StableEnvelope agreeingEnvelope := by
  have hagree : ∀ entry ∈ traceAliases,
      valuesDiffer ((sourcesWith agreeingEnvelope
        (envelopeRequest agreeingEnvelope)).observedCandidates entry.1 entry.2) = false := by
    decide
  have hfilled : ∀ entry ∈ traceAliases,
      ((sourcesWith agreeingEnvelope (envelopeRequest agreeingEnvelope)).captured.get
        entry.1).all protocolValuePresent = true := by
    decide
  refine ⟨?_, ?_, ?_⟩
  · intro text value hget
    cases hget
  · intro text value hget
    cases hget
  · intro field aliases hfield
    refine ⟨fun _ hdiffer => ?_, fun captured _ observed _ blank hblank habsent => ?_⟩
    · rw [hagree _ hfield] at hdiffer
      cases hdiffer
    · have hpresent := hfilled _ hfield
      rw [Option.mem_def] at hblank
      rw [hblank, Option.all_some, habsent] at hpresent
      cases hpresent

theorem renormalizes_agreeing :
    ∃ record, normalizeCapture (fun _ => "") (jsonBytes (.obj agreeingEnvelope))
        (roomFor agreeingEnvelope) = .ok record ∧
      Renormalizes (fun _ => "") (roomFor agreeingEnvelope) record := by
  obtain ⟨record, hok⟩ := normalizeCapture_example agreeingEnvelope_wellFormed
    (by decide) (by decide +kernel)
  have hread := readEnvelope_jsonBytes agreeingEnvelope_wellFormed (by decide)
  refine ⟨record, hok, (normalizeCapture_renormalizes_iff hok).mpr fun envelope hother => ?_⟩
  have hsame : agreeingEnvelope = envelope := Except.ok.inj (hread.symm.trans hother)
  exact hsame ▸ agreeingEnvelope_stable

end Examples

end ChipTrace
