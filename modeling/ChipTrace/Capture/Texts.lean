/-
Body texts: what is stored of a text, with its length and digest, and when the count that a
producer declares for it stands.
-/
import ChipTrace.Capture.Reaccepted

namespace ChipTrace

section Stored

variable {sha256 : Bytes → String} {object next : JsonMap} {fields : BodyFields}

def bothBodies : List BodyFields := [requestBodyFields, responseBodyFields]

/-- The text that a stored body was made of. -/
def textIn (body : Json) : Option String :=
  match (body.get? "kind").bind Json.asStr with
  | some "json" => (body.get? "raw").bind Json.asStr
  | some "text" => (body.get? "value").bind Json.asStr
  | _ => none

theorem textIn_wrapBodyText (text : String) : textIn (wrapBodyText text) = some text := by
  rw [wrapBodyText]
  cases parseText text with
  | none => simp [textIn, Json.mkObj, Json.mkFields, Json.get?, OrdMap.lookup_insert, Json.asStr]
  | some value =>
      simp [textIn, Json.mkObj, Json.mkFields, Json.get?, OrdMap.lookup_insert, Json.asStr]

/-- A text, its length and its digest are what is stored of a body. -/
structure KeepsText (sha256 : Bytes → String) (stored : JsonMap) (fields : BodyFields)
    (text : String) : Prop where
  body : (stored.get fields.body).bind textIn = some text
  bytes : stored.get fields.bytes = some (.num (textBytes text).length)
  sha : stored.get fields.sha = some (.str (sha256 (textBytes text)))

theorem KeepsText.congr {other : JsonMap} {text : String}
    (h : KeepsText sha256 object fields text)
    (hagree : ∀ key ∈ [fields.body, fields.bytes, fields.sha], other.get key = object.get key) :
    KeepsText sha256 other fields text := by
  simp only [List.forall_mem_cons, List.not_mem_nil, false_implies, implies_true,
    and_true] at hagree
  obtain ⟨hbody, hbytes, hsha⟩ := hagree
  exact ⟨by rw [hbody]; exact h.body, by rw [hbytes]; exact h.bytes, by rw [hsha]; exact h.sha⟩

/-- A text is wrapped; a declared length stays, the digest is replaced. -/
theorem takeBodyText_stored (hdistinct : fields.Distinct) {text : String}
    (hgiven : object.get fields.text = some (.str text))
    (h : takeBodyText sha256 object fields = .ok next) :
    next.get fields.body = some (wrapBodyText text) ∧
      next.get fields.bytes =
        some ((object.get fields.bytes).getD (.num (textBytes text).length)) ∧
      next.get fields.sha = some (.str (sha256 (textBytes text))) := by
  simp only [BodyFields.Distinct, List.nodup_cons, List.mem_cons, List.not_mem_nil,
    not_or, or_false, not_false_eq_true, List.nodup_nil, and_true] at hdistinct
  obtain ⟨⟨_, htextBytes, _⟩, ⟨hbodyBytes, hbodySha⟩, hbytesSha⟩ := hdistinct
  rcases takeBodyText_cases h with ⟨hnone, _⟩ | ⟨other, hother, rfl⟩
  · rw [hgiven] at hnone
    cases hnone
  · have hsame : other = text := by
      rcases hother with ⟨hnull, _⟩ | hother
      · rw [hgiven] at hnull
        cases hnull
      · rw [hgiven] at hother
        exact (Json.str.inj (Option.some.inj hother)).symm
    subst hsame
    refine ⟨?_, ?_, JsonMap.get_insert_self⟩
    · rw [JsonMap.get_insert_of_ne hbodySha, JsonMap.get_orInsert_of_ne hbodyBytes,
        JsonMap.get_insert_self]
    · rw [JsonMap.get_insert_of_ne hbytesSha, JsonMap.get_orInsert, if_pos rfl,
        JsonMap.get_insert_of_ne (Ne.symm hbodyBytes),
        JsonMap.get_remove_of_ne (Ne.symm htextBytes)]

/-- The validation leaves a length and a digest that are there. -/
theorem validateEmbeddedRawBody_kept {bytes sha : Json}
    (hbytes : object.get fields.bytes = some bytes)
    (hsha : object.get fields.sha = some sha)
    (h : validateEmbeddedRawBody sha256 object fields = .ok next) : next = object := by
  rcases validateEmbeddedRawBody_cases h with ⟨_, rfl⟩ | ⟨raw, _, _, rfl⟩
  · rfl
  · have hsame : object.orInsert fields.bytes (.num (textBytes raw).length) = object :=
      JsonMap.orInsert_eq_self.mpr (by rw [JsonMap.containsKey, hbytes]; rfl)
    rw [hsame]
    exact JsonMap.orInsert_eq_self.mpr (by rw [JsonMap.containsKey, hsha]; rfl)

/-- What the normalisation of the bodies stores of a text. -/
structure TextStored (sha256 : Bytes → String) (object next : JsonMap) (fields : BodyFields)
    (text : String) : Prop where
  body : next.get fields.body = some (wrapBodyText text)
  bytes : next.get fields.bytes =
    some ((object.get fields.bytes).getD (.num (textBytes text).length))
  sha : next.get fields.sha = some (.str (sha256 (textBytes text)))

theorem normalizeBodyFields_stored (hfields : fields ∈ bothBodies) {text : String}
    (hgiven : object.get fields.text = some (.str text))
    (h : normalizeBodyFields sha256 object = .ok next) :
    TextStored sha256 object next fields text := by
  obtain ⟨first, hfirst, h⟩ := Except.bind_eq_ok_iff.mp h
  obtain ⟨second, hsecond, h⟩ := Except.bind_eq_ok_iff.mp h
  obtain ⟨third, hthird, hlast⟩ := Except.bind_eq_ok_iff.mp h
  simp only [bothBodies, List.mem_cons, List.not_mem_nil, or_false] at hfields
  rcases hfields with rfl | rfl
  · obtain ⟨hbody, hbytes, hsha⟩ := takeBodyText_stored requestBodyFields_distinct hgiven hfirst
    rw [← takeBodyText_get hsecond (by decide)] at hbody hbytes hsha
    have hsame := validateEmbeddedRawBody_kept hbytes hsha hthird
    rw [← hsame, ← validateEmbeddedRawBody_get hlast (by decide) (by decide)] at hbody hbytes hsha
    exact ⟨hbody, hbytes, hsha⟩
  · have hget : ∀ key, key ∉ [requestBodyFields.text, requestBodyFields.body,
        requestBodyFields.bytes, requestBodyFields.sha] → first.get key = object.get key :=
      fun key hkey => takeBodyText_get hfirst hkey
    rw [← hget _ (by decide)] at hgiven
    obtain ⟨hbody, hbytes, hsha⟩ := takeBodyText_stored responseBodyFields_distinct hgiven hsecond
    rw [hget _ (by decide)] at hbytes
    rw [← validateEmbeddedRawBody_get hthird (by decide) (by decide)] at hbody hbytes hsha
    have hsame := validateEmbeddedRawBody_kept hbytes hsha hlast
    rw [← hsame] at hbody hbytes hsha
    exact ⟨hbody, hbytes, hsha⟩

/-- The length that is declared for a JSON text is checked. -/
theorem TextStored.checked {text : String} (h : TextStored sha256 object next fields text)
    (hsettled : BodySettled sha256 next fields) {value : Json}
    (hparse : parseText text = some value)
    {declared : Json} (hdeclared : object.get fields.bytes = some declared) {count : Nat}
    (hcount : declared.asU64 = some count) : declared = .num (textBytes text).length := by
  have hraw : embeddedRaw next fields = some text := by
    rw [embeddedRaw, JsonMap.object?, h.body, wrapBodyText, hparse]
    simp [Json.mkObj, Json.mkFields, JsonMap.str?, OrdMap.lookup_insert, Json.asObject,
      Json.asStr]
  have hbytes : next.u64? fields.bytes = some count := by
    rw [JsonMap.u64?, h.bytes, hdeclared]
    exact hcount
  have hchecked := (bodySettled_iff.mp hsettled text hraw).1
  rw [checkEmbeddedRaw_ok_iff] at hchecked
  rw [← hchecked.2.1 count hbytes]
  cases declared with
  | num number =>
      rw [Json.asU64] at hcount
      split_ifs at hcount with hrange
      rw [← Option.some.inj hcount, Int.toNat_of_nonneg hrange.1]
  | null | bool _ | str _ | arr _ | obj _ => cases hcount

end Stored

section Kept

variable {sha256 : Bytes → String} {raw : Bytes} {maxBytes : Nat} {record : CaptureRecord}
  {envelope bodies : JsonMap} {fields : BodyFields} {text : String}

/-- Canonical bytes that keep a text. -/
def BytesKeepText (sha256 : Bytes → String) (canonical : Bytes) (fields : BodyFields)
    (text : String) : Prop :=
  ∃ stored, (Json.obj stored).WellFormed ∧ canonical = jsonBytes (.obj stored) ∧
    KeepsText sha256 stored fields text

/-- A text of an accepted envelope is kept, also when its record is normalised again, and was not
declared to be of another length. -/
structure TextKept (sha256 : Bytes → String) (envelope : JsonMap) (record : CaptureRecord)
    (fields : BodyFields) (text : String) : Prop where
  stored : BytesKeepText sha256 record.canonical fields text
  accepted : ∃ maxBytes again, normalizeCapture sha256 record.canonical maxBytes = .ok again
  again : ∀ maxBytes again, normalizeCapture sha256 record.canonical maxBytes = .ok again →
    BytesKeepText sha256 again.canonical fields text
  declared : ∀ declared, envelope.get fields.bytes = some declared →
    declared = .num (textBytes text).length

/-- A declared count is the length of the text, or one that is checked against it. -/
def CountStands (envelope : JsonMap) (fields : BodyFields) (text : String) : Prop :=
  ∀ declared, envelope.get fields.bytes = some declared →
    declared = .num (textBytes text).length ∨
      ((parseText text).isSome = true ∧ declared.asU64.isSome = true)

/-- A text that is JSON nests so deep that the wrapped value can still be read. -/
def NestingStands (text : String) : Prop :=
  ∀ value, parseText text = some value → value.depth ≤ 125

theorem withRecordType_get {key : String} (hkey : key ≠ "recordType") :
    (withRecordType envelope).get key = envelope.get key :=
  JsonMap.get_orInsert_of_ne hkey

theorem bothBodies_keys (hfields : fields ∈ bothBodies) :
    ∀ key ∈ [fields.text, fields.body, fields.bytes, fields.sha],
      key ≠ "recordType" ∧ key ∉ storedKeys := by
  revert fields
  decide

variable (h : Normalized sha256 raw record envelope bodies)
include h

theorem Normalized.within : Json.Within 127 (.obj envelope) := readEnvelope_within h.read

theorem Normalized.textStored (hfields : fields ∈ bothBodies)
    (hgiven : envelope.get fields.text = some (.str text)) :
    TextStored sha256 envelope bodies fields text := by
  have hkeys := bothBodies_keys hfields
  rw [← withRecordType_get (hkeys _ (by simp)).1] at hgiven
  have hstored := normalizeBodyFields_stored hfields hgiven h.stages.settled
  have hbytes := hstored.bytes
  rw [withRecordType_get (hkeys _ (by simp)).1] at hbytes
  exact ⟨hstored.body, hbytes, hstored.sha⟩

theorem Normalized.settled (hfields : fields ∈ bothBodies) : BodySettled sha256 bodies fields := by
  have hsettled := (h.stages.normalized (envelope_sorted h.within)).settled
  simp only [bothBodies, List.mem_cons, List.not_mem_nil, or_false] at hfields
  rcases hfields with rfl | rfl
  · exact hsettled.request
  · exact hsettled.response

theorem Normalized.wellFormed : (Json.obj (storedForm bodies)).WellFormed :=
  (h.stages.stored_within h.within).1

/-- The stored form keeps a text whose declared length stands. -/
theorem Normalized.keepsText (hfields : fields ∈ bothBodies)
    (hgiven : envelope.get fields.text = some (.str text))
    (hcount : CountStands envelope fields text) :
    (∀ declared, envelope.get fields.bytes = some declared →
      declared = .num (textBytes text).length) ∧
      KeepsText sha256 (storedForm bodies) fields text := by
  have hstored := h.textStored hfields hgiven
  have hdeclared : ∀ declared, envelope.get fields.bytes = some declared →
      declared = .num (textBytes text).length := by
    intro declared hget
    rcases hcount declared hget with heq | ⟨hparse, hnumber⟩
    · exact heq
    · obtain ⟨value, hvalue⟩ := Option.isSome_iff_exists.mp hparse
      obtain ⟨count, hcount⟩ := Option.isSome_iff_exists.mp hnumber
      exact hstored.checked (h.settled hfields) hvalue hget hcount
  have hbytes : bodies.get fields.bytes = some (.num (textBytes text).length) := by
    rw [hstored.bytes]
    cases hget : envelope.get fields.bytes with
    | none => rfl
    | some declared => rw [hdeclared declared hget, Option.getD_some]
  have hbodies : KeepsText sha256 bodies fields text := by
    refine ⟨?_, hbytes, hstored.sha⟩
    rw [hstored.body, Option.bind_some, textIn_wrapBodyText]
  refine ⟨hdeclared, hbodies.congr fun key hkey => storedForm_get ?_⟩
  exact (bothBodies_keys hfields key (List.mem_cons_of_mem _ hkey)).2

/-- The stored form of the stored form. -/
theorem Normalized.again_eq {again : CaptureRecord} {reread second : JsonMap}
    (hagain : Normalized sha256 record.canonical again reread second) :
    second = storedForm bodies := by
  have hread := readEnvelope_ok_iff.mp hagain.read
  rw [h.canonical, parseBytes_jsonBytes h.wellFormed] at hread
  split_ifs at hread
  obtain rfl := Json.obj.inj (Option.some.inj hread)
  have hsettled := hagain.stages.settled
  have htype := h.stages.recordType (envelope_sorted h.within)
  rw [withRecordType] at htype
  rw [htype, h.stages.bodiesSettled (envelope_sorted h.within)] at hsettled
  exact (Except.ok.inj hsettled).symm

/-- The record is accepted again exactly when its texts can be read inside their wrappers. -/
theorem Normalized.accepted_iff :
    (∃ limit again, normalizeCapture sha256 record.canonical limit = .ok again) ↔
      TextFits 125 envelope requestBodyFields ∧ TextFits 125 envelope responseBodyFields := by
  rw [← h.stages.stored_depth_iff h.within]
  constructor
  · rintro ⟨limit, again, hok⟩
    obtain ⟨reread, second, hagain⟩ :=
      normalizeUnbounded_spec (normalizeCapture_ok_iff.mp hok).1
    have hread := readEnvelope_ok_iff.mp hagain.read
    rw [h.canonical, parseBytes_jsonBytes h.wellFormed] at hread
    split_ifs at hread with hdepth
    exact hdepth
  · intro hdepth
    have hread := readEnvelope_jsonBytes h.wellFormed hdepth
    rw [← h.canonical] at hread
    obtain ⟨again, hok, _⟩ := normalizeUnbounded_of_stages hread
      (normalizeEnvelope_ok_iff.mpr ⟨_, _, h.stages.again h.within, rfl⟩)
    exact ⟨record.canonical.length + again.canonical.length, again,
      normalizeCapture_ok_iff.mpr ⟨hok, Nat.le_add_right _ _, Nat.le_add_left _ _⟩⟩

end Kept

section Examples

/-- A capture with a text of five bytes and the length that its producer declares. -/
def countedEnvelope (count : Int) : JsonMap :=
  [("captureId", .str "cap-a"), ("requestBodyText", .str "hello"),
    ("requestBytesCaptured", .num count), ("version", .str "chiptrace.capture.v2")]

/-- The digest of the text, and that of everything else. -/
def helloSha256 (canonical : String) : Bytes → String := fun bytes =>
  if bytes = textBytes "hello" then
    "2cf24dba5fb0a30e26e83b2ac5b9e29e1b161e5c1fa7425e73043362938b9824"
  else canonical

def shortSha256 : Bytes → String :=
  helloSha256 "2180f32abf51bee7324260def7eb6b57c1b2ea2589ed4b56de1a9cbd12c81c19"

def exactSha256 : Bytes → String :=
  helloSha256 "98778de9368fc50f6257d6ea7f6771ac158be0cdba07fbbe67c8a71fc2871b97"

theorem countedEnvelopes_checked :
    (normalizeEnvelope shortSha256 true (countedEnvelope 4)).isOk = true ∧
      (normalizeEnvelope exactSha256 true (countedEnvelope 5)).isOk = true := by
  decide +kernel

theorem countedEnvelope_wellFormed (count : Int) :
    (Json.obj (countedEnvelope count)).WellFormed := by
  refine ⟨?_, ?_⟩
  · have hkeys : ((countedEnvelope count).map Prod.fst).Pairwise (· < ·) :=
      (by decide : ["captureId", "requestBodyText", "requestBytesCaptured",
        "version"].Pairwise (· < ·))
    exact List.pairwise_map.mp hkeys
  · simp [countedEnvelope, Json.WellFormedFields, Json.WellFormed]

theorem countedEnvelope_depth (count : Int) :
    (Json.obj (countedEnvelope count)).depth < Json.recursionLimit := by
  simp [countedEnvelope, Json.depth, Json.depthFields, Json.recursionLimit]

end Examples

end ChipTrace
