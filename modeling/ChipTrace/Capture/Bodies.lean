/-
Captured bodies: a body text is replaced by its wrapped value with the length and
the digest of the text, and a wrapped body that carries its text is checked against
them.
-/
import ChipTrace.Capture.Envelope
import ChipTrace.Lib.Json.Validity
import ChipTrace.Lib.Result

namespace ChipTrace

/-- The four fields of an envelope about one body. -/
structure BodyFields where
  text : String
  body : String
  bytes : String
  sha : String

def requestBodyFields : BodyFields :=
  ⟨"requestBodyText", "requestBody", "requestBytesCaptured", "requestBodySha256"⟩

def responseBodyFields : BodyFields :=
  ⟨"responseBodyText", "responseBody", "responseBytesCaptured", "responseBodySha256"⟩

def wrapBodyText (text : String) : Json :=
  match parseText text with
  | some value => Json.mkObj [("kind", .str "json"), ("value", value), ("raw", .str text)]
  | none => Json.mkObj [("kind", .str "text"), ("value", .str text)]

def bodyText (value : Json) (field : String) : Except CaptureError String :=
  match value with
  | .null => .ok ""
  | .str text => .ok text
  | _ => bail s!"{field} must be a string or null"

section Digest

variable (sha256 : Bytes → String)

def takeBodyText (object : JsonMap) (fields : BodyFields) : Except CaptureError JsonMap :=
  match object.get fields.text with
  | none => .ok object
  | some value => do
      let text ← bodyText value fields.text
      let object := (object.remove fields.text).insert fields.body (wrapBodyText text)
      let object := object.orInsert fields.bytes (.num (textBytes text).length)
      pure (object.insert fields.sha (.str (sha256 (textBytes text))))

/-- The text that a wrapped body carries. -/
def embeddedRaw (object : JsonMap) (fields : BodyFields) : Option String :=
  (object.object? fields.body).bind fun body => JsonMap.str? body "raw"

def checkEmbeddedJson (body : JsonMap) (field raw : String) : Checked := do
  if body.str? "kind" == some "json" then
    let parsed ← withContext (readJson raw) s!"{field}.raw must contain valid JSON"
    bailIf (body.get "value" != some parsed) s!"{field}.raw does not match parsed value"

def checkEmbeddedRaw (object : JsonMap) (fields : BodyFields) (raw : String) : Checked := do
  checkEmbeddedJson ((object.object? fields.body).getD []) fields.body raw
  bailIf ((object.u64? fields.bytes).any fun declared => declared != (textBytes raw).length)
    s!"{fields.bytes} does not match {fields.body}.raw"
  bailIf ((object.str? fields.sha).any fun declared => declared != sha256 (textBytes raw))
    s!"{fields.sha} does not match {fields.body}.raw"

def validateEmbeddedRawBody (object : JsonMap) (fields : BodyFields) :
    Except CaptureError JsonMap :=
  match embeddedRaw object fields with
  | none => .ok object
  | some raw => do
      checkEmbeddedRaw sha256 object fields raw
      let object := object.orInsert fields.bytes (.num (textBytes raw).length)
      pure (object.orInsert fields.sha (.str (sha256 (textBytes raw))))

def normalizeBodyFields (object : JsonMap) : Except CaptureError JsonMap := do
  let object ← takeBodyText sha256 object requestBodyFields
  let object ← takeBodyText sha256 object responseBodyFields
  let object ← validateEmbeddedRawBody sha256 object requestBodyFields
  validateEmbeddedRawBody sha256 object responseBodyFields

end Digest

section Specification

variable {sha256 : Bytes → String} {object next : JsonMap} {fields : BodyFields}

theorem within_orInsert {bound : Nat} {key : String} {value : Json}
    (h : Json.Within (bound + 1) (.obj object)) (hvalue : Json.Within bound value) :
    Json.Within (bound + 1) (.obj (object.orInsert key value)) := by
  rw [JsonMap.orInsert]
  split_ifs
  · exact h
  · exact h.insert hvalue

/-- The text of a body field has been wrapped, with its length and digest. -/
structure TakenText (sha256 : Bytes → String) (object next : JsonMap) (fields : BodyFields)
    (text : String) : Prop where
  given : object.get fields.text = some .null ∧ text = "" ∨
    object.get fields.text = some (.str text)
  taken : next = (((object.remove fields.text).insert fields.body (wrapBodyText text)).orInsert
    fields.bytes (.num (textBytes text).length)).insert fields.sha
      (.str (sha256 (textBytes text)))

/-- A step on the body text leaves the envelope alone or wraps the text. -/
theorem takeBodyText_cases (h : takeBodyText sha256 object fields = .ok next) :
    (object.get fields.text = none ∧ next = object) ∨
      ∃ text, TakenText sha256 object next fields text := by
  rw [takeBodyText] at h
  cases hget : object.get fields.text with
  | none =>
      rw [hget] at h
      cases h
      exact Or.inl ⟨rfl, rfl⟩
  | some value =>
      rw [hget] at h
      obtain ⟨text, htext, hnext⟩ := Except.bind_eq_ok_iff.mp h
      refine Or.inr ⟨text, ?_, (Except.pure_eq_ok_iff.mp hnext).symm⟩
      rw [hget]
      cases value with
      | null =>
          cases htext
          exact Or.inl ⟨rfl, rfl⟩
      | str stored =>
          cases htext
          exact Or.inr rfl
      | bool b => cases htext
      | num n => cases htext
      | arr items => cases htext
      | obj inner => cases htext

theorem validateEmbeddedRawBody_cases
    (h : validateEmbeddedRawBody sha256 object fields = .ok next) :
    (embeddedRaw object fields = none ∧ next = object) ∨
      ∃ raw, embeddedRaw object fields = some raw ∧
        checkEmbeddedRaw sha256 object fields raw = .ok () ∧
        next = (object.orInsert fields.bytes (.num (textBytes raw).length)).orInsert fields.sha
          (.str (sha256 (textBytes raw))) := by
  rw [validateEmbeddedRawBody] at h
  cases hraw : embeddedRaw object fields with
  | none =>
      rw [hraw] at h
      cases h
      exact Or.inl ⟨rfl, rfl⟩
  | some raw =>
      rw [hraw] at h
      obtain ⟨_, hcheck, hnext⟩ := Except.bind_eq_ok_iff.mp h
      exact Or.inr ⟨raw, rfl, hcheck, (Except.pure_eq_ok_iff.mp hnext).symm⟩

/-- Fields with four different names. -/
def BodyFields.Distinct (fields : BodyFields) : Prop :=
  [fields.text, fields.body, fields.bytes, fields.sha].Nodup

theorem checkEmbeddedRaw_ok_iff {raw : String} :
    checkEmbeddedRaw sha256 object fields raw = .ok () ↔
      checkEmbeddedJson ((object.object? fields.body).getD []) fields.body raw = .ok () ∧
        (∀ declared, object.u64? fields.bytes = some declared →
          declared = (textBytes raw).length) ∧
        ∀ declared, object.str? fields.sha = some declared →
          declared = sha256 (textBytes raw) := by
  rw [checkEmbeddedRaw, Except.bind_eq_ok_iff]
  constructor
  · rintro ⟨_, hjson, hrest⟩
    obtain ⟨_, hbytes, hsha⟩ := Except.bind_eq_ok_iff.mp hrest
    rw [bailIf_eq_ok] at hbytes hsha
    refine ⟨hjson, fun declared hget => ?_, fun declared hget => ?_⟩
    · simpa [hget] using hbytes
    · simpa [hget] using hsha
  · rintro ⟨hjson, hbytes, hsha⟩
    refine ⟨(), hjson, Except.bind_eq_ok_iff.mpr ⟨(), bailIf_eq_ok.mpr ?_, bailIf_eq_ok.mpr ?_⟩⟩
    · cases hget : object.u64? fields.bytes with
      | none => rfl
      | some declared => simp [hbytes declared hget]
    · cases hget : object.str? fields.sha with
      | none => rfl
      | some declared => simp [hsha declared hget]

/-- A body with its length and digest recorded: validation has nothing to add. -/
def BodySettled (sha256 : Bytes → String) (object : JsonMap) (fields : BodyFields) : Prop :=
  validateEmbeddedRawBody sha256 object fields = .ok object

theorem bodySettled_iff :
    BodySettled sha256 object fields ↔
      ∀ raw, embeddedRaw object fields = some raw →
        checkEmbeddedRaw sha256 object fields raw = .ok () ∧
          object.containsKey fields.bytes = true ∧ object.containsKey fields.sha = true := by
  rw [BodySettled, validateEmbeddedRawBody]
  cases hraw : embeddedRaw object fields with
  | none => simp
  | some raw =>
      constructor
      · intro h other hother
        rw [Option.some.injEq] at hother
        subst hother
        obtain ⟨_, hcheck, hpure⟩ := Except.bind_eq_ok_iff.mp h
        have hsame := Except.pure_eq_ok_iff.mp hpure
        have hkey : ∀ key, ((object.orInsert fields.bytes (.num (textBytes raw).length)).orInsert
              fields.sha (.str (sha256 (textBytes raw)))).containsKey key = true →
            object.containsKey key = true := fun key h => hsame ▸ h
        refine ⟨hcheck, hkey _ ?_, hkey _ ?_⟩
        · rw [JsonMap.containsKey, JsonMap.get_orInsert]
          split_ifs with hsame
          · rfl
          · rw [JsonMap.get_orInsert, if_pos rfl]
            rfl
        · rw [JsonMap.containsKey, JsonMap.get_orInsert, if_pos rfl]
          rfl
      · intro h
        obtain ⟨hcheck, hbytes, hsha⟩ := h raw rfl
        refine Except.bind_eq_ok_iff.mpr ⟨(), hcheck, Except.pure_eq_ok_iff.mpr ?_⟩
        rw [JsonMap.orInsert_eq_self.mpr hbytes, JsonMap.orInsert_eq_self.mpr hsha]

theorem bodySettled_congr {other : JsonMap}
    (hbody : object.get fields.body = other.get fields.body)
    (hbytes : object.get fields.bytes = other.get fields.bytes)
    (hsha : object.get fields.sha = other.get fields.sha) :
    BodySettled sha256 object fields ↔ BodySettled sha256 other fields := by
  have hobject : object.object? fields.body = other.object? fields.body := by
    rw [JsonMap.object?, hbody, JsonMap.object?]
  have hdeclared : object.u64? fields.bytes = other.u64? fields.bytes := by
    rw [JsonMap.u64?, hbytes, JsonMap.u64?]
  have hdigest : object.str? fields.sha = other.str? fields.sha := by
    rw [JsonMap.str?, hsha, JsonMap.str?]
  rw [bodySettled_iff, bodySettled_iff]
  simp only [checkEmbeddedRaw_ok_iff, embeddedRaw, hobject, hdeclared, hdigest,
    JsonMap.containsKey, hbytes, hsha]

/-- Only the length and digest fields can change. -/
theorem validateEmbeddedRawBody_get
    (h : validateEmbeddedRawBody sha256 object fields = .ok next) {key : String}
    (hbytes : key ≠ fields.bytes) (hsha : key ≠ fields.sha) :
    next.get key = object.get key := by
  rcases validateEmbeddedRawBody_cases h with ⟨_, rfl⟩ | ⟨raw, _, _, rfl⟩
  · rfl
  · rw [JsonMap.get_orInsert_of_ne hsha, JsonMap.get_orInsert_of_ne hbytes]

/-- A validated body is settled. -/
theorem validateEmbeddedRawBody_settled (hdistinct : fields.Distinct)
    (h : validateEmbeddedRawBody sha256 object fields = .ok next) :
    BodySettled sha256 next fields := by
  simp only [BodyFields.Distinct, List.nodup_cons, List.mem_cons, List.not_mem_nil,
    not_or, or_false, not_false_eq_true, List.nodup_nil, and_true] at hdistinct
  obtain ⟨-, ⟨hbodyBytes, hbodySha⟩, hbytesSha⟩ := hdistinct
  have hbody := validateEmbeddedRawBody_get h hbodyBytes hbodySha
  rcases validateEmbeddedRawBody_cases h with ⟨_, rfl⟩ | ⟨raw, hraw, hcheck, hnext⟩
  · exact h
  · have hgetBytes : next.get fields.bytes =
        some ((object.get fields.bytes).getD (.num (textBytes raw).length)) := by
      rw [hnext, JsonMap.get_orInsert, if_neg hbytesSha, JsonMap.get_orInsert, if_pos rfl]
    have hgetSha : next.get fields.sha =
        some ((object.get fields.sha).getD (.str (sha256 (textBytes raw)))) := by
      rw [hnext, JsonMap.get_orInsert, if_pos rfl, JsonMap.get_orInsert, if_neg (Ne.symm hbytesSha)]
    obtain ⟨hjson, hbytes, hsha⟩ := checkEmbeddedRaw_ok_iff.mp hcheck
    rw [bodySettled_iff]
    intro other hother
    have hobject : next.object? fields.body = object.object? fields.body := by
      rw [JsonMap.object?, hbody, JsonMap.object?]
    have hsame : raw = other := by
      rw [embeddedRaw, hobject] at hother
      exact Option.some.inj (hraw.symm.trans hother)
    subst hsame
    refine ⟨checkEmbeddedRaw_ok_iff.mpr ⟨?_, ?_, ?_⟩, ?_, ?_⟩
    · rw [hobject]
      exact hjson
    · intro declared hdeclared
      cases hold : object.get fields.bytes with
      | some stored =>
          rw [JsonMap.u64?, hgetBytes, hold] at hdeclared
          exact hbytes declared (by rw [JsonMap.u64?, hold]; exact hdeclared)
      | none =>
          rw [JsonMap.u64?, hgetBytes, hold, Option.getD_none, Option.bind_some] at hdeclared
          exact Json.asU64_natCast hdeclared
    · intro declared hdeclared
      cases hold : object.get fields.sha with
      | some stored =>
          rw [JsonMap.str?, hgetSha, hold] at hdeclared
          exact hsha declared (by rw [JsonMap.str?, hold]; exact hdeclared)
      | none =>
          rw [JsonMap.str?, hgetSha, hold, Option.getD_none, Option.bind_some] at hdeclared
          exact (Option.some.inj hdeclared).symm
    · rw [JsonMap.containsKey, hgetBytes]
      rfl
    · rw [JsonMap.containsKey, hgetSha]
      rfl

theorem validateEmbeddedRawBody_within {bound : Nat}
    (hwithin : Json.Within (bound + 1) (.obj object))
    (h : validateEmbeddedRawBody sha256 object fields = .ok next) :
    Json.Within (bound + 1) (.obj next) := by
  rcases validateEmbeddedRawBody_cases h with ⟨_, rfl⟩ | ⟨raw, _, _, rfl⟩
  · exact hwithin
  · exact within_orInsert (within_orInsert hwithin (Json.within_num _))
      (Json.within_str _)

theorem takeBodyText_get (h : takeBodyText sha256 object fields = .ok next) {key : String}
    (hkey : key ∉ [fields.text, fields.body, fields.bytes, fields.sha]) :
    next.get key = object.get key := by
  simp only [List.mem_cons, List.not_mem_nil, or_false, not_or] at hkey
  obtain ⟨htext, hbody, hbytes, hsha⟩ := hkey
  rcases takeBodyText_cases h with ⟨_, rfl⟩ | ⟨text, _, rfl⟩
  · rfl
  · rw [JsonMap.get_insert_of_ne hsha, JsonMap.get_orInsert_of_ne hbytes,
      JsonMap.get_insert_of_ne hbody, JsonMap.get_remove_of_ne htext]

theorem takeBodyText_text (hdistinct : fields.Distinct) (hsorted : OrdMap.Sorted object)
    (h : takeBodyText sha256 object fields = .ok next) : next.get fields.text = none := by
  simp only [BodyFields.Distinct, List.nodup_cons, List.mem_cons, List.not_mem_nil,
    not_or, or_false] at hdistinct
  obtain ⟨⟨hbody, hbytes, hsha⟩, -⟩ := hdistinct
  rcases takeBodyText_cases h with ⟨hnone, rfl⟩ | ⟨text, _, rfl⟩
  · exact hnone
  · rw [JsonMap.get_insert_of_ne hsha, JsonMap.get_orInsert_of_ne hbytes,
      JsonMap.get_insert_of_ne hbody, JsonMap.get_remove_self hsorted]

/-- The body is the wrapped text, or what it was. -/
theorem takeBodyText_body (hdistinct : fields.Distinct)
    (h : takeBodyText sha256 object fields = .ok next) :
    (object.get fields.text = none ∧ next.get fields.body = object.get fields.body) ∨
      ∃ text, (object.get fields.text = some .null ∧ text = "" ∨
          object.get fields.text = some (.str text)) ∧
        next.get fields.body = some (wrapBodyText text) := by
  simp only [BodyFields.Distinct, List.nodup_cons, List.mem_cons, List.not_mem_nil,
    not_or, or_false] at hdistinct
  obtain ⟨-, ⟨hbytes, hsha⟩, -⟩ := hdistinct
  rcases takeBodyText_cases h with ⟨hnone, rfl⟩ | ⟨text, hgiven, rfl⟩
  · exact Or.inl ⟨hnone, rfl⟩
  · refine Or.inr ⟨text, hgiven, ?_⟩
    rw [JsonMap.get_insert_of_ne hsha, JsonMap.get_orInsert_of_ne hbytes,
      JsonMap.get_insert_self]

/-- The value of a body text nests at most this deep. -/
def TextFits (bound : Nat) (object : JsonMap) (fields : BodyFields) : Prop :=
  ∀ text value, object.get fields.text = some (.str text) → parseText text = some value →
    value.depth ≤ bound

theorem textFits_reader : TextFits 127 object fields := by
  intro text value _ hparse
  have hdepth : value.depth < Json.recursionLimit := Json.parse_depth hparse
  have hlimit : Json.recursionLimit = 128 := rfl
  omega

theorem wrapBodyText_within {bound : Nat} {text : String}
    (h : ∀ value, parseText text = some value → value.depth ≤ bound) :
    Json.Within (bound + 1) (wrapBodyText text) := by
  rw [wrapBodyText]
  cases hparse : parseText text with
  | none =>
      refine Json.within_mkObj fun field hfield => ?_
      simp only [List.mem_cons, List.not_mem_nil, or_false] at hfield
      rcases hfield with rfl | rfl <;> exact Json.within_str _
  | some value =>
      refine Json.within_mkObj fun field hfield => ?_
      simp only [List.mem_cons, List.not_mem_nil, or_false] at hfield
      rcases hfield with rfl | rfl | rfl
      · exact Json.within_str _
      · exact ⟨Json.parse_wellFormed hparse, h value hparse⟩
      · exact Json.within_str _

theorem takeBodyText_within {bound : Nat} (hwithin : Json.Within (bound + 2) (.obj object))
    (hfits : TextFits bound object fields) (h : takeBodyText sha256 object fields = .ok next) :
    Json.Within (bound + 2) (.obj next) := by
  rcases takeBodyText_cases h with ⟨_, rfl⟩ | ⟨text, hgiven, rfl⟩
  · exact hwithin
  · have hwrapped : Json.Within (bound + 1) (wrapBodyText text) := by
      refine wrapBodyText_within fun value hvalue => ?_
      rcases hgiven with ⟨_, rfl⟩ | hgiven
      · have hempty : parseText "" = none := by decide
        rw [hempty] at hvalue
        cases hvalue
      · exact hfits text value hgiven hvalue
    exact (within_orInsert (hwithin.erase.insert hwrapped)
      (Json.within_num _)).insert (Json.within_str _)

theorem wrapBodyText_depth {text : String} {value : Json}
    (h : parseText text = some value) : value.depth < (wrapBodyText text).depth := by
  have hwrapped : (wrapBodyText text).get? "value" = some value := by
    rw [wrapBodyText, h]
    simp [Json.mkObj, Json.mkFields, Json.get?, OrdMap.lookup_insert]
  exact Json.depth_lt_of_get? hwrapped

/-- Without its text field an envelope has nothing to wrap. -/
theorem takeBodyText_of_none (hnone : object.get fields.text = none) :
    takeBodyText sha256 object fields = .ok object := by
  rw [takeBodyText, hnone]

theorem requestBodyFields_distinct : requestBodyFields.Distinct := by
  simp [BodyFields.Distinct, requestBodyFields]

theorem responseBodyFields_distinct : responseBodyFields.Distinct := by
  simp [BodyFields.Distinct, responseBodyFields]

def bodyKeys : List String :=
  ["requestBodyText", "requestBody", "requestBytesCaptured", "requestBodySha256",
    "responseBodyText", "responseBody", "responseBytesCaptured", "responseBodySha256"]

/-- An envelope whose bodies need no normalisation. -/
structure BodiesSettled (sha256 : Bytes → String) (object : JsonMap) : Prop where
  requestText : object.get "requestBodyText" = none
  responseText : object.get "responseBodyText" = none
  request : BodySettled sha256 object requestBodyFields
  response : BodySettled sha256 object responseBodyFields

theorem BodiesSettled.congr {other : JsonMap} (h : BodiesSettled sha256 object)
    (hagree : ∀ key ∈ bodyKeys, object.get key = other.get key) :
    BodiesSettled sha256 other := by
  refine ⟨?_, ?_, ?_, ?_⟩
  · rw [← hagree _ (by decide), h.requestText]
  · rw [← hagree _ (by decide), h.responseText]
  · exact (bodySettled_congr (hagree _ (by decide)) (hagree _ (by decide))
      (hagree _ (by decide))).mp h.request
  · exact (bodySettled_congr (hagree _ (by decide)) (hagree _ (by decide))
      (hagree _ (by decide))).mp h.response

theorem BodiesSettled.normalizeBodyFields (h : BodiesSettled sha256 object) :
    normalizeBodyFields sha256 object = .ok object := by
  have hrequest := h.request
  have hresponse := h.response
  rw [BodySettled] at hrequest hresponse
  rw [ChipTrace.normalizeBodyFields, takeBodyText_of_none h.requestText, Except.ok_bind,
    takeBodyText_of_none h.responseText, Except.ok_bind, hrequest, Except.ok_bind, hresponse]

/-- What the normalisation of the bodies does to an envelope. -/
structure BodiesNormalized (sha256 : Bytes → String) (object next : JsonMap) : Prop where
  frame : ∀ key, key ∉ bodyKeys → next.get key = object.get key
  settled : BodiesSettled sha256 next
  within : ∀ bound, Json.Within (bound + 2) (.obj object) →
    TextFits bound object requestBodyFields → TextFits bound object responseBodyFields →
      Json.Within (bound + 2) (.obj next)
  body : ∀ fields ∈ [requestBodyFields, responseBodyFields],
    (object.get fields.text = none ∧ next.get fields.body = object.get fields.body) ∨
      ∃ text, (object.get fields.text = some .null ∧ text = "" ∨
          object.get fields.text = some (.str text)) ∧
        next.get fields.body = some (wrapBodyText text)

theorem takeBodyText_sorted (hsorted : OrdMap.Sorted object)
    (h : takeBodyText sha256 object fields = .ok next) : OrdMap.Sorted next := by
  rcases takeBodyText_cases h with ⟨_, rfl⟩ | ⟨text, _, rfl⟩
  · exact hsorted
  · refine OrdMap.sorted_insert _ _ ?_
    rw [JsonMap.orInsert]
    have hwrapped := OrdMap.sorted_insert fields.body (wrapBodyText text)
      (OrdMap.sorted_erase fields.text hsorted)
    split_ifs
    · exact hwrapped
    · exact OrdMap.sorted_insert _ _ hwrapped

theorem normalizeBodyFields_spec (hsorted : OrdMap.Sorted object)
    (h : normalizeBodyFields sha256 object = .ok next) :
    BodiesNormalized sha256 object next := by
  obtain ⟨first, hfirst, h⟩ := Except.bind_eq_ok_iff.mp h
  obtain ⟨second, hsecond, h⟩ := Except.bind_eq_ok_iff.mp h
  obtain ⟨third, hthird, hlast⟩ := Except.bind_eq_ok_iff.mp h
  have hfirstSorted := takeBodyText_sorted hsorted hfirst
  have hkept : ∀ key, key ∉ bodyKeys → next.get key = object.get key := by
    intro key hkey
    simp only [bodyKeys, List.mem_cons, List.not_mem_nil, or_false, not_or] at hkey
    rw [validateEmbeddedRawBody_get hlast (by simp [responseBodyFields, hkey])
        (by simp [responseBodyFields, hkey]),
      validateEmbeddedRawBody_get hthird (by simp [requestBodyFields, hkey])
        (by simp [requestBodyFields, hkey]),
      takeBodyText_get hsecond (by simp [responseBodyFields, hkey]),
      takeBodyText_get hfirst (by simp [requestBodyFields, hkey])]
  -- the validation of the bodies leaves the texts and the bodies alone
  have hvalidated : ∀ key ∈ ["requestBodyText", "responseBodyText", "requestBody",
      "responseBody"], next.get key = second.get key := by
    intro key hkey
    simp only [List.mem_cons, List.not_mem_nil, or_false] at hkey
    rw [validateEmbeddedRawBody_get hlast, validateEmbeddedRawBody_get hthird] <;>
      rcases hkey with rfl | rfl | rfl | rfl <;> decide
  have hrequestText : second.get "requestBodyText" = first.get "requestBodyText" :=
    takeBodyText_get hsecond (by decide)
  refine ⟨hkept, ⟨?_, ?_, ?_, ?_⟩, ?_, ?_⟩
  · rw [hvalidated _ (by decide), hrequestText]
    exact takeBodyText_text requestBodyFields_distinct hsorted hfirst
  · rw [hvalidated _ (by decide)]
    exact takeBodyText_text responseBodyFields_distinct hfirstSorted hsecond
  · have hsettled := validateEmbeddedRawBody_settled requestBodyFields_distinct hthird
    refine (bodySettled_congr ?_ ?_ ?_).mp hsettled <;>
      exact (validateEmbeddedRawBody_get hlast (by decide) (by decide)).symm
  · exact validateEmbeddedRawBody_settled responseBodyFields_distinct hlast
  · intro bound hwithin hrequest hresponse
    refine validateEmbeddedRawBody_within (validateEmbeddedRawBody_within
      (takeBodyText_within (takeBodyText_within hwithin hrequest hfirst) ?_ hsecond) hthird)
      hlast
    intro text value hget
    rw [takeBodyText_get hfirst (by decide)] at hget
    exact hresponse text value hget
  · intro fields hfields
    simp only [List.mem_cons, List.not_mem_nil, or_false] at hfields
    rcases hfields with rfl | rfl
    · have hbody : next.get requestBodyFields.body = first.get requestBodyFields.body := by
        rw [hvalidated requestBodyFields.body (by decide)]
        exact takeBodyText_get hsecond (by decide)
      rw [hbody]
      exact takeBodyText_body requestBodyFields_distinct hfirst
    · rw [hvalidated responseBodyFields.body (by decide)]
      have htext : first.get responseBodyFields.text = object.get responseBodyFields.text :=
        takeBodyText_get hfirst (by decide)
      have hbody : first.get responseBodyFields.body = object.get responseBodyFields.body :=
        takeBodyText_get hfirst (by decide)
      rw [← htext, ← hbody]
      exact takeBodyText_body responseBodyFields_distinct hsecond

end Specification

end ChipTrace
