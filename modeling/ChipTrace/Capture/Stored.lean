/-
The stored form of an envelope: which fields it sets, and that setting them again
changes nothing.
-/
import ChipTrace.Capture.Normalize

namespace ChipTrace

/-- The names of a set, listed in order, are in order again. -/
theorem orderedNames_orderedNames (names : List String) :
    orderedNames (orderedNames names) = orderedNames names := by
  have hget : ∀ (todo : List String) (seen : Table String Unit) (name : String),
      (todo.foldl (fun seen name => seen.insert name ()) seen).get? name =
        if name ∈ todo then some () else seen.get? name := by
    intro todo
    induction todo with
    | nil => simp
    | cons head rest ih =>
        intro seen name
        rw [List.foldl_cons, ih, Table.get?_insert]
        by_cases hhead : name = head <;> simp [hhead]
  rw [orderedNames, orderedNames]
  congr 1
  refine Table.ext_get? fun name => ?_
  rw [hget, Table.get?_empty]
  have hmem := Table.mem_keys (names.foldl (fun (seen : Table String Unit) name =>
    seen.insert name ()) Table.empty) name
  cases hstored : (names.foldl (fun (seen : Table String Unit) name =>
      seen.insert name ()) Table.empty).get? name with
  | none =>
      rw [if_neg]
      rw [hmem, hstored]
      simp
  | some _ =>
      rw [if_pos]
      rw [hmem, hstored]
      simp

section Sides

variable {object : JsonMap} {side : String}

def publicHeaders (object : JsonMap) (side : String) : JsonMap :=
  ((object.object? side).getD []).filter fun (name, _) => !isSensitive name

theorem sanitizeSide_eq : sanitizeSide object side =
    object.insert side (.obj (publicHeaders object side)) := rfl

theorem object?_of_get {fields : JsonMap} (h : object.get side = some (.obj fields)) :
    object.object? side = some fields := by
  rw [JsonMap.object?, h]
  rfl

theorem object?_congr {other : JsonMap} (h : object.get side = other.get side) :
    object.object? side = other.object? side := by
  rw [JsonMap.object?, h, JsonMap.object?]

end Sides

section Finish

variable (object : JsonMap)

/-- The envelope with both header sides, the version and the redacted names. -/
def redactedEnvelope : JsonMap :=
  ((sanitizeHeaders object).1.insert "version" (.str captureSchemaVersion)).insert
    "redactedHeaders" (.arr ((sanitizeHeaders object).2.map .str))

def withDefaults : JsonMap :=
  storedDefaults.foldl (fun object (field, value) => object.orInsert field value) object

def withReceivedAt : JsonMap :=
  if (object.get "receivedAt").all Json.isNull then
    object.insert "receivedAt" (((receivedAtOf object).map Json.str).getD .null)
  else object

theorem finishEnvelope_eq :
    finishEnvelope object = withReceivedAt (withDefaults (redactedEnvelope object)) := rfl

variable {object}

theorem withDefaults_get (key : String) :
    (withDefaults object).get key =
      (object.get key).or (OrdMap.lookup key storedDefaults) := by
  have hfold : ∀ (defaults : List (String × Json)) (start : JsonMap),
      (defaults.map Prod.fst).Nodup →
      (defaults.foldl (fun object (field, value) => object.orInsert field value) start).get key =
        (start.get key).or (OrdMap.lookup key defaults) := by
    intro defaults
    induction defaults with
    | nil => intro start _; simp
    | cons head rest ih =>
        obtain ⟨field, value⟩ := head
        intro start hnodup
        obtain ⟨hhead, hrest⟩ := List.nodup_cons.mp hnodup
        rw [List.foldl_cons, ih _ hrest, JsonMap.get_orInsert, OrdMap.lookup]
        by_cases hkey : key = field
        · subst hkey
          rw [if_pos rfl, if_pos rfl]
          cases start.get key <;> rfl
        · rw [if_neg hkey, if_neg hkey]
  exact hfold storedDefaults object (by decide)

theorem redactedEnvelope_get {key : String}
    (hkey : key ∉ ["requestHeaders", "responseHeaders", "version", "redactedHeaders"]) :
    (redactedEnvelope object).get key = object.get key := by
  simp only [List.mem_cons, List.not_mem_nil, or_false, not_or] at hkey
  obtain ⟨hrequest, hresponse, hversion, hredacted⟩ := hkey
  rw [redactedEnvelope, JsonMap.get_insert_of_ne hredacted, JsonMap.get_insert_of_ne hversion,
    sanitizeHeaders, sanitizeSide_eq, JsonMap.get_insert_of_ne hresponse, sanitizeSide_eq,
    JsonMap.get_insert_of_ne hrequest]

theorem redactedEnvelope_side {side : String} (hside : side ∈ ["requestHeaders",
    "responseHeaders"]) :
    (redactedEnvelope object).get side = some (.obj (publicHeaders object side)) := by
  simp only [List.mem_cons, List.not_mem_nil, or_false] at hside
  rw [redactedEnvelope, JsonMap.get_insert_of_ne (by rcases hside with rfl | rfl <;> decide),
    JsonMap.get_insert_of_ne (by rcases hside with rfl | rfl <;> decide), sanitizeHeaders]
  rcases hside with rfl | rfl
  · rw [sanitizeSide_eq, JsonMap.get_insert_of_ne (by decide), sanitizeSide_eq,
      JsonMap.get_insert_self]
  · rw [sanitizeSide_eq, JsonMap.get_insert_self, publicHeaders, publicHeaders,
      object?_congr]
    rw [sanitizeSide_eq, JsonMap.get_insert_of_ne (by decide)]

/-- Fields that the stored form leaves as they are. -/
theorem finishEnvelope_get {key : String}
    (hkey : key ∉ ["requestHeaders", "responseHeaders", "version", "redactedHeaders",
      "receivedAt", "traceContext", "observedLifecycleEvents", "requestTruncated",
      "responseTruncated", "stream", "captureError"]) :
    (finishEnvelope object).get key = object.get key := by
  simp only [List.mem_cons, List.not_mem_nil, or_false, not_or] at hkey
  have hdefault : OrdMap.lookup key storedDefaults = none := by
    simp [storedDefaults, OrdMap.lookup, hkey]
  have hbefore : (withDefaults (redactedEnvelope object)).get key = object.get key := by
    rw [withDefaults_get, hdefault, Option.or_none, redactedEnvelope_get (by simp [hkey])]
  rw [finishEnvelope_eq, withReceivedAt]
  split_ifs
  · rw [JsonMap.get_insert_of_ne hkey.2.2.2.2.1, hbefore]
  · exact hbefore

/-- Fields that the stored form only sets when they are missing. -/
theorem finishEnvelope_default {key : String} {value : Json}
    (hdefault : OrdMap.lookup key storedDefaults = some value) :
    (finishEnvelope object).get key = some ((object.get key).getD value) := by
  have hkey : key ∈ ["traceContext", "observedLifecycleEvents", "requestTruncated",
      "responseTruncated", "stream", "captureError"] := by
    by_contra hother
    simp only [List.mem_cons, List.not_mem_nil, or_false, not_or] at hother
    simp [storedDefaults, OrdMap.lookup, hother] at hdefault
  have hreceived : key ≠ "receivedAt" := by
    rintro rfl
    revert hkey
    decide
  have hbefore : (withDefaults (redactedEnvelope object)).get key =
      some ((object.get key).getD value) := by
    rw [withDefaults_get, hdefault, redactedEnvelope_get]
    · cases object.get key <;> rfl
    · intro hmem
      simp only [List.mem_cons, List.not_mem_nil, or_false] at hmem
      rcases hmem with rfl | rfl | rfl | rfl <;> revert hkey <;> decide
  rw [finishEnvelope_eq, withReceivedAt]
  split_ifs
  · rw [JsonMap.get_insert_of_ne hreceived, hbefore]
  · exact hbefore

theorem finishEnvelope_redacted {key : String}
    (hkey : key ∈ ["requestHeaders", "responseHeaders", "version", "redactedHeaders"]) :
    (finishEnvelope object).get key = (redactedEnvelope object).get key := by
  simp only [List.mem_cons, List.not_mem_nil, or_false] at hkey
  have hdefault : OrdMap.lookup key storedDefaults = none := by
    rcases hkey with rfl | rfl | rfl | rfl <;> decide
  rw [finishEnvelope_eq, withReceivedAt]
  split_ifs
  · rw [JsonMap.get_insert_of_ne (by rcases hkey with rfl | rfl | rfl | rfl <;> decide),
      withDefaults_get, hdefault, Option.or_none]
  · rw [withDefaults_get, hdefault, Option.or_none]

theorem receivedAtOf_eq : receivedAtOf object =
    (object.filled? "receivedAt").or
      ((object.filled? "finishedAt").or (object.filled? "startedAt")) := by
  rw [receivedAtOf, List.findSome?_cons, List.findSome?_cons, List.findSome?_cons,
    List.findSome?_nil]
  cases object.filled? "receivedAt" <;> cases object.filled? "finishedAt" <;>
    cases object.filled? "startedAt" <;> rfl

theorem filled?_congr {other : JsonMap} {key : String} (h : object.get key = other.get key) :
    object.filled? key = other.filled? key := by
  rw [JsonMap.filled?, JsonMap.str?, h, JsonMap.filled?, JsonMap.str?]

theorem receivedAtOf_congr {other : JsonMap}
    (h : ∀ key ∈ ["receivedAt", "finishedAt", "startedAt"], object.get key = other.get key) :
    receivedAtOf object = receivedAtOf other := by
  rw [receivedAtOf_eq, receivedAtOf_eq, filled?_congr (h "receivedAt" (by simp)),
    filled?_congr (h "finishedAt" (by simp)), filled?_congr (h "startedAt" (by simp))]

/-- The received time that an envelope implies is not blank. -/
theorem receivedAtOf_filled {time : String} (h : receivedAtOf object = some time) :
    Text.isBlank time = false := by
  obtain ⟨key, _, hkey⟩ := List.exists_of_findSome?_eq_some h
  rw [JsonMap.filled?, Option.filter_eq_some_iff] at hkey
  simpa using hkey.2

theorem finishEnvelope_receivedAt :
    (finishEnvelope object).get "receivedAt" =
      if (object.get "receivedAt").all Json.isNull then
        some (((receivedAtOf object).map Json.str).getD .null)
      else object.get "receivedAt" := by
  have hbefore : ∀ key ∈ ["receivedAt", "finishedAt", "startedAt"],
      (withDefaults (redactedEnvelope object)).get key = object.get key := by
    intro key hkey
    simp only [List.mem_cons, List.not_mem_nil, or_false] at hkey
    have hdefault : OrdMap.lookup key storedDefaults = none := by
      rcases hkey with rfl | rfl | rfl <;> decide
    rw [withDefaults_get, hdefault, Option.or_none, redactedEnvelope_get]
    rcases hkey with rfl | rfl | rfl <;> decide
  rw [finishEnvelope_eq, withReceivedAt, hbefore "receivedAt" List.mem_cons_self,
    receivedAtOf_congr hbefore]
  split_ifs
  · exact JsonMap.get_insert_self
  · exact hbefore "receivedAt" List.mem_cons_self

/-- A missing received time is filled with the one that the envelope implies. -/
theorem receivedAtOf_finishEnvelope : receivedAtOf (finishEnvelope object) = receivedAtOf object := by
  have hfinished : (finishEnvelope object).filled? "finishedAt" = object.filled? "finishedAt" :=
    filled?_congr (finishEnvelope_get (by decide))
  have hstarted : (finishEnvelope object).filled? "startedAt" = object.filled? "startedAt" :=
    filled?_congr (finishEnvelope_get (by decide))
  have hreceived : (finishEnvelope object).get "receivedAt" = _ := finishEnvelope_receivedAt
  rw [receivedAtOf_eq, hfinished, hstarted]
  by_cases hmissing : (object.get "receivedAt").all Json.isNull = true
  · rw [if_pos hmissing] at hreceived
    have hblank : object.filled? "receivedAt" = none := by
      rw [JsonMap.filled?, JsonMap.str?]
      cases hget : object.get "receivedAt" with
      | none => rfl
      | some value =>
          rw [hget, Option.all_some, Json.isNull, beq_iff_eq] at hmissing
          rw [hmissing]
          rfl
    have himplied : receivedAtOf object = _ := receivedAtOf_eq
    rw [hblank, Option.none_or] at himplied
    rw [← himplied, JsonMap.filled?, JsonMap.str?, hreceived]
    cases htime : receivedAtOf object with
    | none => rfl
    | some time =>
        have hfilled := receivedAtOf_filled htime
        simp [Json.asStr, Option.filter, hfilled]
  · rw [if_neg hmissing] at hreceived
    rw [filled?_congr hreceived, ← receivedAtOf_eq]

theorem withDefaults_eq_self (h : ∀ key ∈ storedDefaults.map Prod.fst,
    object.containsKey key = true) : withDefaults object = object := by
  have hfold : ∀ defaults : List (String × Json),
      (∀ key ∈ defaults.map Prod.fst, object.containsKey key = true) →
      defaults.foldl (fun object (field, value) => object.orInsert field value) object =
        object := by
    intro defaults
    induction defaults with
    | nil => exact fun _ => rfl
    | cons head rest ih =>
        obtain ⟨field, value⟩ := head
        intro hkeys
        have hhead : object.orInsert field value = object :=
          JsonMap.orInsert_eq_self.mpr (hkeys field List.mem_cons_self)
        rw [List.foldl_cons]
        simp only [hhead]
        exact ih fun key hkey => hkeys key (List.mem_cons_of_mem _ hkey)
  exact hfold storedDefaults h

/-- The stored form holds no credentials that a second redaction could find. -/
theorem sanitizeHeaders_finishEnvelope (hsorted : OrdMap.Sorted (finishEnvelope object)) :
    sanitizeHeaders (finishEnvelope object) =
      (finishEnvelope object, (sanitizeHeaders object).2) := by
  have hside : ∀ side ∈ ["requestHeaders", "responseHeaders"],
      (finishEnvelope object).object? side = some (publicHeaders object side) := by
    intro side hside
    refine object?_of_get ?_
    rw [finishEnvelope_redacted (by
      simp only [List.mem_cons, List.not_mem_nil, or_false] at hside ⊢
      rcases hside with rfl | rfl <;> simp), redactedEnvelope_side hside]
  have hkept : ∀ side ∈ ["requestHeaders", "responseHeaders"],
      sanitizeSide (finishEnvelope object) side = finishEnvelope object := by
    intro side hmem
    rw [sanitizeSide_eq, publicHeaders, hside side hmem, Option.getD_some, publicHeaders,
      List.filter_filter]
    simp only [Bool.and_self]
    refine OrdMap.insert_eq_self hsorted ?_
    have hget := hside side hmem
    rw [JsonMap.object?] at hget
    cases hvalue : (finishEnvelope object).get side with
    | none => rw [hvalue] at hget; cases hget
    | some value =>
        rw [hvalue, Option.bind_some, Json.asObject_eq_some] at hget
        rw [JsonMap.get] at hvalue
        rw [hvalue, hget]
        rfl
  have hnone : ∀ side ∈ ["requestHeaders", "responseHeaders"],
      credentialNames (finishEnvelope object) side = [] := by
    intro side hmem
    rw [credentialNames, hside side hmem, Option.getD_some, List.filterMap_eq_nil_iff]
    rintro ⟨name, value⟩ hname
    have hpublic := (List.mem_filter.mp hname).2
    simp only [Bool.not_eq_true'] at hpublic
    simp [hpublic]
  have hrecorded : recordedNames (finishEnvelope object) = (sanitizeHeaders object).2 := by
    rw [recordedNames, JsonMap.array?, finishEnvelope_redacted (by simp), redactedEnvelope,
      JsonMap.get_insert_self]
    simp only [Option.bind_some, Json.asArray, Option.getD_some, List.filterMap_map]
    exact List.filterMap_some
  rw [sanitizeHeaders, hkept "requestHeaders" (by simp), hkept "responseHeaders" (by simp),
    hnone "requestHeaders" (by simp), hnone "responseHeaders" (by simp), hrecorded,
    List.nil_append, List.nil_append, sanitizeHeaders, orderedNames_orderedNames]

/-- Storing a stored form changes nothing. -/
theorem finishEnvelope_finishEnvelope (hsorted : OrdMap.Sorted (finishEnvelope object)) :
    finishEnvelope (finishEnvelope object) = finishEnvelope object := by
  have hredacted : redactedEnvelope (finishEnvelope object) = finishEnvelope object := by
    rw [redactedEnvelope, sanitizeHeaders_finishEnvelope hsorted]
    have hversion : (finishEnvelope object).insert "version" (.str captureSchemaVersion) =
        finishEnvelope object := by
      refine OrdMap.insert_eq_self hsorted ?_
      have hget : (finishEnvelope object).get "version" = some (.str captureSchemaVersion) := by
        rw [finishEnvelope_redacted (by simp), redactedEnvelope,
          JsonMap.get_insert_of_ne (by decide), JsonMap.get_insert_self]
      exact hget
    rw [hversion]
    refine OrdMap.insert_eq_self hsorted ?_
    have hget : (finishEnvelope object).get "redactedHeaders" =
        some (.arr ((sanitizeHeaders object).2.map .str)) := by
      rw [finishEnvelope_redacted (by simp), redactedEnvelope, JsonMap.get_insert_self]
    exact hget
  have hdefaults : withDefaults (finishEnvelope object) = finishEnvelope object := by
    refine withDefaults_eq_self fun key hkey => ?_
    obtain ⟨⟨field, value⟩, hmem, rfl⟩ := List.mem_map.mp hkey
    have hlookup : OrdMap.lookup field storedDefaults = some value := by
      simp only [storedDefaults, List.mem_cons, List.not_mem_nil, or_false, Prod.mk.injEq] at hmem
      rcases hmem with ⟨rfl, rfl⟩ | ⟨rfl, rfl⟩ | ⟨rfl, rfl⟩ | ⟨rfl, rfl⟩ | ⟨rfl, rfl⟩ |
        ⟨rfl, rfl⟩ <;> rfl
    rw [JsonMap.containsKey, finishEnvelope_default hlookup]
    rfl
  rw [finishEnvelope_eq, hredacted, hdefaults, withReceivedAt, receivedAtOf_finishEnvelope]
  split_ifs with hnull
  · refine OrdMap.insert_eq_self hsorted ?_
    have hreceived : (finishEnvelope object).get "receivedAt" = _ := finishEnvelope_receivedAt
    by_cases hmissing : (object.get "receivedAt").all Json.isNull = true
    · rw [if_pos hmissing] at hreceived
      exact hreceived
    · rw [if_neg hmissing] at hreceived
      rw [hreceived] at hnull
      exact absurd hnull hmissing
  · rfl

end Finish

end ChipTrace
