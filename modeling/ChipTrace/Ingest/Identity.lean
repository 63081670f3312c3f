/-
The session and turn of a log record, as its derived capture states them and as the
offline reader of the export selects them.
-/
import ChipTrace.Ingest.Derived

namespace ChipTrace

section Layers

/-- The attribute lists of a record, outermost first. -/
def recordLayers (resourceLog scopeLog record : Json) : List (Option Json) :=
  [(resourceLog.get? "resource").bind (Json.get? · "attributes"),
    (scopeLog.get? "scope").bind (Json.get? · "attributes"), record.get? "attributes"]

/-- The merged attributes with which the offline reader visits a record. -/
def offlineTexts (resourceLog scopeLog record : Json) : Except String (Table String String) := do
  let outer ← resourceTexts "otlp_logs" resourceLog
  let layered ← scopeTexts "otlp_logs" outer scopeLog
  recordTexts "otlp_logs" layered record

/-- The last value of a key over the layers, as plain JSON. -/
def lastValue (layers : List (Option Json)) (key : String) : Option Json :=
  layers.foldl (fun outer layer =>
    (OrdMap.lookup key (attributeValues layer).reverse).or outer) none

/-- The last text of a key over the layers. -/
def lastText (layers : List (Option Json)) (key : String) : Option String :=
  layers.foldl (fun outer layer =>
    (OrdMap.lookup key (attributeTexts layer).reverse).or outer) none

/-- The key's last value, when it is a string that is not blank. -/
def plainText (layers : List (Option Json)) (key : String) : Option String :=
  ((lastValue layers key).bind Json.asStr).filter fun text => !Text.isBlank text

/-- The key's last text, when it is not blank. -/
def typedText (layers : List (Option Json)) (key : String) : Option String :=
  (lastText layers key).filter fun text => !Text.isBlank text

theorem otlpMessageAttributes_ok {message : Option Json} {field : String}
    {attributes : Option Json} (h : otlpMessageAttributes message field = .ok attributes) :
    attributes = message.bind (Json.get? · "attributes") := by
  unfold otlpMessageAttributes at h
  split at h
  · exact (Except.ok.inj h).symm
  · exact (Except.ok.inj h).symm
  · exact (Except.ok.inj h).symm
  · cases h

theorem attributesForEndpoint_logs (value : Option Json) (recordName : Option String) :
    attributesForEndpoint "otlp_logs" value recordName =
      (validateOtlpAttributes value).map fun _ =>
        Table.empty.insertAll (attributeTexts value) := by
  have hmode : ("otlp_logs" == "otlp_traces") = false := by decide
  rw [attributesForEndpoint, hmode, Bool.false_and, validateOtlpAttributes]
  cases validateOtlpAttributesMode value false false <;> rfl

theorem get?_empty_insertAll {V : Type} (rows : List (String × V)) (key : String) :
    ((Table.empty : Table String V).insertAll rows).get? key = OrdMap.lookup key rows.reverse := by
  rw [Table.get?_insertAll, Table.get?_empty, Option.or_none]

/-- The offline attributes of a record are the last texts of its layers. -/
theorem offlineTexts_get? {resourceLog scopeLog record : Json} {merged : Table String String}
    (h : offlineTexts resourceLog scopeLog record = .ok merged) (key : String) :
    merged.get? key = lastText (recordLayers resourceLog scopeLog record) key := by
  obtain ⟨outer, houter, h⟩ := Except.bind_eq_ok_iff.mp h
  obtain ⟨layered, hlayered, h⟩ := Except.bind_eq_ok_iff.mp h
  obtain ⟨outerAttributes, houterMessage, houter⟩ := Except.bind_eq_ok_iff.mp houter
  obtain ⟨innerAttributes, hinnerMessage, hlayered⟩ := Except.bind_eq_ok_iff.mp hlayered
  obtain ⟨inner, hinner, hlayered⟩ := Except.bind_eq_ok_iff.mp hlayered
  obtain ⟨own, hown, h⟩ := Except.bind_eq_ok_iff.mp h
  rw [attributesForEndpoint_logs] at houter hinner hown
  obtain ⟨_, _, rfl⟩ := Except.map_eq_ok_iff.mp houter
  obtain ⟨_, _, rfl⟩ := Except.map_eq_ok_iff.mp hinner
  obtain ⟨_, _, rfl⟩ := Except.map_eq_ok_iff.mp hown
  obtain rfl := Except.pure_eq_ok_iff.mp hlayered
  obtain rfl := Except.pure_eq_ok_iff.mp h
  rw [Table.get?_insertAll_entries, Table.get?_insertAll_entries, get?_empty_insertAll,
    get?_empty_insertAll, get?_empty_insertAll, otlpMessageAttributes_ok houterMessage,
    otlpMessageAttributes_ok hinnerMessage]
  simp only [lastText, recordLayers, List.foldl_cons, List.foldl_nil, Option.or_none]

/-- The attributes of a derived capture are the last values of its layers. -/
theorem mergedAttributes_get? {resourceLog scopeLog record : Json}
    {outer inner own : AttributeMap}
    (houter : messageAttributes (resourceLog.get? "resource") "resource" = .ok outer)
    (hinner : messageAttributes (scopeLog.get? "scope") "scope" = .ok inner)
    (hown : attributesMap (record.get? "attributes") = .ok own) (key : String) :
    Table.get? ((outer.insertAll inner.entries).insertAll own.entries) key =
      lastValue (recordLayers resourceLog scopeLog record) key := by
  obtain ⟨outerAttributes, houterMessage, houter⟩ := Except.bind_eq_ok_iff.mp houter
  obtain ⟨innerAttributes, hinnerMessage, hinner⟩ := Except.bind_eq_ok_iff.mp hinner
  obtain ⟨_, _, houter⟩ := Except.bind_eq_ok_iff.mp houter
  obtain ⟨_, _, hinner⟩ := Except.bind_eq_ok_iff.mp hinner
  obtain ⟨_, _, hown⟩ := Except.bind_eq_ok_iff.mp hown
  obtain rfl := Except.pure_eq_ok_iff.mp houter
  obtain rfl := Except.pure_eq_ok_iff.mp hinner
  obtain rfl := Except.pure_eq_ok_iff.mp hown
  rw [Table.get?_insertAll_entries, Table.get?_insertAll_entries, get?_empty_insertAll,
    get?_empty_insertAll, get?_empty_insertAll, otlpMessageAttributes_ok houterMessage,
    otlpMessageAttributes_ok hinnerMessage]
  simp only [lastValue, recordLayers, List.foldl_cons, List.foldl_nil, Option.or_none]

end Layers

section Selection

variable {attributes : Table String String} {keys : List String}

theorem mem_orderedNames {names : List String} {name : String} :
    name ∈ orderedNames names ↔ name ∈ names := by
  have hfold : ∀ (todo : List String) (seen : Table String Unit),
      (∃ v, (todo.foldl (fun seen name => seen.insert name ()) seen).get? name = some v) ↔
        name ∈ todo ∨ ∃ v, seen.get? name = some v := by
    intro todo
    induction todo with
    | nil => simp
    | cons head rest ih =>
        intro seen
        rw [List.foldl_cons, ih, List.mem_cons, Table.get?_insert]
        by_cases hsame : name = head
        · simp [hsame]
        · simp [hsame]
  rw [orderedNames, Table.mem_keys, hfold]
  simp

/-- The one text of the aliases. -/
theorem uniqueAttribute_ok {selected : Option String}
    (h : uniqueAttribute attributes keys = .ok selected) (text : String) :
    selected = some text ↔ ∃ key ∈ keys,
      (attributes.get? key).filter (fun text => !Text.isBlank text) = some text := by
  have hmem : text ∈ orderedNames ((keys.filterMap attributes.get?).filter fun value =>
      !Text.isBlank value) ↔ ∃ key ∈ keys,
        (attributes.get? key).filter (fun text => !Text.isBlank text) = some text := by
    rw [mem_orderedNames, List.mem_filter, List.mem_filterMap]
    constructor
    · rintro ⟨⟨key, hkey, hget⟩, hfilled⟩
      exact ⟨key, hkey, Option.filter_eq_some_iff.mpr ⟨hget, hfilled⟩⟩
    · rintro ⟨key, hkey, hfilled⟩
      obtain ⟨hget, hfilled⟩ := Option.filter_eq_some_iff.mp hfilled
      exact ⟨⟨key, hkey, hget⟩, hfilled⟩
  rw [← hmem]
  rw [uniqueAttribute] at h
  split_ifs at h with hmany
  rw [← Except.ok.inj h]
  revert hmany
  generalize orderedNames _ = names
  intro hmany
  cases names with
  | nil => simp
  | cons name rest =>
      cases rest with
      | nil => simp [eq_comm]
      | cons other more => exact absurd (by simp) hmany

theorem uniqueAttribute_congr {other : Table String String}
    (h : ∀ key ∈ keys, attributes.get? key = other.get? key) :
    uniqueAttribute attributes keys = uniqueAttribute other keys := by
  rw [uniqueAttribute, uniqueAttribute, List.filterMap_congr h]

theorem sessionAttribute_congr {other : Table String String}
    (h : ∀ key, isIdentityAttribute key = true → attributes.get? key = other.get? key) :
    sessionAttribute attributes = sessionAttribute other := by
  have hkeys : ∀ key ∈ sessionAttributes, isIdentityAttribute key = true := by decide
  rw [sessionAttribute, sessionAttribute, uniqueAttribute_congr fun key hkey =>
    h key (hkeys key hkey), h "thread_id" (by decide)]

theorem turnAttribute_congr {other : Table String String}
    (h : ∀ key, isIdentityAttribute key = true → attributes.get? key = other.get? key) :
    turnAttribute attributes = turnAttribute other := by
  have hturn : ∀ key ∈ turnAttributes, isIdentityAttribute key = true := by decide
  have hroot : ∀ key ∈ rootTurnAttributes, isIdentityAttribute key = true := by decide
  rw [turnAttribute, turnAttribute, uniqueAttribute_congr fun key hkey => h key (hturn key hkey),
    uniqueAttribute_congr fun key hkey => h key (hroot key hkey)]

/-- The session is the one text of its aliases, or else the native thread. -/
theorem sessionAttribute_ok {selected : Option String}
    (h : sessionAttribute attributes = .ok selected) (text : String) :
    selected = some text ↔ (∃ key ∈ sessionAttributes,
        (attributes.get? key).filter (fun text => !Text.isBlank text) = some text) ∨
      (attributes.get? "thread_id").filter isNativeThread = some text := by
  obtain ⟨explicit, hexplicit, h⟩ := Except.bind_eq_ok_iff.mp h
  rw [← uniqueAttribute_ok hexplicit text]
  dsimp only at h
  cases explicit with
  | none =>
      rw [← Except.pure_eq_ok_iff.mp h]
      simp
  | some session =>
      cases hthread : (attributes.get? "thread_id").filter isNativeThread with
      | none =>
          rw [hthread] at h
          rw [← Except.pure_eq_ok_iff.mp h]
          simp
      | some thread =>
          rw [hthread] at h
          dsimp only at h
          split_ifs at h with hsame
          rw [← Except.pure_eq_ok_iff.mp h, hsame]
          simp

end Selection

section Validation

/-- Restricted to one key, two readers of the entries that agree give the same lookups. -/
theorem lookup_filterMap_congr {V : Type} {entries : List Json} {key : String}
    {read other : Json → Option (String × V)}
    (h : ∀ entry ∈ entries, (read entry).filter (fun field => field.1 == key) =
      (other entry).filter fun field => field.1 == key) :
    OrdMap.lookup key (entries.filterMap read) = OrdMap.lookup key (entries.filterMap other) := by
  have hlookup : ∀ (reader : Json → Option (String × V)) (entries : List Json),
      OrdMap.lookup key (entries.filterMap reader) =
        (entries.findSome? fun entry =>
          (reader entry).filter fun field => field.1 == key).map Prod.snd := by
    intro reader entries
    induction entries with
    | nil => rfl
    | cons entry rest ih =>
        rw [List.filterMap_cons, List.findSome?_cons]
        cases reader entry with
        | none => exact ih
        | some field =>
            rw [Option.filter_some, OrdMap.lookup, ih]
            by_cases hkey : key = field.1
            · rw [if_pos hkey, if_pos (by simp [hkey])]
              rfl
            · rw [if_neg hkey, if_neg (by simpa using Ne.symm hkey)]
  rw [hlookup, hlookup, ← List.head?_filterMap, ← List.head?_filterMap, List.filterMap_congr h]

/-- For identity attributes both readers see the same texts. -/
theorem identityTexts_lookup {layer : Option Json} {key : String}
    (hkey : isIdentityAttribute key = true) :
    OrdMap.lookup key (identityTexts layer).reverse =
      OrdMap.lookup key (attributeTexts layer).reverse := by
  have hthread : key ≠ "thread.id" := by
    rintro rfl
    revert hkey
    decide
  rw [identityTexts, attributeTexts, ← List.filterMap_reverse, ← List.filterMap_reverse]
  refine lookup_filterMap_congr fun entry _ => ?_
  rw [otlpAttributeKey]
  cases (entry.get? "key").bind Json.asStr with
  | none => rfl
  | some name =>
      by_cases hname : name = key
      · rw [hname, Option.filter_some, if_pos hkey, Option.filter_some,
          if_pos (by simpa using hthread)]
      · have hother : ∀ text : Option String, ∀ known : Bool,
            ((if known = true then some name else none).bind fun key =>
              text.bind fun text => some (key, text)).filter (fun field => field.1 == key) =
                none := by
          intro text known
          cases known <;> cases text <;> simp [hname]
        exact (hother _ _).trans (hother _ _).symm

/-- The identity texts of the layers, as they are merged for the check. -/
def identityMerge (layers : List (Option Json)) : Table String String :=
  layers.foldl (fun merged layer => merged.insertAll (identityTexts layer)) Table.empty

theorem mergeIdentityLayers_ok_iff {layers : List (Option Json)} {merged : Table String String} :
    layers.foldlM mergeIdentityLayer Table.empty = .ok merged ↔
      (∀ layer ∈ layers, validateOtlpAttributes layer = .ok ()) ∧ merged = identityMerge layers := by
  have hfold : ∀ (layers : List (Option Json)) (start merged : Table String String),
      layers.foldlM mergeIdentityLayer start = .ok merged ↔
        (∀ layer ∈ layers, validateOtlpAttributes layer = .ok ()) ∧
          merged = layers.foldl (fun merged layer => merged.insertAll (identityTexts layer))
            start := by
    intro layers
    induction layers with
    | nil =>
        intro start merged
        rw [List.foldlM_nil, Except.pure_eq_ok_iff]
        simp [eq_comm]
    | cons layer rest ih =>
        intro start merged
        rw [List.foldlM_cons, Except.bind_eq_ok_iff, List.forall_mem_cons, List.foldl_cons]
        simp only [mergeIdentityLayer, Except.bind_eq_ok_iff, Except.pure_eq_ok_iff, ih]
        constructor
        · rintro ⟨_, ⟨⟨⟩, hlayer, rfl⟩, hrest, hmerged⟩
          exact ⟨⟨hlayer, hrest⟩, hmerged⟩
        · rintro ⟨⟨hlayer, hrest⟩, hmerged⟩
          exact ⟨_, ⟨(), hlayer, rfl⟩, hrest, hmerged⟩
  exact hfold layers Table.empty merged

theorem identityMerge_get? (layers : List (Option Json)) {key : String}
    (hkey : isIdentityAttribute key = true) :
    (identityMerge layers).get? key = lastText layers key := by
  have hfold : ∀ (layers : List (Option Json)) (start : Table String String),
      (layers.foldl (fun merged layer => merged.insertAll (identityTexts layer)) start).get? key =
        layers.foldl (fun outer layer =>
          (OrdMap.lookup key (attributeTexts layer).reverse).or outer) (start.get? key) := by
    intro layers
    induction layers with
    | nil => exact fun start => rfl
    | cons layer rest ih =>
        intro start
        rw [List.foldl_cons, ih, List.foldl_cons, Table.get?_insertAll, identityTexts_lookup hkey]
  exact hfold layers Table.empty

variable {resourceLog scopeLog record : Json} {outer inner : Option Json}

/-- The offline reader can merge the layers exactly when each of them is valid. -/
theorem offlineTexts_ok_iff
    (houter : otlpMessageAttributes (resourceLog.get? "resource") "resource" = .ok outer)
    (hinner : otlpMessageAttributes (scopeLog.get? "scope") "scope" = .ok inner) :
    (∃ merged, offlineTexts resourceLog scopeLog record = .ok merged) ↔
      ∀ layer ∈ recordLayers resourceLog scopeLog record, validateOtlpAttributes layer = .ok () := by
  rw [recordLayers, ← otlpMessageAttributes_ok houter, ← otlpMessageAttributes_ok hinner]
  simp only [offlineTexts, resourceTexts, scopeTexts, recordTexts, houter, hinner,
    Except.ok_bind, attributesForEndpoint_logs, List.forall_mem_cons]
  cases hfirst : validateOtlpAttributes outer with
  | error error => simp [Except.map]
  | ok _ =>
      cases hsecond : validateOtlpAttributes inner with
      | error error => simp [Except.map]
      | ok _ =>
          cases hthird : validateOtlpAttributes (record.get? "attributes") with
          | error error => simp [Except.map]
          | ok _ => simp [Except.map, pure, Except.pure]

/-- The check of the identity layers is the offline merge and selection. -/
theorem validateOtlpIdentityLayers_iff
    (houter : otlpMessageAttributes (resourceLog.get? "resource") "resource" = .ok outer)
    (hinner : otlpMessageAttributes (scopeLog.get? "scope") "scope" = .ok inner) :
    validateOtlpIdentityLayers (recordLayers resourceLog scopeLog record) = .ok () ↔
      ∃ merged session turn, offlineTexts resourceLog scopeLog record = .ok merged ∧
        sessionAttribute merged = .ok session ∧ turnAttribute merged = .ok turn := by
  have hsame : ∀ merged, offlineTexts resourceLog scopeLog record = .ok merged →
      ∀ key, isIdentityAttribute key = true → (identityMerge (recordLayers resourceLog scopeLog
        record)).get? key = merged.get? key := by
    intro merged hmerged key hkey
    rw [identityMerge_get? _ hkey, offlineTexts_get? hmerged]
  rw [validateOtlpIdentityLayers]
  constructor
  · intro h
    obtain ⟨merged, hmerged, h⟩ := Except.bind_eq_ok_iff.mp h
    obtain ⟨session, hsession, h⟩ := Except.bind_eq_ok_iff.mp h
    obtain ⟨turn, hturn, _⟩ := Except.bind_eq_ok_iff.mp h
    obtain ⟨hvalid, rfl⟩ := mergeIdentityLayers_ok_iff.mp hmerged
    obtain ⟨texts, htexts⟩ := (offlineTexts_ok_iff houter hinner).mpr hvalid
    rw [sessionAttribute_congr (hsame texts htexts)] at hsession
    rw [turnAttribute_congr (hsame texts htexts)] at hturn
    exact ⟨texts, session, turn, htexts, hsession, hturn⟩
  · rintro ⟨texts, session, turn, htexts, hsession, hturn⟩
    have hvalid := (offlineTexts_ok_iff houter hinner).mp ⟨texts, htexts⟩
    rw [← sessionAttribute_congr (hsame texts htexts)] at hsession
    rw [← turnAttribute_congr (hsame texts htexts)] at hturn
    refine Except.bind_eq_ok_iff.mpr ⟨_, mergeIdentityLayers_ok_iff.mpr ⟨hvalid, rfl⟩, ?_⟩
    refine Except.bind_eq_ok_iff.mpr ⟨session, hsession, ?_⟩
    exact Except.bind_eq_ok_iff.mpr ⟨turn, hturn, rfl⟩

end Validation

end ChipTrace
