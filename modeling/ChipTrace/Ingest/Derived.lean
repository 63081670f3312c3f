/-
The captures that log records become: their trace context is kept as it was written.
-/
import ChipTrace.Capture.Bare
import ChipTrace.Ingest.Derive

namespace ChipTrace

section Trace

theorem lookup_filter {fields : JsonMap} (hnodup : (fields.map Prod.fst).Nodup)
    (p : Json → Bool) (key : String) :
    OrdMap.lookup key (fields.filter fun field => p field.2) =
      (OrdMap.lookup key fields).filter p := by
  induction fields with
  | nil => rfl
  | cons field rest ih =>
      obtain ⟨name, value⟩ := field
      obtain ⟨hhead, hrest⟩ := List.nodup_cons.mp hnodup
      rw [List.filter_cons]
      by_cases hp : p value = true
      · rw [if_pos hp, OrdMap.lookup, OrdMap.lookup, ih hrest]
        split_ifs
        · rw [Option.filter_some, if_pos hp]
        · rfl
      · rw [if_neg hp, ih hrest, OrdMap.lookup]
        split_ifs with hkey
        · rw [hkey, OrdMap.lookup_eq_none_of_not_mem hhead, Option.filter_some, if_neg hp]
          rfl
        · rfl

/-- The fields of an object without its nulls. -/
theorem removeNullFields_get? {fields : JsonMap} (hnodup : (fields.map Prod.fst).Nodup)
    (key : String) :
    (removeNullFields fields).get? key =
      (OrdMap.lookup key fields).filter fun value => !value.isNull := by
  have hfiltered : ((fields.filter fun field => !field.2.isNull).map Prod.fst).Nodup :=
    hnodup.sublist (List.filter_sublist.map _)
  rw [removeNullFields, Json.get?_mkObj hfiltered]
  exact lookup_filter hnodup (fun value => !value.isNull) key

/-- A text that is there is a field, a missing one is none. -/
theorem filter_optionalText (text : Option String) :
    (some (optionalText text)).filter (fun value => !value.isNull) = text.map Json.str := by
  cases text <;> rfl

variable (record : Json) (attributes : AttributeMap) (sessionId : String)

theorem traceContextFields_nodup :
    ((traceContextFields record attributes sessionId).map Prod.fst).Nodup := by
  simp [traceContextFields]

/-- The trace context of a log record as an object. -/
def traceObject : JsonMap :=
  Json.mkFields ((traceContextFields record attributes sessionId).filter fun field =>
    !field.2.isNull)

theorem traceContext_eq :
    traceContext record attributes sessionId = .obj (traceObject record attributes sessionId) :=
  rfl

theorem traceObject_get (key : String) :
    (traceObject record attributes sessionId).get key =
      (OrdMap.lookup key (traceContextFields record attributes sessionId)).filter
        fun value => !value.isNull :=
  removeNullFields_get? (traceContextFields_nodup record attributes sessionId) key

theorem traceObject_canonical : CanonicalTrace (traceObject record attributes sessionId) := by
  intro entry hentry name hname hne
  rw [traceObject_get, OrdMap.lookup_eq_none_of_not_mem]
  · rfl
  · simp only [traceContextFields, List.map_cons, List.map_nil]
    revert name
    revert entry
    decide

end Trace

section Capture

/-- The fields of derived captures besides those that they all have. -/
def derivedKeys : List String :=
  ["requestedModelAlias", "receivedAt", "startedAt", "finishedAt", "traceContext",
    "observedLifecycleEvents", "lifecycleEvent", "toolExecution", "isFinalSnapshot"]

/-- The parts of a derived capture, each under one of the expected names. -/
structure DerivedParts (fields : JsonMap) (trace : JsonMap) : Prop where
  nodup : (fields.map Prod.fst).Nodup
  keys : ∀ key ∈ fields.map Prod.fst, key ∈ derivedKeys
  traceContext : OrdMap.lookup "traceContext" fields = some (.obj trace)
  canonical : CanonicalTrace trace

variable (recordType captureId : String) (fields : JsonMap)

def derivedFields : JsonMap :=
  [("recordType", .str recordType), ("captureId", .str captureId),
    ("captureStage", .str "event"), ("sourceNamespace", .str cloudSourceNamespace)] ++ fields

def derivedObject : JsonMap := Json.mkFields (derivedFields recordType captureId fields)

theorem derivedCapture_eq :
    derivedCapture recordType captureId fields = .obj (derivedObject recordType captureId fields) :=
  rfl

theorem derivedObject_sorted : OrdMap.Sorted (derivedObject recordType captureId fields) :=
  Json.sorted_mkFields _

variable {recordType captureId fields} {trace : JsonMap} (h : DerivedParts fields trace)
include h

theorem derivedFields_nodup : ((derivedFields recordType captureId fields).map Prod.fst).Nodup := by
  rw [derivedFields, List.map_append]
  refine List.Nodup.append (by simp) h.nodup fun key hfixed hown => ?_
  have hkey : key ∈ derivedKeys := h.keys key hown
  simp only [List.map_cons, List.map_nil, List.mem_cons, List.not_mem_nil, or_false] at hfixed
  rcases hfixed with rfl | rfl | rfl | rfl <;> revert hkey <;> decide

theorem derivedObject_get (key : String) :
    (derivedObject recordType captureId fields).get key =
      OrdMap.lookup key (derivedFields recordType captureId fields) := by
  have hget : (Json.mkObj (derivedFields recordType captureId fields)).get? key = _ :=
    Json.get?_mkObj (derivedFields_nodup h) key
  exact hget

theorem derivedObject_absent {key : String} (hfixed : key ∉ ["recordType", "captureId",
    "captureStage", "sourceNamespace"]) (hkey : key ∉ derivedKeys) :
    (derivedObject recordType captureId fields).get key = none := by
  rw [derivedObject_get h]
  refine OrdMap.lookup_eq_none_of_not_mem ?_
  rw [derivedFields, List.map_append, List.mem_append]
  rintro (hmem | hmem)
  · exact hfixed hmem
  · exact hkey (h.keys key hmem)

/-- The fields of its own. -/
theorem derivedObject_own {key : String} (hfixed : key ∉ ["recordType", "captureId",
    "captureStage", "sourceNamespace"]) :
    (derivedObject recordType captureId fields).get key = OrdMap.lookup key fields := by
  simp only [List.mem_cons, List.not_mem_nil, or_false, not_or] at hfixed
  rw [derivedObject_get h]
  simp [derivedFields, OrdMap.lookup, hfixed]

theorem derivedObject_trace :
    (derivedObject recordType captureId fields).object? "traceContext" = some trace := by
  refine object?_of_get ?_
  rw [derivedObject_own h (by decide), h.traceContext]

theorem derivedObject_bare : Bare (derivedObject recordType captureId fields) := by
  refine ⟨fun key hkey => derivedObject_absent h ?_ ?_, ?_⟩
  · revert key
    decide
  · revert key
    decide
  · rw [derivedObject_trace h]
    exact h.canonical

/-- A derived capture has no body to normalise. -/
theorem derivedObject_bodies {sha256 : Bytes → String} {bodies : JsonMap}
    (hbodies : normalizeBodyFields sha256 (derivedObject recordType captureId fields) =
      .ok bodies) : bodies = derivedObject recordType captureId fields := by
  have hsettled : BodiesSettled sha256 (derivedObject recordType captureId fields) := by
    have hnone : ∀ key ∈ bodyKeys,
        (derivedObject recordType captureId fields).get key = none := by
      intro key hkey
      refine derivedObject_absent h ?_ ?_
      · revert key
        decide
      · revert key
        decide
    refine ⟨hnone _ (by decide), hnone _ (by decide), ?_, ?_⟩
    · rw [BodySettled, validateEmbeddedRawBody, embeddedRaw, JsonMap.object?,
        hnone _ (by decide)]
      rfl
    · rw [BodySettled, validateEmbeddedRawBody, embeddedRaw, JsonMap.object?,
        hnone _ (by decide)]
      rfl
  rw [hsettled.normalizeBodyFields] at hbodies
  exact (Except.ok.inj hbodies).symm

theorem derivedObject_recordType :
    (derivedObject recordType captureId fields).orInsert "recordType" (.str "api_snapshot") =
      derivedObject recordType captureId fields := by
  refine JsonMap.orInsert_eq_self.mpr ?_
  rw [JsonMap.containsKey, derivedObject_get h]
  rfl

theorem derivedObject_traceSorted
    (hwf : (Json.obj (derivedObject recordType captureId fields)).WellFormed) :
    OrdMap.Sorted trace := by
  have hget : (derivedObject recordType captureId fields).get "traceContext" =
      some (.obj trace) := by
    rw [derivedObject_own h (by decide), h.traceContext]
  have htrace : (Json.obj trace).WellFormed := hwf.lookup hget
  exact htrace.1

/-- The record of a derived capture can be read back, with the trace context that the
capture was given. -/
theorem derived_storedTrace {sha256 : Bytes → String} {record : CaptureRecord}
    (hwf : (Json.obj (derivedObject recordType captureId fields)).WellFormed)
    (hrecord : normalizeUnbounded sha256 (jsonBytes (derivedCapture recordType captureId fields))
      true = .ok record) :
    ∃ stored : JsonMap, parseBytes record.canonical = some (.obj stored) ∧
      stored.get "traceContext" = some (.obj trace) := by
  obtain ⟨envelope, bodies, hnormalized⟩ := normalizeUnbounded_spec hrecord
  have hwithin := readEnvelope_within hnormalized.read
  have hread := readEnvelope_ok_iff.mp hnormalized.read
  rw [derivedCapture_eq, parseBytes_jsonBytes hwf] at hread
  split_ifs at hread with hdepth
  obtain rfl := Json.obj.inj (Option.some.inj hread)
  have hsettled := hnormalized.stages.settled
  rw [derivedObject_recordType h] at hsettled
  have hcanonical := hnormalized.canonical
  rw [derivedObject_bodies h hsettled] at hcanonical
  have hstored : Json.Within 127 (.obj (storedForm (derivedObject recordType captureId fields))) :=
    finishEnvelope_within (promoteProtocolFields_within hwithin)
  refine ⟨storedForm (derivedObject recordType captureId fields), ?_, ?_⟩
  · rw [hcanonical, parseBytes_jsonBytes hstored.1,
      if_pos (lt_of_le_of_lt hstored.2 (by decide : 127 < Json.recursionLimit))]
  · have hcaptured : (sourcesOf (derivedObject recordType captureId fields)).captured = trace := by
      rw [sourcesOf_captured, derivedObject_trace h]
      rfl
    rw [storedForm_promoted (by simp), promoteProtocolFields_traceContext,
      (derivedObject_bare h).promoteTrace_trace_eq, hcaptured]
    rw [hcaptured]
    exact derivedObject_traceSorted h hwf

end Capture

section WellFormed

theorem itemsOf_wellFormed {value : Option Json} (h : ∀ v, value = some v → v.WellFormed) :
    ∀ item ∈ itemsOf value, item.WellFormed := by
  intro item hitem
  rw [itemsOf] at hitem
  cases value with
  | none => cases hitem
  | some value =>
      cases value with
      | arr items => exact Json.wellFormedItems_iff.mp (h _ rfl) item hitem
      | null => cases hitem
      | bool flag => cases hitem
      | num n => cases hitem
      | str text => cases hitem
      | obj fields => cases hitem

theorem get?_items_wellFormed {value : Json} {key : String} (h : value.WellFormed) :
    ∀ item ∈ itemsOf (value.get? key), item.WellFormed :=
  itemsOf_wellFormed fun _ hget => h.get? hget

/-- Reading an attribute value keeps it well formed. -/
theorem otlpAnyValueWithin_wellFormed (depth : Nat) {value : Json} (h : value.WellFormed) :
    (otlpAnyValueWithin depth value).WellFormed := by
  induction depth generalizing value with
  | zero => exact h
  | succ depth ih =>
      cases value with
      | null => exact h
      | bool flag => exact h
      | num n => exact h
      | str text => exact h
      | arr items => exact h
      | obj object =>
          have hget : ∀ {key : String} {field : Json}, JsonMap.get object key = some field →
              field.WellFormed := fun hfield => h.lookup hfield
          have hitems : ∀ key, ∀ items, (((JsonMap.get object key).bind
              (Json.get? · "values")).bind Json.asArray) = some items →
                ∀ item ∈ items, item.WellFormed := by
            intro key items hread item hitem
            obtain ⟨list, hlist, harray⟩ := Option.bind_eq_some_iff.mp hread
            obtain ⟨field, hfield, hvalues⟩ := Option.bind_eq_some_iff.mp hlist
            have hmem : item ∈ itemsOf (some list) := by
              rw [itemsOf, Option.bind_some, harray]
              exact hitem
            refine itemsOf_wellFormed (fun v hv => ?_) item hmem
            exact Option.some.inj hv ▸ (hget hfield).get? hvalues
          rw [otlpAnyValueWithin]
          split
          · exact hget ‹_›
          · split
            · exact hget ‹_›
            · split
              · split
                · trivial
                · exact hget ‹_›
              · split
                · rename_i field hfield
                  rcases Option.or_eq_some_iff.mp hfield with hdouble | ⟨_, hbytes⟩
                  · exact hget hdouble
                  · exact hget hbytes
                · split
                  · rename_i items hread
                    refine Json.wellFormedItems_iff.mpr fun item hitem => ?_
                    obtain ⟨inner, hinner, rfl⟩ := List.mem_map.mp hitem
                    exact ih (hitems _ _ hread inner hinner)
                  · split
                    · rename_i items hread
                      refine Json.mkObj_wellFormed fun field hfield => ?_
                      obtain ⟨inner, hinner, hentry⟩ := List.mem_filterMap.mp hfield
                      split at hentry
                      · rename_i key value _ hvalue
                        rw [← Option.some.inj hentry]
                        exact ih ((hitems _ _ hread inner hinner).get? hvalue)
                      · cases hentry
                    · exact h

/-- Attributes with well-formed values. -/
def AttributeMap.WellFormed (attributes : AttributeMap) : Prop :=
  ∀ key value, attributes.get? key = some value → value.WellFormed

theorem attributesMap_wellFormed {attributes : Option Json} {map : AttributeMap}
    (h : ∀ v, attributes = some v → v.WellFormed) (hmap : attributesMap attributes = .ok map) :
    map.WellFormed := by
  obtain ⟨_, _, hresult⟩ := Except.bind_eq_ok_iff.mp hmap
  rw [← Except.pure_eq_ok_iff.mp hresult]
  intro key value hget
  rw [Table.get?_insertAll, Table.get?_empty, Option.or_none] at hget
  obtain ⟨entry, hentry, hread⟩ := List.mem_filterMap.mp
    (List.mem_reverse.mp (OrdMap.mem_of_lookup hget))
  obtain ⟨name, _, hread⟩ := Option.bind_eq_some_iff.mp hread
  obtain ⟨raw, hraw, hvalue⟩ := Option.bind_eq_some_iff.mp hread
  obtain ⟨_, rfl⟩ := Prod.mk.inj (Option.some.inj hvalue)
  exact otlpAnyValueWithin_wellFormed _ ((itemsOf_wellFormed h entry hentry).get? hraw)

theorem AttributeMap.WellFormed.layered {outer inner : AttributeMap} (houter : outer.WellFormed)
    (hinner : inner.WellFormed) : AttributeMap.WellFormed (outer.insertAll inner.entries) := by
  intro key value hget
  rw [Table.get?_insertAll_entries, Option.or_eq_some_iff] at hget
  rcases hget with hin | ⟨_, hout⟩
  · exact hinner key value hin
  · exact houter key value hout

theorem optionalText_wellFormed (text : Option String) : (optionalText text).WellFormed := by
  cases text <;> trivial

theorem parseJsonStringOrClone_wellFormed {value : Json} (h : value.WellFormed) :
    (parseJsonStringOrClone value).WellFormed := by
  rw [parseJsonStringOrClone]
  cases hparse : value.asStr.bind parseText with
  | none => exact h
  | some parsed =>
      obtain ⟨text, _, hparsed⟩ := Option.bind_eq_some_iff.mp hparse
      exact Json.parse_wellFormed hparsed

theorem traceContext_wellFormed (record : Json) (attributes : AttributeMap) (sessionId : String) :
    (traceContext record attributes sessionId).WellFormed := by
  refine Json.mkObj_wellFormed fun field hfield => ?_
  have hmem := (List.mem_filter.mp hfield).1
  simp only [traceContextFields, List.mem_cons, List.not_mem_nil, or_false] at hmem
  rcases hmem with rfl | rfl | rfl | rfl | rfl | rfl | rfl | rfl | rfl | rfl
  · trivial
  · trivial
  · trivial
  all_goals exact optionalText_wellFormed _

end WellFormed

theorem normalizeUnbounded_of_value {platform : Platform} {limit : ByteLimit} {value : Json}
    {record : CaptureRecord} (h : platform.normalizeValue limit value = .ok record) :
    normalizeUnbounded platform.sha256 (jsonBytes value) true = .ok record := by
  have hwithin := normalizeValue_ok_iff.mp h
  cases limit with
  | none => exact hwithin
  | some maxBytes => exact (normalizeCapture_ok_iff.mp hwithin).1

section Kinds

variable (platform : Platform) {record : Json} {attributes : AttributeMap}

/-- A capture of a log record: its session, its parts and its record. -/
structure LogCapture (limit : ByteLimit) (record : Json) (attributes : AttributeMap)
    (capture : CaptureRecord) (sessionId recordType captureId : String) (fields : JsonMap) :
    Prop where
  session : attributeString attributes "conversation.id" = some sessionId
  parts : DerivedParts fields (traceObject record attributes sessionId)
  wellFormed : (derivedCapture recordType captureId fields).WellFormed
  stored : platform.normalizeValue limit (derivedCapture recordType captureId fields) = .ok capture

theorem derivedCapture_wellFormed {recordType captureId : String} {fields : JsonMap}
    (h : ∀ field ∈ fields, field.2.WellFormed) :
    (derivedCapture recordType captureId fields).WellFormed := by
  refine Json.mkObj_wellFormed fun field hfield => ?_
  rcases List.mem_append.mp hfield with hfixed | hown
  · simp only [List.mem_cons, List.not_mem_nil, or_false] at hfixed
    rcases hfixed with rfl | rfl | rfl | rfl <;> trivial
  · exact h field hown

variable {platform} {limit : ByteLimit} {rawSha256 : String} {ordinal : Nat}

/-- The keys of the parts, told apart by evaluation. -/
theorem derivedParts_of {fields trace : JsonMap} (hnodup : (fields.map Prod.fst).Nodup)
    (hkeys : (fields.map Prod.fst).all derivedKeys.contains = true)
    (htrace : OrdMap.lookup "traceContext" fields = some (.obj trace))
    (hcanonical : CanonicalTrace trace) : DerivedParts fields trace :=
  ⟨hnodup, fun key hkey => List.contains_iff_mem.mp (List.all_eq_true.mp hkeys key hkey), htrace,
    hcanonical⟩

theorem requiredAttribute_ok {key value : String}
    (h : requiredAttribute attributes key = .ok value) :
    attributeString attributes key = some value := by
  rw [requiredAttribute] at h
  split at h
  · rename_i hvalue
    rw [hvalue, Except.ok.inj h]
  · cases h

theorem deriveTelemetryIncomplete_capture {reason : String} {capture : CaptureRecord}
    (h : deriveTelemetryIncomplete platform record attributes rawSha256 ordinal reason limit =
      .ok (some capture)) :
    ∃ sessionId recordType captureId fields,
      LogCapture platform limit record attributes capture sessionId recordType captureId
        fields := by
  rw [deriveTelemetryIncomplete] at h
  split at h
  · cases h
  · rename_i sessionId hsession
    obtain ⟨stored, hstored, hcapture⟩ := Except.map_eq_ok_iff.mp h
    obtain rfl := Option.some.inj hcapture
    refine ⟨sessionId, _, _, _, ⟨hsession, derivedParts_of ?_ ?_ rfl
      (traceObject_canonical record attributes sessionId), ?_, hstored⟩⟩
    · simp
    · rfl
    · refine derivedCapture_wellFormed fun field hfield => ?_
      simp only [List.mem_cons, List.not_mem_nil, or_false] at hfield
      rcases hfield with rfl | rfl | rfl | rfl
      · exact optionalText_wellFormed _
      · exact traceContext_wellFormed _ _ _
      · exact ⟨trivial, trivial⟩
      · refine Json.mkObj_wellFormed fun part hpart => ?_
        simp only [List.mem_cons, List.not_mem_nil, or_false] at hpart
        rcases hpart with rfl | rfl | rfl | rfl | rfl | rfl
        · trivial
        · trivial
        · trivial
        · trivial
        · exact optionalText_wellFormed _
        · exact optionalText_wellFormed _

theorem conversationStart_capture {value : Json} {capture : CaptureRecord}
    (h : conversationStartCapture platform record attributes rawSha256 ordinal = .ok value)
    (hstored : platform.normalizeValue limit value = .ok capture) :
    ∃ sessionId recordType captureId fields,
      LogCapture platform limit record attributes capture sessionId recordType captureId
        fields := by
  obtain ⟨sessionId, hsession, hvalue⟩ := Except.bind_eq_ok_iff.mp h
  obtain rfl := Except.pure_eq_ok_iff.mp hvalue
  refine ⟨sessionId, _, _, _, ⟨requiredAttribute_ok hsession, derivedParts_of ?_ ?_ rfl
    (traceObject_canonical record attributes sessionId), ?_, hstored⟩⟩
  · simp
  · rfl
  · refine derivedCapture_wellFormed fun field hfield => ?_
    simp only [List.mem_cons, List.not_mem_nil, or_false] at hfield
    rcases hfield with rfl | rfl | rfl | rfl | rfl
    · exact optionalText_wellFormed _
    · exact optionalText_wellFormed _
    · exact traceContext_wellFormed _ _ _
    · exact ⟨trivial, trivial⟩
    · refine Json.mkObj_wellFormed fun part hpart => ?_
      simp only [List.mem_cons, List.not_mem_nil, or_false] at hpart
      rcases hpart with rfl | rfl | rfl | rfl | rfl
      · trivial
      · trivial
      · trivial
      · exact optionalText_wellFormed _
      · trivial

theorem processOutcome_wellFormed {runtimeNamespace : Option String} {runtimeTool : String}
    {output outcome : Json} (h : processOutcome runtimeNamespace runtimeTool output =
      some outcome) : outcome.WellFormed := by
  have hbuilt : ∀ scan : OutcomeScan, (∀ known, scan.outcome = some known → known.WellFormed) →
      ∀ line known, (scanOutcomeLine scan line).outcome = some known → known.WellFormed := by
    intro scan hscan line known hknown
    rw [scanOutcomeLine] at hknown
    split_ifs at hknown
    · exact hscan known hknown
    · exact hscan known hknown
    · exact hscan known hknown
    · split at hknown <;> exact hscan known hknown
    · split at hknown
      · exact hscan known hknown
      · rename_i found hfound
        rw [← Option.some.inj hknown]
        rcases Option.or_eq_some_iff.mp hfound with hexited | ⟨_, hrunning⟩
        · obtain ⟨code, _, rfl⟩ := Option.map_eq_some_iff.mp hexited
          exact Json.mkObj_wellFormed fun field hfield => by
            simp only [List.mem_cons, List.not_mem_nil, or_false] at hfield
            rcases hfield with rfl | rfl | rfl | rfl | rfl <;> trivial
        · obtain ⟨id, _, rfl⟩ := Option.map_eq_some_iff.mp hrunning
          exact Json.mkObj_wellFormed fun field hfield => by
            simp only [List.mem_cons, List.not_mem_nil, or_false] at hfield
            rcases hfield with rfl | rfl | rfl | rfl | rfl <;> trivial
  rw [processOutcome] at h
  split_ifs at h
  obtain ⟨text, _, hscanned⟩ := Option.bind_eq_some_iff.mp h
  have hrun : ∀ known, ((Text.lines text).foldl scanOutcomeLine ⟨false, false, none, false⟩).outcome
      = some known → known.WellFormed :=
    foldl_preserves scanOutcomeLine
      (fun scan => ∀ known, scan.outcome = some known → known.WellFormed) _
      (fun line _ scan hscan => hbuilt scan hscan line) _ (fun known hknown => by cases hknown)
  dsimp only at hscanned
  split_ifs at hscanned
  exact hrun outcome hscanned

theorem getD_null_wellFormed {value : Option Json} (h : ∀ v, value = some v → v.WellFormed) :
    (value.getD .null).WellFormed := by
  cases value with
  | none => trivial
  | some value => exact h value rfl

theorem toolResult_capture {value : Json} {capture : CaptureRecord}
    (hattributes : attributes.WellFormed)
    (h : toolResultCapture platform record attributes rawSha256 ordinal = .ok value)
    (hstored : platform.normalizeValue limit value = .ok capture) :
    ∃ sessionId recordType captureId fields,
      LogCapture platform limit record attributes capture sessionId recordType captureId
        fields := by
  obtain ⟨sessionId, hsession, h⟩ := Except.bind_eq_ok_iff.mp h
  obtain ⟨callId, _, h⟩ := Except.bind_eq_ok_iff.mp h
  obtain ⟨runtimeTool, _, h⟩ := Except.bind_eq_ok_iff.mp h
  cases harguments : attributes.get? "arguments" with
  | none =>
      rw [harguments] at h
      cases h
  | some arguments =>
  cases houtput : attributes.get? "output" with
  | none =>
      rw [harguments, houtput] at h
      cases h
  | some output =>
  cases hsuccess : attributeBool attributes "success" with
  | none =>
      rw [harguments, houtput, hsuccess] at h
      cases h
  | some success =>
  rw [harguments, houtput, hsuccess] at h
  have hargumentsWf := parseJsonStringOrClone_wellFormed (hattributes _ _ harguments)
  have houtputWf := hattributes _ _ houtput
  obtain rfl := Except.ok.inj h
  refine ⟨sessionId, _, _, _, ⟨requiredAttribute_ok hsession, derivedParts_of ?_ ?_ rfl
    (traceObject_canonical record attributes sessionId), ?_, hstored⟩⟩
  · simp
  · rfl
  · refine derivedCapture_wellFormed fun field hfield => ?_
    simp only [List.mem_cons, List.not_mem_nil, or_false] at hfield
    rcases hfield with rfl | rfl | rfl | rfl | rfl | rfl
    · exact optionalText_wellFormed _
    · exact optionalText_wellFormed _
    · exact optionalText_wellFormed _
    · exact optionalText_wellFormed _
    · exact traceContext_wellFormed _ _ _
    · refine Json.mkObj_wellFormed fun part hpart => ?_
      simp only [List.mem_cons, List.not_mem_nil, or_false] at hpart
      rcases hpart with rfl | rfl | rfl | rfl | rfl | rfl | rfl | rfl | rfl | rfl | rfl | rfl |
        rfl | rfl | rfl | rfl | rfl | rfl | rfl | rfl | rfl | rfl
      · trivial
      · exact optionalText_wellFormed _
      · trivial
      · trivial
      · exact optionalText_wellFormed _
      · trivial
      · trivial
      · trivial
      · trivial
      · exact hargumentsWf
      · exact houtputWf
      · cases success
        · exact houtputWf
        · trivial
      · exact getD_null_wellFormed fun _ houtcome => processOutcome_wellFormed houtcome
      · refine Json.mkObj_wellFormed fun reason hreason => ?_
        simp only [List.mem_cons, List.not_mem_nil, or_false] at hreason
        rcases hreason with rfl | rfl | rfl <;> trivial
      · exact optionalText_wellFormed _
      · exact optionalText_wellFormed _
      · trivial
      · trivial
      · refine getD_null_wellFormed fun v hv => ?_
        obtain ⟨flag, _, rfl⟩ := Option.map_eq_some_iff.mp hv
        trivial
      · exact getD_null_wellFormed fun v hv => hattributes _ v hv
      · exact getD_null_wellFormed fun v hv => hattributes _ v hv
      · trivial

/-- Every capture of a readable log record is one of these kinds. -/
theorem deriveReadableLog_capture {capture : CaptureRecord} (hattributes : attributes.WellFormed)
    (h : capture ∈ (deriveReadableLog platform record attributes rawSha256 ordinal
      limit).records) :
    ∃ sessionId recordType captureId fields,
      LogCapture platform limit record attributes capture sessionId recordType captureId
        fields := by
  rw [deriveReadableLog] at h
  dsimp only at h
  split at h
  · rename_i derived hderived
    obtain rfl := Option.mem_toList.mp h
    rw [deriveLogEvent] at hderived
    split_ifs at hderived
    · obtain ⟨value, hvalue, hmapped⟩ := Except.bind_eq_ok_iff.mp hderived
      obtain ⟨stored, hstored, hcapture⟩ := Except.map_eq_ok_iff.mp hmapped
      obtain rfl := Option.some.inj hcapture
      exact conversationStart_capture hvalue hstored
    · obtain ⟨value, hvalue, hmapped⟩ := Except.bind_eq_ok_iff.mp hderived
      obtain ⟨stored, hstored, hcapture⟩ := Except.map_eq_ok_iff.mp hmapped
      obtain rfl := Option.some.inj hcapture
      exact toolResult_capture hattributes hvalue hstored
    · cases hderived
    · exact deriveTelemetryIncomplete_capture hderived
  · split at h
    · rename_i incomplete hincomplete
      obtain rfl := List.mem_singleton.mp h
      exact deriveTelemetryIncomplete_capture hincomplete
    · cases h

end Kinds

end ChipTrace
