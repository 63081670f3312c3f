/-
The identity that a derived capture states against the identity that the offline
reader selects for the log record it was derived from.
-/
import ChipTrace.Ingest.Identity

namespace ChipTrace

section Origins

variable (platform : Platform)

/-- A capture that the derivation of an export made from one of its log records. -/
structure DerivedFrom (envelope : Json) (rawSha256 : String) (limit : ByteLimit)
    (resourceLog scopeLog record : Json) (capture : CaptureRecord) : Prop where
  resource : resourceLog ∈ itemsOf (envelope.get? "resourceLogs")
  scope : scopeLog ∈ itemsOf (resourceLog.get? "scopeLogs")
  entry : record ∈ itemsOf (scopeLog.get? "logRecords")
  derived : ∃ outer inner ordinal,
    messageAttributes (resourceLog.get? "resource") "resource" = .ok outer ∧
      messageAttributes (scopeLog.get? "scope") "scope" = .ok inner ∧
      capture ∈ (deriveLogRecord platform resourceLog scopeLog record outer inner rawSha256
        ordinal limit).records

variable {platform} {envelope : Json} {rawSha256 : String} {limit : ByteLimit}

theorem mem_readAttributes {batch : DerivedBatch} {path : String}
    {attributes : Except String AttributeMap} {capture : CaptureRecord}
    (h : capture ∈ (batch.readAttributes path attributes).1.records) :
    capture ∈ batch.records := by
  cases attributes <;> exact h

theorem readAttributes_ok {batch : DerivedBatch} {path : String}
    {attributes : Except String AttributeMap} {map : AttributeMap}
    (h : (batch.readAttributes path attributes).2 = some map) : attributes = .ok map := by
  cases attributes with
  | error error => cases h
  | ok attributes => rw [Option.some.inj h]

/-- One log record adds the captures that are derived from it. -/
theorem mem_deriveLog {resourceLog scopeLog record : Json} {outer inner : Option AttributeMap}
    {batch : DerivedBatch} {capture : CaptureRecord}
    (h : capture ∈ (deriveLog platform resourceLog scopeLog outer inner rawSha256 limit batch
      record).records) :
    capture ∈ batch.records ∨ ∃ outerMap innerMap, outer = some outerMap ∧ inner = some innerMap ∧
      capture ∈ (deriveLogRecord platform resourceLog scopeLog record outerMap innerMap rawSha256
        batch.sourceRecords limit).records := by
  rw [deriveLog.eq_def] at h
  cases outer with
  | none => exact Or.inl h
  | some outerMap =>
      cases inner with
      | none => exact Or.inl h
      | some innerMap =>
          exact (List.mem_append.mp h).imp id fun hnew => ⟨outerMap, innerMap, rfl, rfl, hnew⟩

/-- Every capture of an export comes from one of its log records. -/
theorem deriveOtlpLogs_origin {capture : CaptureRecord}
    (h : capture ∈ (deriveOtlpLogs platform envelope rawSha256 limit).records) :
    ∃ resourceLog scopeLog record,
      DerivedFrom platform envelope rawSha256 limit resourceLog scopeLog record capture := by
  let invariant (batch : DerivedBatch) : Prop := ∀ capture ∈ batch.records,
    ∃ resourceLog scopeLog record,
      DerivedFrom platform envelope rawSha256 limit resourceLog scopeLog record capture
  suffices hinvariant : invariant (deriveOtlpLogs platform envelope rawSha256 limit) by
    exact hinvariant capture h
  refine foldl_preserves _ invariant _ ?_ _ ?_
  · rintro ⟨resourceLog, index⟩ hresource batch hbatch
    have hresource : resourceLog ∈ _ := List.fst_mem_of_mem_zipIdx hresource
    refine foldl_preserves _ invariant _ ?_ _ ?_
    · rintro ⟨scopeLog, index⟩ hscope batch hbatch
      have hscope : scopeLog ∈ _ := List.fst_mem_of_mem_zipIdx hscope
      refine foldl_preserves _ invariant _ ?_ _ ?_
      · intro record hrecord batch hbatch capture hcapture
        rcases mem_deriveLog hcapture with hold | ⟨outer, inner, houter, hinner, hnew⟩
        · exact hbatch capture hold
        · exact ⟨resourceLog, scopeLog, record, hresource, hscope, hrecord, outer, inner, _,
            readAttributes_ok houter, readAttributes_ok hinner, hnew⟩
      · exact fun capture hcapture => hbatch capture (mem_readAttributes hcapture)
    · exact fun capture hcapture => hbatch capture (mem_readAttributes hcapture)
  · intro capture hcapture
    split at hcapture <;> cases hcapture

end Origins

section Visits

def visitLog (layered : Table String String) (visited : List (Json × Table String String))
    (record : Json) : Except String (List (Json × Table String String)) := do
  let merged ← recordTexts "otlp_logs" layered record
  .ok (visited ++ [(record, merged)])

def visitScopeLog (outer : Table String String) (visited : List (Json × Table String String))
    (scopeLog : Json) : Except String (List (Json × Table String String)) := do
  let layered ← scopeTexts "otlp_logs" outer scopeLog
  (itemsOf (scopeLog.get? "logRecords")).foldlM (visitLog layered) visited

def visitResourceLog (visited : List (Json × Table String String)) (resourceLog : Json) :
    Except String (List (Json × Table String String)) := do
  let outer ← resourceTexts "otlp_logs" resourceLog
  (itemsOf (resourceLog.get? "scopeLogs")).foldlM (visitScopeLog outer) visited

/-- The log records of an export under the attributes with which each is visited. -/
def visitedLogs (envelope : Json) : Except String (List (Json × Table String String)) :=
  visitOtlpEnvelope "otlp_logs" envelope
    (fun visited record merged => .ok (visited ++ [(record, merged)])) []

theorem visitedLogs_eq (envelope : Json) :
    visitedLogs envelope = (validateOtlpStructure "otlp_logs" envelope >>= fun _ =>
      (itemsOf (envelope.get? "resourceLogs")).foldlM visitResourceLog []) := rfl

variable {envelope : Json} {visited : List (Json × Table String String)}
  {outer layered : Table String String} {state next : List (Json × Table String String)}
  {visit : Json × Table String String} {resourceLog scopeLog record : Json}

theorem visitLog_keeps (hvisit : visit ∈ state) (h : visitLog layered state record = .ok next) :
    visit ∈ next := by
  obtain ⟨merged, _, hnext⟩ := Except.bind_eq_ok_iff.mp h
  rw [← Except.ok.inj hnext]
  exact List.mem_append_left _ hvisit

theorem visitScopeLog_keeps (hvisit : visit ∈ state)
    (h : visitScopeLog outer state scopeLog = .ok next) : visit ∈ next := by
  obtain ⟨layered, _, hloop⟩ := Except.bind_eq_ok_iff.mp h
  exact foldlM_ok_preserves (visit ∈ ·) _ (fun record _ state next hvisit hstep =>
    visitLog_keeps hvisit hstep) state hvisit hloop

theorem visitResourceLog_keeps (hvisit : visit ∈ state)
    (h : visitResourceLog state resourceLog = .ok next) : visit ∈ next := by
  obtain ⟨outer, _, hloop⟩ := Except.bind_eq_ok_iff.mp h
  exact foldlM_ok_preserves (visit ∈ ·) _ (fun scopeLog _ state next hvisit hstep =>
    visitScopeLog_keeps hvisit hstep) state hvisit hloop

/-- Each record of an export that is read through is visited, under the attributes of
its own layers. -/
theorem visitedLogs_complete (h : visitedLogs envelope = .ok visited)
    (hresource : resourceLog ∈ itemsOf (envelope.get? "resourceLogs"))
    (hscope : scopeLog ∈ itemsOf (resourceLog.get? "scopeLogs"))
    (hrecord : record ∈ itemsOf (scopeLog.get? "logRecords")) :
    ∃ merged, offlineTexts resourceLog scopeLog record = .ok merged ∧
      (record, merged) ∈ visited := by
  let reached (state : List (Json × Table String String)) : Prop :=
    ∃ merged, offlineTexts resourceLog scopeLog record = .ok merged ∧ (record, merged) ∈ state
  rw [visitedLogs_eq] at h
  obtain ⟨_, _, hloop⟩ := Except.bind_eq_ok_iff.mp h
  refine foldlM_ok_reaches reached hresource ?_ ?_ hloop
  · intro state next hstep
    obtain ⟨outer, houter, hscopes⟩ := Except.bind_eq_ok_iff.mp hstep
    refine foldlM_ok_reaches reached hscope ?_ ?_ hscopes
    · intro state next hstep
      obtain ⟨layered, hlayered, hrecords⟩ := Except.bind_eq_ok_iff.mp hstep
      refine foldlM_ok_reaches reached hrecord ?_ ?_ hrecords
      · intro state next hstep
        obtain ⟨merged, hmerged, hnext⟩ := Except.bind_eq_ok_iff.mp hstep
        refine ⟨merged, ?_, ?_⟩
        · rw [offlineTexts, houter, Except.ok_bind, hlayered, Except.ok_bind, hmerged]
        · rw [← Except.ok.inj hnext]
          exact List.mem_append_right _ (List.mem_singleton.mpr rfl)
      · rintro other _ state next ⟨merged, hmerged, hvisit⟩ hstep
        exact ⟨merged, hmerged, visitLog_keeps hvisit hstep⟩
    · rintro other _ state next ⟨merged, hmerged, hvisit⟩ hstep
      exact ⟨merged, hmerged, visitScopeLog_keeps hvisit hstep⟩
  · rintro other _ state next ⟨merged, hmerged, hvisit⟩ hstep
    exact ⟨merged, hmerged, visitResourceLog_keeps hvisit hstep⟩

/-- Nothing else is visited. -/
theorem visitedLogs_sound (h : visitedLogs envelope = .ok visited) :
    ∀ visit ∈ visited, ∃ resourceLog ∈ itemsOf (envelope.get? "resourceLogs"),
      ∃ scopeLog ∈ itemsOf (resourceLog.get? "scopeLogs"),
        visit.1 ∈ itemsOf (scopeLog.get? "logRecords") ∧
          offlineTexts resourceLog scopeLog visit.1 = .ok visit.2 := by
  let invariant (state : List (Json × Table String String)) : Prop :=
    ∀ visit ∈ state, ∃ resourceLog ∈ itemsOf (envelope.get? "resourceLogs"),
      ∃ scopeLog ∈ itemsOf (resourceLog.get? "scopeLogs"),
        visit.1 ∈ itemsOf (scopeLog.get? "logRecords") ∧
          offlineTexts resourceLog scopeLog visit.1 = .ok visit.2
  rw [visitedLogs_eq] at h
  obtain ⟨_, _, hloop⟩ := Except.bind_eq_ok_iff.mp h
  refine foldlM_ok_preserves invariant _ ?_ [] (fun visit hvisit => by cases hvisit) hloop
  intro resourceLog hresource state next hstate hstep
  obtain ⟨outer, houter, hscopes⟩ := Except.bind_eq_ok_iff.mp hstep
  refine foldlM_ok_preserves invariant _ ?_ state hstate hscopes
  intro scopeLog hscope state next hstate hstep
  obtain ⟨layered, hlayered, hrecords⟩ := Except.bind_eq_ok_iff.mp hstep
  refine foldlM_ok_preserves invariant _ ?_ state hstate hrecords
  intro record hrecord state next hstate hstep visit hvisit
  obtain ⟨merged, hmerged, hnext⟩ := Except.bind_eq_ok_iff.mp hstep
  rw [← Except.ok.inj hnext] at hvisit
  rcases List.mem_append.mp hvisit with hold | hnew
  · exact hstate visit hold
  · rw [List.mem_singleton.mp hnew]
    refine ⟨resourceLog, hresource, scopeLog, hscope, hrecord, ?_⟩
    rw [offlineTexts, houter, Except.ok_bind, hlayered, Except.ok_bind, hmerged]

end Visits

section Agreement

/-- A text of the trace context that a derived capture was stored with. -/
def writtenIdentity (capture : CaptureRecord) (field : String) : Option String :=
  (((parseBytes capture.canonical).bind (Json.get? · "traceContext")).bind
    (Json.get? · field)).bind Json.asStr

/-- The session, turn and root turn of a capture are those that the offline reader
selects for its log record. -/
def IdentityAgrees (resourceLog scopeLog record : Json) (capture : CaptureRecord) : Prop :=
  ∃ merged, offlineTexts resourceLog scopeLog record = .ok merged ∧
    sessionAttribute merged = .ok (writtenIdentity capture "session_id") ∧
    turnAttribute merged =
      .ok ((writtenIdentity capture "turn_id").or (writtenIdentity capture "root_turn_id")) ∧
    uniqueAttribute merged turnAttributes = .ok (writtenIdentity capture "turn_id") ∧
    uniqueAttribute merged rootTurnAttributes = .ok (writtenIdentity capture "root_turn_id")

/-- The conversation that is stated as a string is stated as a text by some session
alias, or is the native thread. -/
def SessionStated (layers : List (Option Json)) : Prop :=
  ∀ session, plainText layers "conversation.id" = some session →
    (∃ key ∈ sessionAttributes, typedText layers key = some session) ∨
      (lastText layers "thread_id").filter isNativeThread = some session

/-- What the first alias with a string states is stated as a text by some alias, and
without a string no alias has a text. -/
def TurnStated (layers : List (Option Json)) (aliases : List String) : Prop :=
  (∀ turn, aliases.findSome? (plainText layers) = some turn →
    ∃ key ∈ aliases, typedText layers key = some turn) ∧
  (aliases.findSome? (plainText layers) = none → ∀ key ∈ aliases, typedText layers key = none)

variable {attributes : AttributeMap} {layers : List (Option Json)}

theorem attributeString_eq (h : ∀ key, attributes.get? key = lastValue layers key) (key : String) :
    attributeString attributes key = plainText layers key := by
  rw [attributeString, plainText, h]

theorem firstAttributeString_eq (h : ∀ key, attributes.get? key = lastValue layers key)
    (keys : List String) :
    firstAttributeString attributes keys = keys.findSome? (plainText layers) := by
  rw [firstAttributeString, funext (attributeString_eq h)]

variable {merged : Table String String}

/-- The turn of some aliases is the one that was written exactly when it is stated. -/
theorem uniqueAttribute_written_iff {keys : List String} {selected : Option String}
    (hmerged : ∀ key, merged.get? key = lastText layers key)
    (hselected : uniqueAttribute merged keys = .ok selected) :
    selected = keys.findSome? (plainText layers) ↔ TurnStated layers keys := by
  have hstated : ∀ text, selected = some text ↔
      ∃ key ∈ keys, typedText layers key = some text := by
    intro text
    rw [uniqueAttribute_ok hselected]
    simp only [hmerged, typedText]
  cases hplain : keys.findSome? (plainText layers) with
  | none =>
      rw [TurnStated, hplain]
      constructor
      · rintro rfl
        refine ⟨fun turn hturn => (Option.some_ne_none turn hturn.symm).elim,
          fun _ key hkey => ?_⟩
        refine Option.eq_none_iff_forall_ne_some.mpr fun text htext => ?_
        exact absurd ((hstated text).mpr ⟨key, hkey, htext⟩) (by simp)
      · rintro ⟨_, hnone⟩
        refine Option.eq_none_iff_forall_ne_some.mpr fun text htext => ?_
        obtain ⟨key, hkey, htyped⟩ := (hstated text).mp htext
        rw [hnone rfl key hkey] at htyped
        cases htyped
  | some turn =>
      rw [TurnStated, hplain, hstated]
      constructor
      · refine fun h => ⟨fun _ hturn => Option.some.inj hturn ▸ h, fun hnone => ?_⟩
        exact (Option.some_ne_none turn hnone).elim
      · exact fun h => h.1 turn rfl

variable {platform : Platform} {record : Json} {capture : CaptureRecord} {limit : ByteLimit}

/-- What a derived capture states, in terms of the layers of its log record. -/
theorem writtenIdentity_derived (hvalues : ∀ key, attributes.get? key = lastValue layers key)
    {sessionId recordType captureId : String} {fields : JsonMap}
    (h : LogCapture platform limit record attributes capture sessionId recordType captureId
      fields) :
    writtenIdentity capture "session_id" = plainText layers "conversation.id" ∧
      (∃ session, plainText layers "conversation.id" = some session) ∧
      writtenIdentity capture "turn_id" = turnAttributes.findSome? (plainText layers) ∧
      writtenIdentity capture "root_turn_id" = rootTurnAttributes.findSome? (plainText layers) := by
  obtain ⟨stored, hparsed, htrace⟩ :=
    derived_storedTrace h.parts h.wellFormed (normalizeUnbounded_of_value h.stored)
  have hwritten : ∀ field, writtenIdentity capture field =
      ((OrdMap.lookup field (traceContextFields record attributes sessionId)).filter
        fun value => !value.isNull).bind Json.asStr := by
    intro field
    rw [← traceObject_get, writtenIdentity, hparsed, Option.bind_some]
    change ((stored.get "traceContext").bind (Json.get? · field)).bind Json.asStr = _
    rw [htrace]
    rfl
  have htext : ∀ text : Option String,
      ((some (optionalText text)).filter fun value => !value.isNull).bind Json.asStr = text := by
    intro text
    cases text <;> rfl
  have hsession := h.session
  rw [attributeString_eq hvalues] at hsession
  refine ⟨?_, ⟨sessionId, hsession⟩, ?_, ?_⟩
  · rw [hwritten, hsession]
    rfl
  · rw [hwritten, ← firstAttributeString_eq hvalues]
    exact htext _
  · rw [hwritten, ← firstAttributeString_eq hvalues]
    exact htext _

theorem deriveLogRecord_readable {resourceLog scopeLog : Json} {outer inner : AttributeMap}
    {rawSha256 : String} {ordinal : Nat}
    (h : capture ∈ (deriveLogRecord platform resourceLog scopeLog record outer inner rawSha256
      ordinal limit).records) :
    ∃ own, attributesMap (record.get? "attributes") = .ok own ∧
      validateOtlpIdentityLayers (recordLayers resourceLog scopeLog record) = .ok () ∧
      capture ∈ (deriveReadableLog platform record
        ((outer.insertAll inner.entries).insertAll own.entries) rawSha256 ordinal limit).records := by
  rw [deriveLogRecord] at h
  split at h
  · cases h
  · rename_i own hown
    split at h
    · cases h
    · rename_i hlayers
      exact ⟨own, hown, hlayers, h⟩

/-- The metadata messages of a log record are objects or missing. -/
def ReadableMessages (resourceLog scopeLog : Json) : Prop :=
  ∃ outer inner, otlpMessageAttributes (resourceLog.get? "resource") "resource" = .ok outer ∧
    otlpMessageAttributes (scopeLog.get? "scope") "scope" = .ok inner

theorem DerivedFrom.wellFormed {envelope resourceLog scopeLog : Json} {rawSha256 : String}
    (h : DerivedFrom platform envelope rawSha256 limit resourceLog scopeLog record capture)
    (henvelope : envelope.WellFormed) :
    resourceLog.WellFormed ∧ scopeLog.WellFormed ∧ record.WellFormed := by
  have hresource := get?_items_wellFormed henvelope _ h.resource
  have hscope := get?_items_wellFormed hresource _ h.scope
  exact ⟨hresource, hscope, get?_items_wellFormed hscope _ h.entry⟩

theorem messageAttributes_wellFormed {value : Json} {field : String} {map : AttributeMap}
    (hvalue : value.WellFormed)
    (h : messageAttributes (value.get? field) field = .ok map) : map.WellFormed := by
  obtain ⟨attributes, hmessage, hmap⟩ := Except.bind_eq_ok_iff.mp h
  refine attributesMap_wellFormed (fun v hv => ?_) hmap
  rw [otlpMessageAttributes_ok hmessage] at hv
  obtain ⟨message, hfield, hattributes⟩ := Option.bind_eq_some_iff.mp hv
  exact (hvalue.get? hfield).get? hattributes

/-- The identity of a derived capture is the offline one exactly when the session and
both turns are stated alike to both readers. -/
theorem identityAgrees_iff {envelope resourceLog scopeLog : Json} {rawSha256 : String}
    (henvelope : envelope.WellFormed)
    (h : DerivedFrom platform envelope rawSha256 limit resourceLog scopeLog record capture) :
    IdentityAgrees resourceLog scopeLog record capture ↔
      SessionStated (recordLayers resourceLog scopeLog record) ∧
        TurnStated (recordLayers resourceLog scopeLog record) turnAttributes ∧
        TurnStated (recordLayers resourceLog scopeLog record) rootTurnAttributes := by
  obtain ⟨outer, inner, ordinal, houter, hinner, hcapture⟩ := h.derived
  obtain ⟨own, hown, hlayers, hcapture⟩ := deriveLogRecord_readable hcapture
  obtain ⟨hresource, hscope, hrecord⟩ := h.wellFormed henvelope
  have hwf : AttributeMap.WellFormed ((outer.insertAll inner.entries).insertAll own.entries) :=
    ((messageAttributes_wellFormed hresource houter).layered
      (messageAttributes_wellFormed hscope hinner)).layered
      (attributesMap_wellFormed (fun v hv => hrecord.get? hv) hown)
  obtain ⟨sessionId, recordType, captureId, fields, hlog⟩ :=
    deriveReadableLog_capture hwf hcapture
  obtain ⟨hsession, ⟨session, hplain⟩, hturn, hroot⟩ :=
    writtenIdentity_derived (mergedAttributes_get? houter hinner hown) hlog
  obtain ⟨outerAttributes, houterMessage, _⟩ := Except.bind_eq_ok_iff.mp houter
  obtain ⟨innerAttributes, hinnerMessage, _⟩ := Except.bind_eq_ok_iff.mp hinner
  obtain ⟨merged, selected, turn, hmerged, hselected, hturnSelected⟩ :=
    (validateOtlpIdentityLayers_iff houterMessage hinnerMessage).mp hlayers
  obtain ⟨native, hnative, hrest⟩ := Except.bind_eq_ok_iff.mp hturnSelected
  obtain ⟨root, hrootSelected, hpure⟩ := Except.bind_eq_ok_iff.mp hrest
  have htexts := offlineTexts_get? hmerged
  have hsessionStated : selected = some session ↔
      SessionStated (recordLayers resourceLog scopeLog record) := by
    rw [sessionAttribute_ok hselected, SessionStated, hplain]
    simp only [htexts, typedText, Option.some.injEq, forall_eq']
  rw [IdentityAgrees, hsession, hturn, hroot, hplain, ← hsessionStated,
    ← uniqueAttribute_written_iff htexts hnative, ← uniqueAttribute_written_iff htexts hrootSelected]
  constructor
  · rintro ⟨other, hother, hs, _, ht, hr⟩
    obtain rfl := Except.ok.inj (hmerged.symm.trans hother)
    exact ⟨Except.ok.inj (hselected.symm.trans hs), Except.ok.inj (hnative.symm.trans ht),
      Except.ok.inj (hrootSelected.symm.trans hr)⟩
  · rintro ⟨hs, ht, hr⟩
    refine ⟨merged, hmerged, ?_, ?_, ?_, ?_⟩
    · rw [hselected, hs]
    · rw [hturnSelected, ← Except.pure_eq_ok_iff.mp hpure, ht, hr]
    · rw [hnative, ht]
    · rw [hrootSelected, hr]

end Agreement

section Starts

/-- A conversation start whose turn is an attribute value of any type. -/
def startRecord (turn : Json) : Json :=
  .obj [("attributes", .arr [
    .obj [("key", .str "event.name"),
      ("value", .obj [("stringValue", .str "codex.conversation_starts")])],
    .obj [("key", .str "conversation.id"), ("value", .obj [("stringValue", .str "s")])],
    .obj [("key", .str "turn.id"), ("value", turn)]])]

def startScope (turn : Json) : Json := .obj [("logRecords", .arr [startRecord turn])]

def startResource (turn : Json) : Json := .obj [("scopeLogs", .arr [startScope turn])]

def startEnvelope (turn : Json) : Json := .obj [("resourceLogs", .arr [startResource turn])]

/-- The digests of the texts that are hashed for the two exports, told apart by their
lengths and the export's own digest. -/
def startDigest (bytes : Bytes) : String :=
  match bytes.length, (List.drop 8 bytes).head? with
  | 102, some 54 => "0a2e518df58b02a5e4ebca0827cc1af7f60381f1159f242b6fed05a550152a53"
  | 102, _ => "5c7c63930772b32ecfdf623bbde33ab50f57c56b1cbd5435c0501bf44d1c4e96"
  | 554, _ => "e47b369ae5f415fe75afd095473567070579723bba2915cca97a72edb1239620"
  | 568, _ => "5622417516341dcf8c305d0ce8a9b1fedc5f30efb57c6cd3af6ae8bbfa10fe63"
  | 1296, _ => "d5786f6ac822e2e83e9f7d325ad8de4d681f44c4ee757cfc6f93590a087faed8"
  | _, _ => "9ab0e04741785fefb2d516ede932d5ce0f2a3befbfc7cbf118885e4b286051a6"

def startPlatform : Platform where
  sha256 := startDigest
  quoted := fun text => "\"" ++ text ++ "\""
  jsonFault := fun _ => ⟨"expected value", 1, 1⟩
  utf8Error := fun _ => "invalid utf-8 sequence of 1 bytes from index 0"
  formatUnixNanos := fun _ => none
  subtractMillis := fun _ _ => none

def intTurn : Json := .obj [("intValue", .num 5)]

def stringTurn : Json := .obj [("stringValue", .str "t")]

def intTurnSha256 : String := "6d561a1d2a500dfa1ffc44b1f67201db58994910102e1ef8443a5ceb43029ae3"

def stringTurnSha256 : String := "e3cfe109ae8cf3643309b51d8f3500875368c494fe52aab53cca7f250aff5cab"

/-- The attributes of a start, as its capture is derived from them. -/
def startAttributes (turn : Json) : AttributeMap :=
  (Table.empty.insertAll (Table.empty : AttributeMap).entries).insertAll
    ((Table.empty : AttributeMap).insertAll
      (attributeValues ((startRecord turn).get? "attributes"))).entries

/-- A start whose attributes are valid and whose capture is accepted is derived. -/
theorem startRecord_derives {turn : Json} {rawSha256 : String} {capture : CaptureRecord}
    {value : Json}
    (hattributes : validateOtlpAttributes ((startRecord turn).get? "attributes") = .ok ())
    (hlayers : validateOtlpIdentityLayers
      (recordLayers (startResource turn) (startScope turn) (startRecord turn)) = .ok ())
    (hvalue : conversationStartCapture startPlatform (startRecord turn) (startAttributes turn)
      rawSha256 0 = .ok value)
    (hcapture : startPlatform.normalizeValue none value = .ok capture) :
    capture ∈ (deriveOtlpLogs startPlatform (startEnvelope turn) rawSha256 none).records ∧
      DerivedFrom startPlatform (startEnvelope turn) rawSha256 none (startResource turn)
        (startScope turn) (startRecord turn) capture := by
  have houter : messageAttributes ((startResource turn).get? "resource") "resource" =
      .ok Table.empty := rfl
  have hinner : messageAttributes ((startScope turn).get? "scope") "scope" = .ok Table.empty := rfl
  have hown : attributesMap ((startRecord turn).get? "attributes") =
      .ok (Table.empty.insertAll (attributeValues ((startRecord turn).get? "attributes"))) := by
    rw [attributesMap, hattributes]
    rfl
  have hevent : attributeString (startAttributes turn) "event.name" =
      some "codex.conversation_starts" := by
    refine (attributeString_eq (mergedAttributes_get? houter hinner hown) _).trans ?_
    rfl
  have hrecord : capture ∈ (deriveLogRecord startPlatform (startResource turn) (startScope turn)
      (startRecord turn) Table.empty Table.empty rawSha256 0 none).records := by
    have hderived : deriveLogEvent startPlatform (startRecord turn) (startAttributes turn) rawSha256
        0 "codex.conversation_starts" none = .ok (some capture) := by
      rw [deriveLogEvent, if_pos (by rfl), hvalue, Except.ok_bind, hcapture]
      rfl
    rw [deriveLogRecord, hown]
    dsimp only
    rw [recordLayers] at hlayers
    rw [hlayers]
    dsimp only
    rw [deriveReadableLog]
    dsimp only [startAttributes] at hevent hderived ⊢
    rw [hevent, Option.getD_some, hderived]
    exact List.mem_singleton.mpr rfl
  refine ⟨hrecord, ?_, ?_, ?_, Table.empty, Table.empty, 0, houter, hinner, hrecord⟩
  · exact List.mem_singleton.mpr rfl
  · exact List.mem_singleton.mpr rfl
  · exact List.mem_singleton.mpr rfl

/-- The capture of a start, as it is sent to be normalised. -/
def startObject (turn : Json) (captureId eventId : String) : JsonMap :=
  derivedObject "lifecycle_event" captureId
    [("requestedModelAlias", .null), ("receivedAt", .null),
      ("traceContext", traceContext (startRecord turn) (startAttributes turn) "s"),
      ("observedLifecycleEvents", .arr [.str "session_start"]),
      ("lifecycleEvent", Json.mkObj
        [("event_id", .str eventId), ("type", .str "session_start"),
          ("status", .str "started"), ("occurred_at", .null),
          ("source_event_name", .str "codex.conversation_starts")])]

/-- An object that passes the checks becomes a capture. -/
theorem normalizeValue_of_isOk {platform : Platform} {object : JsonMap}
    (hwf : (Json.obj object).WellFormed)
    (hdepth : (Json.obj object).depth < Json.recursionLimit)
    (hok : (normalizeEnvelope platform.sha256 true object).isOk = true) :
    ∃ capture, platform.normalizeValue none (.obj object) = .ok capture := by
  cases hstored : normalizeEnvelope platform.sha256 true object with
  | error error =>
      rw [hstored] at hok
      cases hok
  | ok stored =>
      obtain ⟨capture, hcapture, _⟩ :=
        normalizeUnbounded_of_stages (readEnvelope_jsonBytes hwf hdepth) hstored
      exact ⟨capture, normalizeValue_ok_iff.mpr hcapture⟩

theorem startObject_wellFormed (turn : Json) (captureId eventId : String) :
    (Json.obj (startObject turn captureId eventId)).WellFormed := by
  rw [startObject, ← derivedCapture_eq]
  refine derivedCapture_wellFormed fun field hfield => ?_
  simp only [List.mem_cons, List.not_mem_nil, or_false] at hfield
  rcases hfield with rfl | rfl | rfl | rfl | rfl
  · trivial
  · trivial
  · exact traceContext_wellFormed _ _ _
  · exact ⟨trivial, trivial⟩
  · refine Json.mkObj_wellFormed fun part hpart => ?_
    simp only [List.mem_cons, List.not_mem_nil, or_false] at hpart
    rcases hpart with rfl | rfl | rfl | rfl | rfl <;> trivial

/-- What evaluation finds out about an export of one start. -/
structure StartEvaluates (turn : Json) (rawSha256 captureId eventId : String) : Prop where
  parsed : Json.parse (Json.print (startEnvelope turn)) = some (startEnvelope turn)
  attributes : validateOtlpAttributes ((startRecord turn).get? "attributes") = .ok ()
  layers : validateOtlpIdentityLayers
    (recordLayers (startResource turn) (startScope turn) (startRecord turn)) = .ok ()
  value : (conversationStartCapture startPlatform (startRecord turn) (startAttributes turn)
    rawSha256 0).toOption = some (.obj (startObject turn captureId eventId))
  depth : (Json.obj (startObject turn captureId eventId)).depth < Json.recursionLimit
  accepted : (normalizeEnvelope startPlatform.sha256 true
    (startObject turn captureId eventId)).isOk = true

/-- All of it, as one proposition that can be decided. -/
theorem startEvaluates_iff {turn : Json} {rawSha256 captureId eventId : String} :
    StartEvaluates turn rawSha256 captureId eventId ↔
      Json.parse (Json.print (startEnvelope turn)) = some (startEnvelope turn) ∧
      validateOtlpAttributes ((startRecord turn).get? "attributes") = .ok () ∧
      validateOtlpIdentityLayers
        (recordLayers (startResource turn) (startScope turn) (startRecord turn)) = .ok () ∧
      (conversationStartCapture startPlatform (startRecord turn) (startAttributes turn)
        rawSha256 0).toOption = some (.obj (startObject turn captureId eventId)) ∧
      (Json.obj (startObject turn captureId eventId)).depth < Json.recursionLimit ∧
      (normalizeEnvelope startPlatform.sha256 true
        (startObject turn captureId eventId)).isOk = true :=
  ⟨fun h => ⟨h.parsed, h.attributes, h.layers, h.value, h.depth, h.accepted⟩,
    fun ⟨hparsed, hattributes, hlayers, hvalue, hdepth, haccepted⟩ =>
      ⟨hparsed, hattributes, hlayers, hvalue, hdepth, haccepted⟩⟩

instance (turn : Json) (rawSha256 captureId eventId : String) :
    Decidable (StartEvaluates turn rawSha256 captureId eventId) :=
  decidable_of_iff' _ startEvaluates_iff

/-- A start whose object passes the checks is derived as a capture. -/
theorem startRecord_derived {turn : Json} {rawSha256 captureId eventId : String}
    (h : StartEvaluates turn rawSha256 captureId eventId) :
    ∃ capture ∈ (deriveOtlpLogs startPlatform (startEnvelope turn) rawSha256 none).records,
      DerivedFrom startPlatform (startEnvelope turn) rawSha256 none (startResource turn)
        (startScope turn) (startRecord turn) capture := by
  obtain ⟨capture, hcapture⟩ := normalizeValue_of_isOk
    (startObject_wellFormed turn captureId eventId) h.depth h.accepted
  have hvalue := h.value
  cases hstart : conversationStartCapture startPlatform (startRecord turn) (startAttributes turn)
      rawSha256 0 with
  | error error =>
      rw [hstart] at hvalue
      cases hvalue
  | ok value =>
      rw [hstart] at hvalue
      obtain rfl := Option.some.inj hvalue
      exact ⟨capture, startRecord_derives h.attributes h.layers hstart hcapture⟩

theorem turns_evaluate :
    StartEvaluates intTurn intTurnSha256
        "cap-cloud-0a2e518df58b02a5e4ebca0827cc1af7f60381f1159f242b6fed05a550152a53"
        "otel-0a2e518df58b02a5e4ebca0827cc1af7f60381f1159f242b6fed05a550152a53" ∧
      StartEvaluates stringTurn stringTurnSha256
        "cap-cloud-5c7c63930772b32ecfdf623bbde33ab50f57c56b1cbd5435c0501bf44d1c4e96"
        "otel-5c7c63930772b32ecfdf623bbde33ab50f57c56b1cbd5435c0501bf44d1c4e96" ∧
      typedText (recordLayers (startResource intTurn) (startScope intTurn)
        (startRecord intTurn)) "turn.id" ≠ none := by
  -- one evaluation, so that every text is decoded once
  decide +kernel

end Starts

end ChipTrace
