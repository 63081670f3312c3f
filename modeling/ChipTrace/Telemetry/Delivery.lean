/-
The bodies in which an OTLP export is delivered: records are collected until the next one would
pass a limit.
-/
import ChipTrace.Telemetry.Trees
import ChipTrace.Lib.Checked
import ChipTrace.Lib.Json.RoundTrip
import ChipTrace.Lib.Json.Size
import ChipTrace.Lib.Json.Validity

namespace ChipTrace.Telemetry

/-- A compression that can be undone. -/
structure Gzip where
  compress : Bytes → Bytes
  decompress : Bytes → Option Bytes
  roundTrip : ∀ body, decompress (compress body) = some body

structure BatchLimits where
  maxSpans : Nat
  maxBytes : Nat
  maxSpans_pos : 0 < maxSpans

section Batches

variable (gzip : Gzip) (limits : BatchLimits)

def entriesOf (record : Json) : Option (List Json) :=
  (record.get? "resourceSpans").bind Json.asArray

def spansOf (record : Json) : List Json := (entriesOf record).getD []

def resourceSpanOf (record : Json) : Except String Json :=
  match entriesOf record with
  | none => .error "verified OTLP record has no resourceSpans"
  | some [span] => .ok span
  | some _ => .error "each OTLP delivery record must contain exactly one resourceSpans entry"

def envelope (resourceSpans : List Json) : Json :=
  Json.mkObj [("resourceSpans", .arr resourceSpans)]

def bodyOf (resourceSpans : List Json) : Bytes :=
  Bytes.encode (Json.print (envelope resourceSpans))

def envelopeOverhead : Nat := (Bytes.encode "\x7b\"resourceSpans\":[]\x7d".toList).length

def encodeBatch (resourceSpans : List Json) : Except String Bytes :=
  let body := bodyOf resourceSpans
  if limits.maxBytes < body.length then
    .error "OTLP batch exceeds the configured maximum batch bytes"
  else .ok (gzip.compress body)

structure Batching where
  batches : List Bytes := []
  current : List Json := []
  estimatedBytes : Nat := envelopeOverhead

/-- Encode the collected spans when there is no room for another item. -/
def Batching.makeRoom (state : Batching) (itemBytes : Nat) : Except String Batching :=
  if !state.current.isEmpty && (decide (limits.maxSpans ≤ state.current.length) ||
      decide (limits.maxBytes < U64.saturatingAdd state.estimatedBytes itemBytes)) then do
    let batch ← encodeBatch gzip limits state.current
    pure { batches := state.batches ++ [batch] }
  else pure state

def Batching.add (state : Batching) (record : Json) : Except String Batching := do
  let resourceSpan ← resourceSpanOf record
  let itemBytes := U64.saturatingAdd resourceSpan.byteSize 1
  if limits.maxBytes < U64.saturatingAdd itemBytes envelopeOverhead then
    .error "one OTLP span exceeds the configured maximum batch bytes"
  else
    let state ← state.makeRoom gzip limits itemBytes
    pure { state with
      estimatedBytes := U64.saturatingAdd state.estimatedBytes itemBytes
      current := state.current ++ [resourceSpan] }

def buildBatches (records : List Json) : Except String (List Bytes) := do
  let state ← records.foldlM (Batching.add gzip limits) {}
  if state.current.isEmpty then pure state.batches
  else
    let batch ← encodeBatch gzip limits state.current
    pure (state.batches ++ [batch])

/-- What a receiver reads in a batch. -/
def decodeBatch (batch : Bytes) : Option (List Json) := do
  let body ← gzip.decompress batch
  let text ← Bytes.decode? body
  let value ← Json.parse text
  entriesOf value

end Batches

section Sizes

theorem envelope_eq (resourceSpans : List Json) :
    envelope resourceSpans = .obj [("resourceSpans", .arr resourceSpans)] := rfl

/-- The estimate has a comma for every span, and a body one less. -/
theorem length_bodyOf {resourceSpans : List Json} (hne : resourceSpans ≠ []) :
    (bodyOf resourceSpans).length + 1 = envelopeOverhead + Json.itemsSize resourceSpans := by
  have hkey : Json.keySize "resourceSpans" = 15 := by decide
  have hoverhead : envelopeOverhead = 20 := by decide
  have hbody : (bodyOf resourceSpans).length = (envelope resourceSpans).byteSize := rfl
  rw [hbody, envelope_eq, Json.byteSize_obj (List.cons_ne_nil _ _), hoverhead]
  simp only [OrdMap.weigh, List.map_cons, List.map_nil, List.sum_cons, List.sum_nil,
    Json.fieldSize, hkey, Json.byteSize_arr hne]
  omega

end Sizes

section Collecting

variable {gzip : Gzip} {limits : BatchLimits}

/-- The spans read so far are those of whole batches and those that are collected, whose body
fits the limit. -/
structure Collected (gzip : Gzip) (limits : BatchLimits) (done : List Json)
    (groups : List (List Json)) (state : Batching) : Prop where
  batches : state.batches = groups.map fun group => gzip.compress (bodyOf group)
  spans : groups.flatten ++ state.current = done
  sized : ∀ group ∈ groups, group ≠ [] ∧ group.length ≤ limits.maxSpans ∧
    (bodyOf group).length ≤ limits.maxBytes
  current : state.current.length ≤ limits.maxSpans
  estimated : state.estimatedBytes = envelopeOverhead + Json.itemsSize state.current
  fits : state.current ≠ [] → state.estimatedBytes ≤ limits.maxBytes

variable {done : List Json} {groups : List (List Json)} {state : Batching}

theorem collected_start (gzip : Gzip) (limits : BatchLimits) :
    Collected gzip limits [] [] {} where
  batches := rfl
  spans := rfl
  sized := fun group hgroup => by cases hgroup
  current := Nat.zero_le _
  estimated := rfl
  fits := fun hne => absurd rfl hne

/-- What is collected can be encoded. -/
theorem Collected.encode (h : Collected gzip limits done groups state)
    (hne : state.current ≠ []) :
    encodeBatch gzip limits state.current = .ok (gzip.compress (bodyOf state.current)) ∧
      Collected gzip limits done (groups ++ [state.current])
        { batches := state.batches ++ [gzip.compress (bodyOf state.current)] } := by
  have hlength := length_bodyOf hne
  have hfits := h.fits hne
  have hestimated := h.estimated
  have hbody : (bodyOf state.current).length ≤ limits.maxBytes := by omega
  constructor
  · rw [encodeBatch, if_neg (Nat.not_lt.mpr hbody)]
  · exact {
      batches := by rw [h.batches, List.map_append, List.map_singleton]
      spans := by rw [← h.spans, List.flatten_append, List.flatten_singleton, List.append_nil]
      sized := by
        intro group hgroup
        rcases List.mem_append.mp hgroup with hgroup | hgroup
        · exact h.sized group hgroup
        · obtain rfl := List.mem_singleton.mp hgroup
          exact ⟨hne, h.current, hbody⟩
      current := Nat.zero_le _
      estimated := rfl
      fits := fun hnil => absurd rfl hnil }

theorem Collected.itemsSize_le (h : Collected gzip limits done groups state) :
    Json.itemsSize state.current ≤ Json.itemsSize done := by
  rw [← h.spans, Json.itemsSize_append]
  exact Nat.le_add_left _ _

/-- After room is made, the next item fits behind what is collected. -/
theorem Collected.makeRoom (h : Collected gzip limits done groups state) (itemBytes : Nat)
    (haddress : envelopeOverhead + Json.itemsSize done + itemBytes < U64.limit) :
    ∃ groups next, state.makeRoom gzip limits itemBytes = .ok next ∧
      Collected gzip limits done groups next ∧ next.current.length < limits.maxSpans ∧
      (next.current ≠ [] → next.estimatedBytes + itemBytes ≤ limits.maxBytes) := by
  have hitems := h.itemsSize_le
  have hestimated := h.estimated
  have hsum : U64.saturatingAdd state.estimatedBytes itemBytes =
      state.estimatedBytes + itemBytes := U64.saturatingAdd_eq (by omega)
  rw [Batching.makeRoom, hsum]
  split
  · next hfull =>
      have hne : state.current ≠ [] := by
        intro hnil
        rw [hnil] at hfull
        cases hfull
      obtain ⟨hencode, hcollected⟩ := h.encode hne
      rw [hencode]
      exact ⟨_, _, rfl, hcollected, limits.maxSpans_pos, fun hnil => absurd rfl hnil⟩
  · next hroom =>
      simp only [Bool.and_eq_true, Bool.or_eq_true, Bool.not_eq_true', List.isEmpty_eq_false_iff,
        decide_eq_true_eq, not_and, not_or, Nat.not_le, Nat.not_lt] at hroom
      refine ⟨groups, state, rfl, h, ?_, fun hne => (hroom hne).2⟩
      by_cases hnil : state.current = []
      · rw [hnil]
        exact limits.maxSpans_pos
      · exact (hroom hnil).1

/-- A record of one span that fits is collected. -/
theorem Collected.add (h : Collected gzip limits done groups state) {record span : Json}
    (hspan : resourceSpanOf record = .ok span)
    (hfits : envelopeOverhead + (span.byteSize + 1) ≤ limits.maxBytes)
    (haddress : envelopeOverhead + Json.itemsSize (done ++ [span]) < U64.limit) :
    ∃ groups next, state.add gzip limits record = .ok next ∧
      Collected gzip limits (done ++ [span]) groups next := by
  rw [Json.itemsSize_append, Json.itemsSize_singleton] at haddress
  have hitem : U64.saturatingAdd span.byteSize 1 = span.byteSize + 1 :=
    U64.saturatingAdd_eq (by omega)
  have hsize : U64.saturatingAdd (span.byteSize + 1) envelopeOverhead =
      span.byteSize + 1 + envelopeOverhead := U64.saturatingAdd_eq (by omega)
  obtain ⟨groups, next, hroom, hnext, hlength, hbytes⟩ :=
    h.makeRoom (span.byteSize + 1) (by omega)
  have hestimated := hnext.estimated
  have hitems := hnext.itemsSize_le
  have hsum : U64.saturatingAdd next.estimatedBytes (span.byteSize + 1) =
      next.estimatedBytes + (span.byteSize + 1) := U64.saturatingAdd_eq (by omega)
  refine ⟨groups, { next with
    estimatedBytes := U64.saturatingAdd next.estimatedBytes (span.byteSize + 1)
    current := next.current ++ [span] }, ?_, ?_⟩
  · rw [Batching.add, hspan, Except.ok_bind]
    simp only [hitem, hsize]
    rw [if_neg (by omega), hroom, Except.ok_bind]
    rfl
  · exact {
      batches := hnext.batches
      spans := by rw [← List.append_assoc, hnext.spans]
      sized := hnext.sized
      current := by
        rw [List.length_append, List.length_singleton]
        exact hlength
      estimated := by
        rw [hsum, hestimated, Json.itemsSize_append, Json.itemsSize_singleton, Nat.add_assoc]
      fits := by
        intro _
        rw [hsum]
        by_cases hnil : next.current = []
        · rw [hestimated, hnil, Json.itemsSize_nil, Nat.add_zero]
          exact hfits
        · exact hbytes hnil }

/-- A record whose one span fits the limit with the envelope and a comma. -/
def Taken (limits : BatchLimits) (record : Json) : Prop :=
  ∃ span, entriesOf record = some [span] ∧
    envelopeOverhead + (span.byteSize + 1) ≤ limits.maxBytes

/-- Why a record is refused. -/
def refusals : List String :=
  ["verified OTLP record has no resourceSpans",
    "each OTLP delivery record must contain exactly one resourceSpans entry",
    "one OTLP span exceeds the configured maximum batch bytes"]

theorem resourceSpanOf_ok_iff {record span : Json} :
    resourceSpanOf record = .ok span ↔ entriesOf record = some [span] := by
  rw [resourceSpanOf]
  split
  · next hnone => simp [hnone]
  · next other hsome => simp [hsome]
  · next hnotOne hsome =>
      simp only [reduceCtorEq, false_iff]
      intro hone
      exact hnotOne span (Option.some.inj (hsome.symm.trans hone))

theorem resourceSpanOf_refused {record : Json} (hnot : ∀ span, entriesOf record ≠ some [span]) :
    ∃ message ∈ refusals, resourceSpanOf record = .error message := by
  rw [resourceSpanOf]
  split
  · exact ⟨_, by simp [refusals], rfl⟩
  · next span hsome => exact absurd hsome (hnot span)
  · exact ⟨_, by simp [refusals], rfl⟩

theorem spansOf_eq {record span : Json} (hone : entriesOf record = some [span]) :
    spansOf record = [span] := by
  rw [spansOf, hone]
  rfl

theorem add_refused (gzip : Gzip) {record : Json} (hnot : ¬ Taken limits record)
    (haddress : envelopeOverhead + Json.itemsSize (spansOf record) < U64.limit)
    (state : Batching) :
    ∃ message ∈ refusals, state.add gzip limits record = .error message := by
  by_cases hone : ∃ span, entriesOf record = some [span]
  · obtain ⟨span, hspan⟩ := hone
    rw [spansOf_eq hspan, Json.itemsSize_singleton] at haddress
    have hitem : U64.saturatingAdd span.byteSize 1 = span.byteSize + 1 :=
      U64.saturatingAdd_eq (by omega)
    have hsize : U64.saturatingAdd (span.byteSize + 1) envelopeOverhead =
        span.byteSize + 1 + envelopeOverhead := U64.saturatingAdd_eq (by omega)
    have hlarge : ¬ envelopeOverhead + (span.byteSize + 1) ≤ limits.maxBytes :=
      fun hfits => hnot ⟨span, hspan, hfits⟩
    rw [Batching.add, resourceSpanOf_ok_iff.mpr hspan, Except.ok_bind]
    simp only [hitem, hsize]
    rw [if_pos (by omega)]
    exact ⟨_, by simp [refusals], rfl⟩
  · obtain ⟨message, hmessage, hrefused⟩ :=
      resourceSpanOf_refused fun span hspan => hone ⟨span, hspan⟩
    refine ⟨message, hmessage, ?_⟩
    rw [Batching.add, hrefused]
    rfl

/-- Every record is collected, or one is refused. -/
theorem Collected.addAll (records : List Json) (h : Collected gzip limits done groups state)
    (haddress : envelopeOverhead + Json.itemsSize (done ++ records.flatMap spansOf) <
      U64.limit) :
    (∃ groups next, records.foldlM (Batching.add gzip limits) state = .ok next ∧
      Collected gzip limits (done ++ records.flatMap spansOf) groups next ∧
      ∀ record ∈ records, Taken limits record) ∨
    ((∃ message ∈ refusals,
      records.foldlM (Batching.add gzip limits) state = .error message) ∧
      ∃ record ∈ records, ¬ Taken limits record) := by
  induction records generalizing done groups state with
  | nil =>
      refine Or.inl ⟨groups, state, rfl, ?_, fun record hrecord => by cases hrecord⟩
      rw [List.flatMap_nil, List.append_nil]
      exact h
  | cons record rest ih =>
      rw [List.flatMap_cons, ← List.append_assoc] at haddress
      have hrecord : envelopeOverhead + Json.itemsSize (done ++ spansOf record) < U64.limit := by
        rw [Json.itemsSize_append] at haddress
        omega
      by_cases htaken : Taken limits record
      · obtain ⟨span, hspan, hfits⟩ := id htaken
        rw [spansOf_eq hspan] at haddress hrecord
        obtain ⟨groups, next, hadd, hnext⟩ :=
          h.add (resourceSpanOf_ok_iff.mpr hspan) hfits hrecord
        rw [List.foldlM_cons, hadd, Except.ok_bind, List.flatMap_cons, spansOf_eq hspan,
          ← List.append_assoc]
        rcases ih hnext haddress with ⟨groups, last, hfold, hlast, hall⟩ | ⟨hfold, hsome⟩
        · exact Or.inl ⟨groups, last, hfold, hlast, List.forall_mem_cons.mpr ⟨htaken, hall⟩⟩
        · obtain ⟨other, hother, hnot⟩ := hsome
          exact Or.inr ⟨hfold, other, List.mem_cons_of_mem _ hother, hnot⟩
      · rw [Json.itemsSize_append] at hrecord
        obtain ⟨message, hmessage, hadd⟩ := add_refused gzip htaken (by omega) state
        refine Or.inr ⟨⟨message, hmessage, ?_⟩, record, List.mem_cons_self, htaken⟩
        rw [List.foldlM_cons, hadd]
        rfl

/-- Where no record is refused, the batches hold the spans of the records in order. -/
theorem buildBatches_spec (records : List Json)
    (haddress : envelopeOverhead + Json.itemsSize (records.flatMap spansOf) < U64.limit) :
    (∃ groups : List (List Json), buildBatches gzip limits records =
        .ok (groups.map fun group => gzip.compress (bodyOf group)) ∧
      groups.flatten = records.flatMap spansOf ∧
      (∀ group ∈ groups, group ≠ [] ∧ group.length ≤ limits.maxSpans ∧
        (bodyOf group).length ≤ limits.maxBytes) ∧
      ∀ record ∈ records, Taken limits record) ∨
    ((∃ message ∈ refusals, buildBatches gzip limits records = .error message) ∧
      ∃ record ∈ records, ¬ Taken limits record) := by
  rcases (collected_start gzip limits).addAll records haddress with
    ⟨groups, state, hfold, hstate, hall⟩ | ⟨⟨message, hmessage, hfold⟩, hsome⟩
  · rw [List.nil_append] at hstate
    rw [buildBatches, hfold, Except.ok_bind]
    by_cases hnil : state.current = []
    · refine Or.inl ⟨groups, ?_, ?_, hstate.sized, hall⟩
      · rw [hnil, List.isEmpty_nil, if_pos rfl, hstate.batches]
        rfl
      · rw [← hstate.spans, hnil, List.append_nil]
    · obtain ⟨hencode, hlast⟩ := hstate.encode hnil
      refine Or.inl ⟨groups ++ [state.current], ?_, ?_, hlast.sized, hall⟩
      · rw [if_neg (by simpa using hnil), hencode, Except.ok_bind, List.map_append,
          List.map_singleton, hstate.batches]
        rfl
      · rw [← hlast.spans, List.append_nil]
  · refine Or.inr ⟨⟨message, hmessage, ?_⟩, hsome⟩
    rw [buildBatches, hfold]
    rfl

end Collecting

section Delivery

/-- The records of an export: each was read from a line, the check of the export accepts them, and
written behind one another they fit the address space. -/
structure VerifiedRecords where
  values : List Json
  read : ∀ record ∈ values, ∃ line, Json.parse line = some record
  verified : ∃ hierarchy, verifyOtlpTree values = .ok hierarchy
  addressable : envelopeOverhead + Json.itemsSize (values.flatMap spansOf) < U64.limit

/-- The body of a record alone passes the limit. -/
def TooLarge (limits : BatchLimits) (record : Json) : Prop :=
  limits.maxBytes < (bodyOf (spansOf record)).length

/-- Building fails exactly for a record that is too large alone; else the batches hold every span
once and in order, within the limits, and the encoder's own check never fails. -/
structure Lossless (gzip : Gzip) (limits : BatchLimits) (records : VerifiedRecords) : Prop where
  fails : (∃ message, buildBatches gzip limits records.values = .error message) ↔
    ∃ record ∈ records.values, TooLarge limits record
  decoded : ∀ batches, buildBatches gzip limits records.values = .ok batches →
    ∃ groups, batches.mapM (decodeBatch gzip) = some groups ∧
      groups.flatten = records.values.flatMap spansOf ∧
      ∀ group ∈ groups, 1 ≤ group.length ∧ group.length ≤ limits.maxSpans
  bounded : ∀ batches, buildBatches gzip limits records.values = .ok batches →
    ∀ batch ∈ batches, ∃ body, gzip.decompress batch = some body ∧
      body.length ≤ limits.maxBytes
  unreachable : buildBatches gzip limits records.values ≠
    .error "OTLP batch exceeds the configured maximum batch bytes"

variable {gzip : Gzip} {limits : BatchLimits} {records : VerifiedRecords}

theorem span_within {record span : Json} (hread : ∃ line, Json.parse line = some record)
    (hspan : span ∈ spansOf record) : Json.Within 125 span := by
  obtain ⟨line, hline⟩ := hread
  have hwf := Json.parse_wellFormed hline
  have hdepth := Json.parse_depth hline
  cases hentries : entriesOf record with
  | none =>
      rw [spansOf, hentries] at hspan
      cases hspan
  | some entries =>
      rw [spansOf, hentries, Option.getD_some] at hspan
      obtain ⟨field, hfield, hitems⟩ := Option.bind_eq_some_iff.mp hentries
      have hlt := Json.depth_lt_of_get? hfield
      have harr : field = .arr entries := by
        cases field with
        | arr items => exact congrArg Json.arr (Option.some.inj hitems)
        | null | bool | num | str | obj => cases hitems
      have hbound : field.depth ≤ 126 := by
        have hlimit : Json.recursionLimit = 128 := rfl
        omega
      have hwithin : Json.Within (125 + 1) (.arr entries) := harr ▸ ⟨hwf.get? hfield, hbound⟩
      exact Json.within_arr_iff.mp hwithin span hspan

theorem wrapped_within {bound : Nat} {items : List Json} (key : String)
    (hitems : ∀ item ∈ items, Json.Within bound item) :
    Json.Within (bound + 2) (Json.mkObj [(key, .arr items)]) := by
  refine Json.within_mkObj fun field hfield => ?_
  obtain rfl := List.mem_singleton.mp hfield
  exact Json.within_arr_iff.mpr hitems

theorem decodeBatch_bodyOf {spans : List Json} (hspans : ∀ span ∈ spans, Json.Within 125 span) :
    decodeBatch gzip (gzip.compress (bodyOf spans)) = some spans := by
  have hwithin : Json.Within 127 (envelope spans) := wrapped_within "resourceSpans" hspans
  have hparse : Json.parse (Json.print (envelope spans)) = some (envelope spans) := by
    rw [Json.parse_print hwithin.1, if_pos]
    have hlimit : Json.recursionLimit = 128 := rfl
    have hdepth := hwithin.2
    omega
  rw [decodeBatch, gzip.roundTrip, bodyOf]
  simp only [Option.bind_eq_bind, Option.bind_some, Bytes.decode?_encode, hparse]
  rfl

theorem taken_iff {record : Json} :
    Taken limits record ↔
      (∃ span, entriesOf record = some [span]) ∧ (bodyOf (spansOf record)).length <
        limits.maxBytes := by
  rw [Taken]
  constructor
  · rintro ⟨span, hspan, hfits⟩
    have hbody := length_bodyOf (List.cons_ne_nil span [])
    rw [Json.itemsSize_singleton] at hbody
    refine ⟨⟨span, hspan⟩, ?_⟩
    rw [spansOf_eq hspan]
    omega
  · rintro ⟨⟨span, hspan⟩, hfits⟩
    have hbody := length_bodyOf (List.cons_ne_nil span [])
    rw [Json.itemsSize_singleton] at hbody
    rw [spansOf_eq hspan] at hfits
    exact ⟨span, hspan, by omega⟩

theorem TooLarge.not_taken {record : Json} (h : TooLarge limits record) :
    ¬ Taken limits record :=
  fun htaken => Nat.lt_asymm h (taken_iff.mp htaken).2

theorem buildBatches_fails_iff :
    (∃ message, buildBatches gzip limits records.values = .error message) ↔
      ∃ record ∈ records.values, ¬ Taken limits record := by
  rcases buildBatches_spec records.values records.addressable with
    ⟨groups, hbuild, _, _, hall⟩ | ⟨⟨message, _, hbuild⟩, hsome⟩
  · rw [hbuild]
    constructor
    · rintro ⟨message, hmessage⟩
      cases hmessage
    · rintro ⟨record, hrecord, hnot⟩
      exact absurd (hall record hrecord) hnot
  · exact iff_of_true ⟨message, hbuild⟩ hsome

/-- The groups of spans that the batches of a successful run hold. -/
theorem groups_of_buildBatches {batches : List Bytes}
    (hok : buildBatches gzip limits records.values = .ok batches) :
    ∃ groups : List (List Json),
      batches = groups.map (fun group => gzip.compress (bodyOf group)) ∧
      groups.flatten = records.values.flatMap spansOf ∧
      ∀ group ∈ groups, group ≠ [] ∧ group.length ≤ limits.maxSpans ∧
        (bodyOf group).length ≤ limits.maxBytes := by
  rcases buildBatches_spec records.values records.addressable with
    ⟨groups, hbuild, hflat, hsized, _⟩ | ⟨⟨message, _, hbuild⟩, _⟩
  · exact ⟨groups, Except.ok.inj (hok.symm.trans hbuild), hflat, hsized⟩
  · cases hok.symm.trans hbuild

theorem mapM_decodeBatch {groups : List (List Json)}
    (hgroups : ∀ group ∈ groups, ∀ span ∈ group, Json.Within 125 span) :
    (groups.map fun group => gzip.compress (bodyOf group)).mapM (decodeBatch gzip) =
      some groups := by
  induction groups with
  | nil => rfl
  | cons group rest ih =>
      obtain ⟨hgroup, hrest⟩ := List.forall_mem_cons.mp hgroups
      rw [List.map_cons, List.mapM_cons, decodeBatch_bodyOf hgroup, ih hrest]
      rfl

theorem buildBatches_decoded {batches : List Bytes}
    (hok : buildBatches gzip limits records.values = .ok batches) :
    ∃ groups, batches.mapM (decodeBatch gzip) = some groups ∧
      groups.flatten = records.values.flatMap spansOf ∧
      ∀ group ∈ groups, 1 ≤ group.length ∧ group.length ≤ limits.maxSpans := by
  obtain ⟨groups, rfl, hflat, hsized⟩ := groups_of_buildBatches hok
  refine ⟨groups, mapM_decodeBatch ?_, hflat, ?_⟩
  · intro group hgroup span hspan
    have hmem : span ∈ records.values.flatMap spansOf := by
      rw [← hflat]
      exact List.mem_flatten_of_mem hgroup hspan
    obtain ⟨record, hrecord, hspans⟩ := List.mem_flatMap.mp hmem
    exact span_within (records.read record hrecord) hspans
  · intro group hgroup
    obtain ⟨hne, hlength, _⟩ := hsized group hgroup
    exact ⟨List.length_pos_iff.mpr hne, hlength⟩

theorem buildBatches_bounded {batches : List Bytes}
    (hok : buildBatches gzip limits records.values = .ok batches) {batch : Bytes}
    (hbatch : batch ∈ batches) :
    ∃ body, gzip.decompress batch = some body ∧ body.length ≤ limits.maxBytes := by
  obtain ⟨groups, rfl, _, hsized⟩ := groups_of_buildBatches hok
  obtain ⟨group, hgroup, rfl⟩ := List.mem_map.mp hbatch
  exact ⟨bodyOf group, gzip.roundTrip _, (hsized group hgroup).2.2⟩

theorem buildBatches_refusal {message : String}
    (herror : buildBatches gzip limits records.values = .error message) :
    message ∈ refusals := by
  rcases buildBatches_spec records.values records.addressable with
    ⟨groups, hbuild, _⟩ | ⟨⟨refusal, hrefusal, hbuild⟩, _⟩
  · cases herror.symm.trans hbuild
  · exact Except.error.inj (herror.symm.trans hbuild) ▸ hrefusal

def soleSpan : Json :=
  Json.mkObj [("traceId", .str exampleTrace), ("spanId", .str "454349e422f05297")]

def soleRecord : Json :=
  Json.mkObj [("resourceSpans", .arr [Json.mkObj [("scopeSpans", .arr [Json.mkObj [
    ("spans", .arr [soleSpan])]])]])]

theorem soleRecord_within : Json.Within 7 soleRecord := by
  have hspan : Json.Within 1 soleSpan := by
    refine Json.within_mkObj fun field hfield => ?_
    simp only [List.mem_cons, List.not_mem_nil, or_false] at hfield
    rcases hfield with rfl | rfl
    · exact Json.within_str _
    · exact Json.within_str _
  have hspans := wrapped_within "spans" (List.forall_mem_singleton.mpr hspan)
  have hscopes := wrapped_within "scopeSpans" (List.forall_mem_singleton.mpr hspans)
  exact wrapped_within "resourceSpans" (List.forall_mem_singleton.mpr hscopes)

def soleRecords : VerifiedRecords where
  values := [soleRecord]
  read := by
    intro record hrecord
    obtain rfl := List.mem_singleton.mp hrecord
    refine ⟨Json.print soleRecord, ?_⟩
    have hlimit : Json.recursionLimit = 128 := rfl
    have hdepth := soleRecord_within.2
    rw [Json.parse_print soleRecord_within.1, if_pos (by omega)]
  verified := by
    have haccepted : (verifyOtlpTree [soleRecord]).toOption.isSome = true := by decide +kernel
    cases htree : verifyOtlpTree [soleRecord] with
    | error message =>
        rw [htree] at haccepted
        cases haccepted
    | ok hierarchy => exact ⟨hierarchy, rfl⟩
  addressable := by decide +kernel

end Delivery

end ChipTrace.Telemetry
