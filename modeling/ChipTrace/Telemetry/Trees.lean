/-
Exported traces as trees: what the check of an export establishes, and that the
traces it accepts are trees exactly when no span is its own ancestor.
-/
import ChipTrace.Telemetry.Parents
import ChipTrace.Lib.ParentTree

namespace ChipTrace.Telemetry

open ParentTree

section Verified

/-- The spans of an export. -/
def exportedSpans (records : List Json) : List Json :=
  records.filterMap fun record => (recordSpan record).toOption

/-- The identity that a span names as its parent. -/
def parentIdentity (records : List Json) (identity : SpanIdentity) : Option SpanIdentity :=
  ((exportedSpans records).find? fun span => identityOf span == identity).bind fun span =>
    (parentSpanIdOf span).map fun parent => (traceIdOf span, parent)

/-- From every span the parents lead to the one span of its trace without a parent, and
visit no span twice. -/
def IsForest (records : List Json) : Prop :=
  ∀ span ∈ exportedSpans records, ∃ root ∈ exportedSpans records, ∃ path,
    Climbs (parentIdentity records) (identityOf span) path (identityOf root) ∧ path.Nodup ∧
      traceIdOf root = traceIdOf span ∧
      ∀ other ∈ exportedSpans records, traceIdOf other = traceIdOf span →
        (parentSpanIdOf other = none ↔ other = root)

/-- What an accepted export satisfies. -/
structure Verified (records : List Json) : Prop where
  identities : ((exportedSpans records).map identityOf).Nodup
  resolved : ∀ span ∈ exportedSpans records, ∀ parent, parentSpanIdOf span = some parent →
    (traceIdOf span, parent) ∈ (exportedSpans records).map identityOf
  roots : ∀ span ∈ exportedSpans records, ∀ other ∈ exportedSpans records,
    parentSpanIdOf span = none → parentSpanIdOf other = none →
      traceIdOf span = traceIdOf other → span = other

theorem exportedSpans_of_mapM {records spans : List Json}
    (h : records.mapM recordSpan = .ok spans) : exportedSpans records = spans := by
  have hall := List.mapM_eq_ok_iff.mp h
  rw [exportedSpans]
  clear h
  induction hall with
  | nil => rfl
  | cons hhead _ ih =>
      rw [List.filterMap_cons, hhead]
      exact congrArg _ ih

theorem enterIdentity_ok {identities next : List SpanIdentity} {span : Json}
    (h : enterIdentity identities span = .ok next) :
    next = identities ++ [identityOf span] ∧ identityOf span ∉ identities := by
  rw [enterIdentity, Except.bind_eq_ok_iff] at h
  obtain ⟨traceId, htrace, h⟩ := h
  obtain ⟨spanId, hspan, h⟩ := Except.bind_eq_ok_iff.mp h
  have hidentity : identityOf span = (traceId, spanId) := by
    rw [identityOf, traceIdOf, orMissing_eq_ok_iff.mp htrace, orMissing_eq_ok_iff.mp hspan]
    rfl
  split_ifs at h with hvalid hseen
  cases h
  rw [hidentity]
  refine ⟨rfl, fun hmem => hseen ?_⟩
  rwa [List.contains_iff_mem]

/-- The identities that are entered are those of the spans, and all different. -/
theorem enterIdentities_ok {spans : List Json} {start identities : List SpanIdentity}
    (hstart : start.Nodup) (h : spans.foldlM enterIdentity start = .ok identities) :
    identities = start ++ spans.map identityOf ∧ identities.Nodup := by
  induction spans generalizing start with
  | nil =>
      cases h
      exact ⟨(List.append_nil _).symm, hstart⟩
  | cons span rest ih =>
      rw [List.foldlM_cons, Except.bind_eq_ok_iff] at h
      obtain ⟨next, hnext, hrest⟩ := h
      obtain ⟨rfl, hnew⟩ := enterIdentity_ok hnext
      have hnodup : (start ++ [identityOf span]).Nodup := by
        apply List.Nodup.append hstart (List.nodup_singleton _)
        intro identity hidentity hother
        exact hnew (List.mem_singleton.mp hother ▸ hidentity)
      obtain ⟨hsame, hall⟩ := ih hnodup hrest
      refine ⟨?_, hall⟩
      rw [hsame, List.append_assoc, List.map_cons, List.singleton_append]

/-- One root in each trace that has one. -/
theorem root_unique_of_rootsDiffer {spans : List Json} (h : rootsDiffer spans = false)
    {span other : Json} (hspan : span ∈ spans) (hother : other ∈ spans)
    (hroot : parentSpanIdOf span = none) (hrootOther : parentSpanIdOf other = none)
    (htrace : traceIdOf span = traceIdOf other) : span = other := by
  rw [rootsDiffer, List.any_eq_false] at h
  have hroots : ∀ found ∈ spans, parentSpanIdOf found = none →
      found ∈ spans.filter fun span => (parentSpanIdOf span).isNone := by
    intro found hfound hnone
    exact List.mem_filter.mpr ⟨hfound, Option.isNone_iff_eq_none.mpr hnone⟩
  have hcount := h (traceIdOf span) (List.mem_map_of_mem (hroots span hspan hroot))
  rw [bne_iff_ne, not_not, List.count_eq_countP, List.countP_map,
    List.countP_eq_length_filter] at hcount
  obtain ⟨only, honly⟩ := List.length_eq_one_iff.mp hcount
  have hone : ∀ found ∈ spans, parentSpanIdOf found = none →
      traceIdOf found = traceIdOf span → found = only := by
    intro found hfound hnone hsame
    refine List.mem_singleton.mp (honly ▸ List.mem_filter.mpr ⟨hroots found hfound hnone, ?_⟩)
    exact beq_iff_eq.mpr hsame
  rw [hone span hspan hroot rfl, hone other hother hrootOther htrace.symm]

theorem resolved_of_missing {identities : List SpanIdentity} {spans : List Json}
    (h : (countHierarchy identities spans).missingParentNodes = []) {span : Json}
    (hspan : span ∈ spans) {parent : String} (hparent : parentSpanIdOf span = some parent) :
    (traceIdOf span, parent) ∈ identities := by
  rw [countHierarchy] at h
  have hlength := congrArg List.length h
  rw [List.length_insertionSort, List.length_map, List.length_nil, List.length_eq_zero_iff,
    List.filter_eq_nil_iff] at hlength
  have hresolved := hlength span
    (List.mem_filter.mpr ⟨hspan, Option.isSome_iff_exists.mpr ⟨parent, hparent⟩⟩)
  rw [Bool.not_eq_true', Bool.not_eq_false, isResolved, hparent, Option.all_some,
    List.contains_iff_mem] at hresolved
  exact hresolved

theorem verifyOtlpTree_ok {records : List Json} {hierarchy : OtlpHierarchy}
    (h : verifyOtlpTree records = .ok hierarchy) : Verified records := by
  rw [verifyOtlpTree, Except.bind_eq_ok_iff] at h
  obtain ⟨spans, hspans, h⟩ := h
  obtain ⟨identities, hidentities, h⟩ := Except.bind_eq_ok_iff.mp h
  rw [← exportedSpans_of_mapM hspans] at h hidentities
  obtain ⟨hsame, hnodup⟩ := enterIdentities_ok List.nodup_nil hidentities
  rw [List.nil_append] at hsame
  subst hsame
  dsimp only at h
  split_ifs at h with hbad
  simp only [Bool.or_eq_true, not_or, decide_eq_true_eq, Bool.not_eq_true, Bool.not_eq_false',
    List.isEmpty_iff] at hbad
  obtain ⟨⟨⟨⟨_, hroots⟩, hmissing⟩, _⟩, _⟩ := hbad
  exact ⟨hnodup, fun span hspan parent => resolved_of_missing hmissing hspan,
    fun span hspan other hother => root_unique_of_rootsDiffer hroots hspan hother⟩

theorem identityOf_of_find {spans : List Json} {identity : SpanIdentity} {span : Json}
    (h : (spans.find? fun span => identityOf span == identity) = some span) :
    identityOf span = identity := by
  have hfound := List.find?_some h
  exact beq_iff_eq.mp hfound

theorem Verified.find {records : List Json} (h : Verified records) {span : Json}
    (hspan : span ∈ exportedSpans records) :
    ((exportedSpans records).find? fun other => identityOf other == identityOf span) =
      some span := by
  have hsome : ((exportedSpans records).find? fun other =>
      identityOf other == identityOf span).isSome :=
    List.find?_isSome.mpr ⟨span, hspan, beq_self_eq_true _⟩
  obtain ⟨found, hfound⟩ := Option.isSome_iff_exists.mp hsome
  have hsame := identityOf_of_find hfound
  rw [hfound, List.inj_on_of_nodup_map h.identities (List.mem_of_find?_eq_some hfound) hspan hsame]

theorem Verified.parent {records : List Json} (h : Verified records) {span : Json}
    (hspan : span ∈ exportedSpans records) :
    parentIdentity records (identityOf span) =
      (parentSpanIdOf span).map fun parent => (traceIdOf span, parent) := by
  rw [parentIdentity, h.find hspan, Option.bind_some]

/-- The parent of a span is a span of the same trace. -/
theorem Verified.parent_mem {records : List Json} (h : Verified records)
    {identity above : SpanIdentity} (habove : parentIdentity records identity = some above) :
    above ∈ (exportedSpans records).map identityOf ∧ above.1 = identity.1 := by
  rw [parentIdentity, Option.bind_eq_some_iff] at habove
  obtain ⟨span, hspan, hparent⟩ := habove
  obtain ⟨parent, hnamed, rfl⟩ := Option.map_eq_some_iff.mp hparent
  have hidentity := identityOf_of_find hspan
  refine ⟨h.resolved span (List.mem_of_find?_eq_some hspan) parent hnamed, ?_⟩
  rw [← hidentity]
  rfl

/-- The climb from a span without cycles ends at the one root of its trace. -/
theorem Verified.climb {records : List Json} (h : Verified records)
    (hacyclic : Acyclic (parentIdentity records)) : IsForest records := by
  intro span hspan
  have hclosed : ∀ identity ∈ (exportedSpans records).map identityOf, ∀ above,
      parentIdentity records identity = some above →
        above ∈ (exportedSpans records).map identityOf :=
    fun identity _ above habove => (h.parent_mem habove).1
  obtain ⟨path, top, hclimbs⟩ := exists_climb hacyclic hclosed (List.mem_map_of_mem hspan)
  have hkept := hclimbs.forall_mem
    (fun node above (hnode : node ∈ (exportedSpans records).map identityOf ∧
        node.1 = traceIdOf span) habove =>
      ⟨(h.parent_mem habove).1, (h.parent_mem habove).2.trans hnode.2⟩)
    ⟨List.mem_map_of_mem hspan, rfl⟩ top hclimbs.root_mem
  obtain ⟨hmem, htrace⟩ := hkept
  obtain ⟨root, hroot, rfl⟩ := List.mem_map.mp hmem
  have hnone : parentSpanIdOf root = none := by
    have hparent := hclimbs.root_eq
    rwa [h.parent hroot, Option.map_eq_none_iff] at hparent
  refine ⟨root, hroot, path, hclimbs, hclimbs.nodup hacyclic, htrace, ?_⟩
  intro other hother hsame
  constructor
  · exact fun hotherRoot => h.roots other hother root hroot hotherRoot hnone
      (hsame.trans htrace.symm)
  · rintro rfl
    exact hnone

/-- An accepted export is a forest exactly when no span is its own ancestor. -/
theorem Verified.isForest_iff {records : List Json} (h : Verified records) :
    IsForest records ↔ Acyclic (parentIdentity records) := by
  constructor
  · intro hforest identity hcycle
    obtain ⟨above, _, hlast⟩ := Relation.TransGen.tail'_iff.mp hcycle
    have hspan : ∃ span ∈ exportedSpans records, identityOf span = identity := by
      rw [Above, parentIdentity, Option.bind_eq_some_iff] at hlast
      obtain ⟨span, hspan, _⟩ := hlast
      exact ⟨span, List.mem_of_find?_eq_some hspan, identityOf_of_find hspan⟩
    obtain ⟨span, hspan, rfl⟩ := hspan
    obtain ⟨_, _, _, hclimbs, _⟩ := hforest span hspan
    exact hclimbs.not_cyclic hcycle
  · exact h.climb

end Verified

section Projected

variable {sha256 : Bytes → String} {unixNanos : String → Option Int}

theorem pointerStep_mkObj {fields : List (String × Json)} (hnodup : (fields.map Prod.fst).Nodup)
    (token : String) : pointerStep (Json.mkObj fields) token = OrdMap.lookup token fields :=
  Json.get?_mkObj hnodup token

theorem pointerStep_head (item : Json) (rest : List Json) :
    pointerStep (.arr (item :: rest)) "0" = some item := rfl

theorem recordSpan_otlpRecord (span : Json) : recordSpan (otlpRecord span) = .ok span := by
  have hpointer : pointer (otlpRecord span) ["resourceSpans", "0", "scopeSpans", "0", "spans"] =
      some (.arr [span]) := by
    simp [pointer, otlpRecord, pointerStep_mkObj, pointerStep_head, OrdMap.lookup]
  rw [recordSpan, hpointer]
  rfl

section Span

variable (traceId spanId name status : String) (parent : Option String)
  (timing : Option String × Option String) (attributes : List Json)

theorem identityOf_otlpSpan :
    identityOf (otlpSpan unixNanos traceId spanId parent name timing status attributes) =
      (traceId, spanId) := by
  rw [identityOf, traceIdOf, stringField, stringField, otlpSpan]
  cases writtenParent spanId parent <;>
    rw [Json.get?_mkObj (by simp), Json.get?_mkObj (by simp)] <;>
    simp [OrdMap.lookup, Json.asStr]

theorem parentSpanIdOf_otlpSpan :
    parentSpanIdOf (otlpSpan unixNanos traceId spanId parent name timing status attributes) =
      writtenParent spanId parent := by
  rw [parentSpanIdOf, stringField, otlpSpan]
  cases writtenParent spanId parent <;> rw [Json.get?_mkObj (by simp)] <;>
    simp [OrdMap.lookup, Json.asStr]

end Span

/-- What the tree of an export depends on: each span's identity and the parent it names. -/
def spanKeys (span : Json) : SpanIdentity × Option String := (identityOf span, parentSpanIdOf span)

theorem exportedSpans_append (first last : List Json) :
    exportedSpans (first ++ last) = exportedSpans first ++ exportedSpans last :=
  List.filterMap_append

theorem exportedSpans_map {entities : List Json} {record : Json → Json}
    {keys : Json → SpanIdentity × Option String}
    (h : ∀ entity, ∃ span, recordSpan (record entity) = .ok span ∧ spanKeys span = keys entity) :
    (exportedSpans (entities.map record)).map spanKeys = entities.map keys := by
  induction entities with
  | nil => rfl
  | cons entity rest ih =>
      obtain ⟨span, hspan, hkeys⟩ := h entity
      rw [exportedSpans, List.map_cons, List.filterMap_cons, hspan, List.map_cons, ← hkeys, ← ih]
      rfl

variable (sha256) in
/-- Every exported span's node and identity. -/
def exportedNodes (interactions runtimeSpans : List Json) : List (String × SpanIdentity) :=
  (runtimeSpans.filter isTaskRoot ++ runtimeSpans.filter (!isTaskRoot ·)).map (fun span =>
      (runtimeSpanNode ((stringField span "span_id").getD "missing"),
        projectionIds sha256 span "span_id")) ++
    interactions.map fun interaction =>
      (interactionNode ((stringField interaction "interaction_id").getD "missing"),
        projectionIds sha256 interaction "interaction_id")

theorem exportedSpans_otlpRecords {interactions runtimeSpans : List Json}
    {nodeIds : Table String SpanIdentity} {parents : ParentNodes} :
    (exportedSpans (otlpRecords sha256 unixNanos interactions runtimeSpans nodeIds
        parents)).map spanKeys =
      (exportedNodes sha256 interactions runtimeSpans).map fun entry =>
        (entry.2, writtenParent entry.2.2 (parentSpanId nodeIds parents entry.1)) := by
  rw [otlpRecords, exportedNodes]
  generalize runtimeSpans.filter isTaskRoot ++ runtimeSpans.filter (!isTaskRoot ·) = spans
  rw [exportedSpans_append, List.map_append, List.map_append, List.map_map, List.map_map]
  congr 1
  · apply exportedSpans_map
    intro span
    refine ⟨_, recordSpan_otlpRecord _, ?_⟩
    rw [spanKeys, identityOf_otlpSpan, parentSpanIdOf_otlpSpan]
    rfl
  · apply exportedSpans_map
    intro interaction
    refine ⟨_, recordSpan_otlpRecord _, ?_⟩
    rw [spanKeys, identityOf_otlpSpan, parentSpanIdOf_otlpSpan]
    rfl

variable (sha256) in
/-- One identity is above another: a link of the highest priority to the node of the lower
one names the upper one's span id, which differs from its own. -/
def LinkedAbove (interactions runtimeSpans links : List Json) (upper lower : SpanIdentity) :
    Prop :=
  ∃ nodes node priority parent identity,
    collectNodes sha256 interactions runtimeSpans = .ok nodes ∧
    (node, lower) ∈ exportedNodes sha256 interactions runtimeSpans ∧
    Preference.Highest (Preference.candidatesOf (linkCandidate nodes.1) links) node priority
      parent ∧
    nodes.1.get? parent = some identity ∧
    writtenParent lower.2 (some identity.2) = some upper.2 ∧ upper.1 = lower.1

theorem verified_of_project {interactions runtimeSpans links records : List Json}
    {hierarchy : OtlpHierarchy}
    (h : projectOtlpTree sha256 unixNanos interactions runtimeSpans links =
      .ok (records, hierarchy)) : Verified records := by
  obtain ⟨nodes, parents, _, _, htree⟩ := projectOtlpTree_ok_iff.mp h
  rw [buildOtlpTree] at htree
  split_ifs at htree
  obtain ⟨_, hverified, hrecords⟩ := Except.bind_eq_ok_iff.mp htree
  cases hrecords
  exact verifyOtlpTree_ok hverified

/-- In an accepted export one span is the parent of another exactly when the links say so. -/
theorem above_iff_linkedAbove {interactions runtimeSpans links records : List Json}
    {hierarchy : OtlpHierarchy}
    (h : projectOtlpTree sha256 unixNanos interactions runtimeSpans links =
      .ok (records, hierarchy)) (upper lower : SpanIdentity) :
    Above (parentIdentity records) upper lower ↔
      LinkedAbove sha256 interactions runtimeSpans links upper lower := by
  obtain ⟨nodes, parents, hnodes, _, hsettles, htree⟩ := highestTree_of_ok h
  rw [buildOtlpTree] at htree
  split_ifs at htree
  obtain ⟨_, hverified, hrecords⟩ := Except.bind_eq_ok_iff.mp htree
  cases hrecords
  have hverified := verifyOtlpTree_ok hverified
  have hkeys := @exportedSpans_otlpRecords sha256 unixNanos interactions runtimeSpans nodes.1
    parents
  constructor
  · intro habove
    rw [Above, parentIdentity, Option.bind_eq_some_iff] at habove
    obtain ⟨span, hspan, hparent⟩ := habove
    obtain ⟨named, hnamed, rfl⟩ := Option.map_eq_some_iff.mp hparent
    have hmem : spanKeys span ∈ (exportedSpans (otlpRecords sha256 unixNanos interactions
        runtimeSpans nodes.1 parents)).map spanKeys :=
      List.mem_map_of_mem (List.mem_of_find?_eq_some hspan)
    rw [hkeys] at hmem
    obtain ⟨⟨node, identity⟩, hentry, hsame⟩ := List.mem_map.mp hmem
    obtain ⟨hidentity, hwritten⟩ := Prod.mk.inj hsame
    have hlower := identityOf_of_find hspan
    rw [hnamed] at hwritten
    have hparentId : ∃ parentId, parentSpanId nodes.1 parents node = some parentId := by
      cases hnone : parentSpanId nodes.1 parents node with
      | none =>
          rw [hnone] at hwritten
          cases hwritten
      | some parentId => exact ⟨parentId, rfl⟩
    obtain ⟨parentId, hparentId⟩ := hparentId
    rw [hparentId] at hwritten
    rw [parentSpanId, Option.bind_eq_some_iff] at hparentId
    obtain ⟨⟨priority, parent⟩, hchosen, hget⟩ := hparentId
    obtain ⟨above, habove, rfl⟩ := Option.map_eq_some_iff.mp hget
    refine ⟨nodes, node, priority, parent, above, hnodes, ?_, hsettles.1 _ _ _ hchosen, habove,
      ?_, ?_⟩
    · rwa [← hlower, ← hidentity]
    · rwa [← hlower, ← hidentity]
    · rw [← hlower]
      rfl
  · rintro ⟨nodes', node, priority, parent, identity, hnodes', hentry, hhighest, hget, hwritten,
      htrace⟩
    rw [hnodes] at hnodes'
    cases hnodes'
    have hchosen : parents.get? node = some (priority, parent) := by
      obtain ⟨chosen, hchosen⟩ := Option.isSome_iff_exists.mp (hsettles.2 _ hhighest.mem)
      have hsettled := hsettles.1 node chosen.1 chosen.2 hchosen
      rw [hchosen, @Preference.Highest.unique _ _ _ _ _ chosen (priority, parent) hsettled hhighest]
    have hparentId : parentSpanId nodes.1 parents node = some identity.2 := by
      rw [parentSpanId, hchosen, Option.bind_some, hget, Option.map_some]
    have hmem : (lower, writtenParent lower.2 (some identity.2)) ∈
        (exportedSpans (otlpRecords sha256 unixNanos interactions runtimeSpans nodes.1
          parents)).map spanKeys := by
      rw [hkeys, ← hparentId]
      exact List.mem_map.mpr ⟨(node, lower), hentry, rfl⟩
    obtain ⟨span, hspan, hsame⟩ := List.mem_map.mp hmem
    obtain ⟨hidentity, hnamed⟩ := Prod.mk.inj hsame
    rw [Above, ← hidentity, hverified.parent hspan, hnamed, hwritten, Option.map_some,
      Option.some_inj]
    refine Prod.ext ?_ rfl
    rw [htrace, ← hidentity]
    rfl

/-- Accepted exports are trees exactly when their parents have no cycle: on the records, no
span is its own ancestor; on the projection, no node comes back to itself over the parents
that its links of the highest priority name. -/
theorem exported_isForest_iff (sha256 : Bytes → String) (unixNanos : String → Option Int) :
    (∀ records hierarchy, verifyOtlpTree records = .ok hierarchy →
      (IsForest records ↔ Acyclic (parentIdentity records))) ∧
    ∀ interactions runtimeSpans links records hierarchy,
      projectOtlpTree sha256 unixNanos interactions runtimeSpans links =
          .ok (records, hierarchy) →
        (IsForest records ↔ ∀ identity, ¬ Relation.TransGen
          (LinkedAbove sha256 interactions runtimeSpans links) identity identity) := by
  refine ⟨fun records hierarchy h => (verifyOtlpTree_ok h).isForest_iff, ?_⟩
  intro interactions runtimeSpans links records hierarchy h
  have hsame : Above (parentIdentity records) =
      LinkedAbove sha256 interactions runtimeSpans links := by
    funext upper lower
    exact propext (above_iff_linkedAbove h upper lower)
  rw [(verified_of_project h).isForest_iff, Acyclic, hsame]

end Projected

section Example

def exampleTrace : String := "0cb43d057d48981d37e7bf619d004e79"

def rootIdentity : SpanIdentity := (exampleTrace, "454349e422f05297")

def firstIdentity : SpanIdentity := (exampleTrace, "ca978112ca1bbdca")

def secondIdentity : SpanIdentity := (exampleTrace, "3e23e8160039594a")

def childSpans : List Json := [exampleSpan "r" "task_root", exampleSpan "a" "tool_execution"]

def childLinks : List Json :=
  [exampleLink "runtime_parent_to_child" "runtime-span:r" "runtime-span:a"]

def mutualSpans : List Json :=
  [exampleSpan "r" "task_root", exampleSpan "a" "tool_execution", exampleSpan "b" "tool_execution"]

/-- Two spans, each of which is linked as the parent of the other. -/
def mutualLinks : List Json :=
  [exampleLink "runtime_parent_to_child" "runtime-span:a" "runtime-span:b",
    exampleLink "runtime_parent_to_child" "runtime-span:b" "runtime-span:a"]

theorem childLinks_above {upper lower : SpanIdentity}
    (h : LinkedAbove exampleSha256 [] childSpans childLinks upper lower) :
    lower = firstIdentity ∧ upper = rootIdentity := by
  obtain ⟨nodes, node, priority, parent, identity, hnodes, hentry, hhighest, hget, hwritten,
    htrace⟩ := h
  have hcandidate : ∀ candidate ∈ Preference.candidatesOf (linkCandidate nodes.1) childLinks,
      candidate.key = "runtime-span:a" ∧ candidate.value = "runtime-span:r" := by
    intro candidate hmem
    obtain ⟨link, hlink, hread⟩ := Preference.mem_candidatesOf.mp hmem
    rw [List.mem_singleton.mp hlink] at hread
    have hoffer := offerParent_candidate (hread : offerParent nodes.1 "runtime-span:r"
      "runtime-span:a" 40 = .ok (some candidate))
    rw [hoffer]
    exact ⟨rfl, rfl⟩
  obtain ⟨hnode, hparent⟩ := hcandidate _ hhighest.mem
  have hentries : exportedNodes exampleSha256 [] childSpans =
      [("runtime-span:r", rootIdentity), ("runtime-span:a", firstIdentity)] := by
    decide +kernel
  have hnodeIds : (collectNodes exampleSha256 [] childSpans).toOption.map
      (fun nodes => nodes.1.get? "runtime-span:r") = some (some rootIdentity) := by
    decide +kernel
  dsimp only at hnode hparent
  subst hnode hparent
  rw [hnodes] at hnodeIds
  cases hget.symm.trans (Option.some.inj hnodeIds)
  have hlower : lower = firstIdentity := by
    rw [hentries] at hentry
    simpa using hentry
  subst hlower
  refine ⟨rfl, Prod.ext htrace ?_⟩
  have hsame : writtenParent firstIdentity.2 (some rootIdentity.2) = some rootIdentity.2 := by
    decide +kernel
  exact Option.some.inj (hwritten.symm.trans hsame)

theorem child_isForest : ∃ records hierarchy,
    projectOtlpTree exampleSha256 (fun _ => none) [] childSpans childLinks =
      .ok (records, hierarchy) ∧ IsForest records := by
  have haccepted : (projectOtlpTree exampleSha256 (fun _ => none) [] childSpans
      childLinks).toOption.isSome = true := by
    decide +kernel
  cases htree : projectOtlpTree exampleSha256 (fun _ => none) [] childSpans childLinks with
  | error error =>
      rw [htree] at haccepted
      cases haccepted
  | ok tree =>
      refine ⟨tree.1, tree.2, rfl, ?_⟩
      apply ((exported_isForest_iff exampleSha256 fun _ => none).2 [] childSpans childLinks
        tree.1 tree.2 htree).mpr
      intro identity hcycle
      obtain ⟨_, _, hlast⟩ := Relation.TransGen.tail'_iff.mp hcycle
      obtain ⟨_, hfirst, _⟩ := Relation.TransGen.head'_iff.mp hcycle
      have hsame := (childLinks_above hlast).1.symm.trans (childLinks_above hfirst).2
      exact absurd hsame (by decide)

/-- Two spans that are each other's parent are accepted. -/
theorem not_always_isForest :
    ¬ ∀ sha256 unixNanos interactions runtimeSpans links records hierarchy,
      projectOtlpTree sha256 unixNanos interactions runtimeSpans links =
        .ok (records, hierarchy) → IsForest records := by
  intro hall
  have haccepted : (projectOtlpTree exampleSha256 (fun _ => none) [] mutualSpans
      mutualLinks).toOption.map (fun tree => (parentIdentity tree.1 firstIdentity,
        parentIdentity tree.1 secondIdentity)) = some (some secondIdentity, some firstIdentity) := by
    decide +kernel
  cases htree : projectOtlpTree exampleSha256 (fun _ => none) [] mutualSpans mutualLinks with
  | error error =>
      rw [htree] at haccepted
      cases haccepted
  | ok tree =>
      rw [htree] at haccepted
      obtain ⟨hfirst, hsecond⟩ := Prod.mk.inj (Option.some.inj haccepted)
      have hforest := hall _ _ _ _ _ tree.1 tree.2 htree
      apply (verified_of_project htree).isForest_iff.mp hforest firstIdentity
      exact .tail (.single hsecond) hfirst

end Example

end ChipTrace.Telemetry
