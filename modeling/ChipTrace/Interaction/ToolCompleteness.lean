/-
What a complete runtime says about the calls of its model: each has a result and an execution, or
evidence that it was never delivered.
-/
import ChipTrace.Interaction.RuntimeIntegrity

namespace ChipTrace.Interaction

open ChipTrace.Telemetry (stringField pointer)

section Links

variable {links : List Json} {relation node : String}

theorem mem_linkSources :
    node ∈ linkSources links relation ↔ ∃ link ∈ links,
      stringField link "relation" = some relation ∧ stringField link "from" = some node := by
  rw [linkSources, List.mem_toFinset, List.mem_filterMap]
  simp only [List.mem_filter, beq_iff_eq, and_assoc]

end Links

section Nodes

theorem rtakeWhile_colon (front : List Char) {text : List Char} (htext : ':' ∉ text) :
    (front ++ ':' :: text).rtakeWhile (· != ':') = text := by
  have hall : ∀ c ∈ text.reverse, (c != ':') = true := by
    intro c hc
    rw [bne_iff_ne]
    rintro rfl
    exact htext (List.mem_reverse.mp hc)
  rw [List.rtakeWhile, List.reverse_append, List.reverse_cons, List.append_assoc,
    List.takeWhile_append_of_pos hall, List.singleton_append,
    List.takeWhile_cons_of_neg (by decide), List.append_nil, List.reverse_reverse]

/-- The text behind the last colon of a node is its call id, if that has no colon. -/
theorem afterLastColon_callNode (interactionId : String) {callId : String}
    (hcolon : ':' ∉ callId.toList) :
    afterLastColon (callNode interactionId callId) = some callId := by
  have hnode : (callNode interactionId callId).toList =
      ("model-call:" ++ interactionId).toList ++ ':' :: callId.toList := by
    simp [callNode, ToString.toString, String.toList_append]
  rw [afterLastColon, hnode, if_pos (by simp), rtakeWhile_colon _ hcolon, String.ofList_toList]

end Nodes

section Evidence

variable {interactions spans links : List Json} {node : String}

/-- The upstream cut a call short: it says so, or the whole response failed. -/
def CutShort (interaction : Json) (callId : String) : Prop :=
  (∃ value ∈ ((pointer interaction ["extensions", "wire", "truncated_model_call_ids"]).bind
      Json.asArray).getD [], value.asStr = some callId) ∨
  isFailedTerminal interaction = true ∧
    ∃ call ∈ arrayField interaction "model_tool_calls", filledField call "call_id" = some callId

theorem abandonedNode_eq {interaction call : Json}
    (hnode : Gateway.explicitlyAbandonedModelCallNode interaction call = some node) :
    ∃ interactionId callId, stringField interaction "interaction_id" = some interactionId ∧
      filledField call "call_id" = some callId ∧ node = callNode interactionId callId := by
  simp only [Gateway.explicitlyAbandonedModelCallNode, Option.bind_eq_bind,
    Option.bind_eq_some_iff] at hnode
  obtain ⟨_, _, hnode⟩ := hnode
  split at hnode
  · cases hnode
  · simp only [Option.bind_eq_some_iff] at hnode
    obtain ⟨_, _, hnode⟩ := hnode
    split at hnode
    · cases hnode
    · split at hnode
      · cases hnode
      · simp only [Option.bind_eq_some_iff] at hnode
        obtain ⟨_, _, _, _, _, _, hnode⟩ := hnode
        split at hnode
        · cases hnode
        · simp only [Option.bind_eq_some_iff] at hnode
          obtain ⟨interactionId, hinteraction, callId, hcall, hname⟩ := hnode
          cases hname
          refine ⟨interactionId, callId, ?_, ?_, rfl⟩
          · simpa only [stringField, Option.bind_eq_some_iff] using hinteraction
          · exact hcall

theorem mem_abandonedModelCallNodes :
    node ∈ abandonedModelCallNodes interactions links ↔
      (∃ interaction ∈ interactions, ∃ call ∈ arrayField interaction "model_tool_calls",
        Gateway.explicitlyAbandonedModelCallNode interaction call = some node) ∧
      node ∉ callsWithResults links ∧ node ∉ callsWithExecution links := by
  rw [abandonedModelCallNodes, Finset.mem_filter, Finset.mem_sdiff,
    cancelledDeliveryCallCandidates, List.mem_toFinset, List.mem_flatMap, and_assoc]
  simp only [List.mem_filterMap]

/-- A call, known by the ids of its interaction and its own, that the client gave up. -/
def Abandoned (interactions : List Json) (interactionId callId : String) : Prop :=
  ∃ interaction ∈ interactions, stringField interaction "interaction_id" = some interactionId ∧
    ∃ call ∈ arrayField interaction "model_tool_calls", filledField call "call_id" = some callId ∧
      Gateway.explicitlyAbandonedModelCallNode interaction call =
        some (callNode interactionId callId)

/-- A call that the upstream cut short. -/
def Truncated (interactions : List Json) (interactionId callId : String) : Prop :=
  ∃ interaction ∈ interactions, stringField interaction "interaction_id" = some interactionId ∧
    CutShort interaction callId

theorem abandoned_of_mem (hnode : node ∈ abandonedModelCallNodes interactions links) :
    ∃ interactionId callId, node = callNode interactionId callId ∧
      Abandoned interactions interactionId callId := by
  obtain ⟨⟨interaction, hmem, call, hcall, hgiven⟩, _⟩ := mem_abandonedModelCallNodes.mp hnode
  obtain ⟨interactionId, callId, hid, hcallId, rfl⟩ := abandonedNode_eq hgiven
  exact ⟨interactionId, callId, rfl, interaction, hmem, hid, call, hcall, hcallId, hgiven⟩

theorem truncated_of_mem (hnode : node ∈ truncatedModelCallNodes interactions links) :
    ∃ interactionId callId, node = callNode interactionId callId ∧
      Truncated interactions interactionId callId := by
  rw [truncatedModelCallNodes, Finset.mem_filter, Finset.mem_union] at hnode
  apply Or.elim hnode.1
  · intro htruncated
    rw [truncatedDeliveryCallCandidates, List.mem_toFinset, List.mem_flatMap] at htruncated
    obtain ⟨interaction, hmem, hvalues⟩ := htruncated
    obtain ⟨value, hvalue, hname⟩ := List.mem_filterMap.mp hvalues
    simp only [Option.bind_eq_bind, Option.bind_eq_some_iff, Option.filter_eq_some_iff,
      Option.pure_def, Option.some.injEq] at hname
    obtain ⟨callId, ⟨htext, _⟩, interactionId, hid, rfl⟩ := hname
    exact ⟨interactionId, callId, rfl, interaction, hmem, hid, Or.inl ⟨value, hvalue, htext⟩⟩
  · intro hfailed
    rw [failedTerminalCallCandidates, List.mem_toFinset, List.mem_flatMap] at hfailed
    obtain ⟨interaction, hmem, hcalls⟩ := hfailed
    obtain ⟨hinteraction, hterminal⟩ := List.mem_filter.mp hmem
    obtain ⟨call, hcall, hname⟩ := List.mem_filterMap.mp hcalls
    simp only [Option.bind_eq_bind, Option.bind_eq_some_iff, Option.pure_def,
      Option.some.injEq] at hname
    obtain ⟨callId, hcallId, interactionId, hid, rfl⟩ := hname
    exact ⟨interactionId, callId, rfl, interaction, hinteraction, hid,
      Or.inr ⟨hterminal, call, hcall, hcallId⟩⟩

theorem not_linked_of_mem_evidenced (hnode : node ∈ evidencedExclusions interactions links) :
    node ∉ callsWithResults links ∧ node ∉ callsWithExecution links := by
  rw [evidencedExclusions, Finset.mem_union] at hnode
  apply Or.elim hnode
  · intro habandoned
    exact (mem_abandonedModelCallNodes.mp habandoned).2
  · intro htruncated
    exact (Finset.mem_filter.mp htruncated).2

end Evidence

section Ids

theorem mem_callIdsOf {nodes : Finset String} {callId : String} :
    callId ∈ callIdsOf nodes ↔ ∃ node ∈ nodes, afterLastColon node = some callId := by
  rw [callIdsOf, Finset.mem_biUnion]
  simp only [Option.mem_toFinset, Option.mem_def]

/-- Where every node is of a call with an id without a colon, those ids are what is listed. -/
theorem callIdsOf_eq {nodes : Finset String} {evidence : String → String → Prop}
    (hevidence : ∀ node ∈ nodes, ∃ interactionId callId,
      node = callNode interactionId callId ∧ evidence interactionId callId)
    (hcolon : ∀ interactionId callId, evidence interactionId callId → ':' ∉ callId.toList)
    {callId : String} :
    callId ∈ callIdsOf nodes ↔ ∃ interactionId,
      callNode interactionId callId ∈ nodes ∧ evidence interactionId callId := by
  rw [mem_callIdsOf]
  constructor
  · intro hlisted
    obtain ⟨node, hmem, hafter⟩ := hlisted
    obtain ⟨interactionId, other, heq, hother⟩ := hevidence node hmem
    rw [heq, afterLastColon_callNode interactionId (hcolon _ other hother),
      Option.some.injEq] at hafter
    rw [← hafter]
    exact ⟨interactionId, heq ▸ hmem, hother⟩
  · intro hnamed
    obtain ⟨interactionId, hmem, hcall⟩ := hnamed
    exact ⟨_, hmem, afterLastColon_callNode interactionId (hcolon _ callId hcall)⟩

end Ids

section Complete

variable {interactions spans links : List Json}

/-- A call of the model, in the interaction that made it. -/
structure ModelCall (interactions : List Json) where
  interaction : Json
  mem : interaction ∈ interactions
  call : Json
  listed : call ∈ arrayField interaction "model_tool_calls"
  callId : String
  named : filledField call "call_id" = some callId

def ModelCall.interactionId (call : ModelCall interactions) : String :=
  interactionIdOr call.interaction

def ModelCall.node (call : ModelCall interactions) : String :=
  callNode call.interactionId call.callId

theorem ModelCall.mem_nodes (call : ModelCall interactions) :
    call.node ∈ modelCallNodes interactions := by
  rw [modelCallNodes, List.mem_toFinset, List.mem_flatMap]
  apply Exists.intro call.interaction
  apply And.intro call.mem
  apply List.mem_filterMap.mpr
  exact ⟨call.call, call.listed, by rw [call.named]; rfl⟩

/-- No interaction has a colon in its id, so that the id ends where a node has the next colon. -/
def PlainInteractions (interactions : List Json) : Prop :=
  ∀ interaction ∈ interactions, ∀ id,
    stringField interaction "interaction_id" = some id → ':' ∉ id.toList

theorem ModelCall.plain (call : ModelCall interactions)
    (hplain : PlainInteractions interactions) : ':' ∉ call.interactionId.toList := by
  rw [ModelCall.interactionId, interactionIdOr]
  cases hid : stringField call.interaction "interaction_id" with
  | none => decide
  | some id => exact hplain _ call.mem id hid

theorem colonSplit_inj {first second rest others : List Char} (hfirst : ':' ∉ first)
    (hsecond : ':' ∉ second) (heq : first ++ ':' :: rest = second ++ ':' :: others) :
    first = second ∧ rest = others := by
  induction first generalizing second with
  | nil =>
      cases second with
      | nil => simpa using heq
      | cons c second =>
          injection heq with hc
          exact absurd (hc ▸ List.mem_cons_self) hsecond
  | cons c first ih =>
      cases second with
      | nil =>
          injection heq with hc
          exact absurd (hc ▸ List.mem_cons_self) hfirst
      | cons d second =>
          injection heq with hc hrest
          have hsame := ih (fun hmem => hfirst (List.mem_cons_of_mem c hmem))
            (fun hmem => hsecond (List.mem_cons_of_mem d hmem)) hrest
          exact ⟨by rw [hc, hsame.1], hsame.2⟩

theorem callNode_inj {interactionId otherId callId otherCallId : String}
    (hplain : ':' ∉ interactionId.toList) (hother : ':' ∉ otherId.toList)
    (heq : callNode interactionId callId = callNode otherId otherCallId) :
    interactionId = otherId ∧ callId = otherCallId := by
  have hchars := congrArg String.toList heq
  simp only [callNode, ToString.toString, String.toList_append] at hchars
  simp only [List.append_assoc, List.append_cancel_left_eq] at hchars
  have hsplit := colonSplit_inj hplain hother (by simpa using hchars)
  exact ⟨String.toList_injective hsplit.1, String.toList_injective hsplit.2⟩

/-- With plain ids of interactions, what excludes a call is evidence of the call itself. -/
theorem ModelCall.evidence_of_mem (hplain : PlainInteractions interactions)
    (call : ModelCall interactions) :
    (call.node ∈ abandonedModelCallNodes interactions links →
      Abandoned interactions call.interactionId call.callId) ∧
    (call.node ∈ truncatedModelCallNodes interactions links →
      Truncated interactions call.interactionId call.callId) := by
  constructor
  · intro hnode
    obtain ⟨interactionId, callId, heq, habandoned⟩ := abandoned_of_mem hnode
    have hid : ':' ∉ interactionId.toList := by
      obtain ⟨interaction, hmem, hid, _⟩ := habandoned
      exact hplain interaction hmem _ hid
    have hsame := callNode_inj (call.plain hplain) hid heq
    rw [hsame.1, hsame.2]
    exact habandoned
  · intro hnode
    obtain ⟨interactionId, callId, heq, htruncated⟩ := truncated_of_mem hnode
    have hid : ':' ∉ interactionId.toList := by
      obtain ⟨interaction, hmem, hid, _⟩ := htruncated
      exact hplain interaction hmem _ hid
    have hsame := callNode_inj (call.plain hplain) hid heq
    rw [hsame.1, hsame.2]
    exact htruncated

/-- A call that a complete runtime does not exclude has a result and an execution. -/
theorem ModelCall.linked_of_complete
    (hcomplete : (runtimeIntegrity interactions spans links).runtimeComplete = true)
    (call : ModelCall interactions)
    (hrequired : call.node ∉ evidencedExclusions interactions links) :
    call.node ∈ callsWithResults links ∧ call.node ∈ callsWithExecution links := by
  have hmem : call.node ∈ requiredModelCallNodes interactions links :=
    Finset.mem_sdiff.mpr ⟨call.mem_nodes, hrequired⟩
  simp only [runtimeIntegrity, Bool.and_eq_true, decide_eq_true_eq,
    Finset.sdiff_eq_empty_iff_subset] at hcomplete
  have hresults : requiredModelCallNodes interactions links ⊆ callsWithResults links := by
    tauto
  have hexecutions : requiredModelCallNodes interactions links ⊆ callsWithExecution links := by
    tauto
  exact ⟨hresults hmem, hexecutions hmem⟩

theorem validLink_of_complete
    (hcomplete : (runtimeIntegrity interactions spans links).runtimeComplete = true)
    {link : Json} (hlink : link ∈ links) {linkId : String}
    (hid : stringField link "link_id" = some linkId) :
    (∃ node ∈ projectionNodes interactions spans, stringField link "from" = some node) ∧
      ∃ node ∈ projectionNodes interactions spans, stringField link "to" = some node := by
  simp only [runtimeIntegrity, Bool.and_eq_true, decide_eq_true_eq] at hcomplete
  have hinvalid : linkId ∉ invalidLinkIds interactions spans links := by
    rw [hcomplete.2]
    exact Finset.notMem_empty linkId
  rw [invalidLinkIds, List.mem_toFinset, List.mem_filterMap] at hinvalid
  have hends : ¬((stringField link "from").all (fun node =>
        decide (node ∉ projectionNodes interactions spans)) = true ∨
      (stringField link "to").all (fun node =>
        decide (node ∉ projectionNodes interactions spans)) = true) := by
    intro hbad
    apply hinvalid
    exact ⟨link, List.mem_filter.mpr ⟨hlink, Bool.or_eq_true_iff.mpr hbad⟩, hid⟩
  rw [not_or] at hends
  constructor
  · cases hfrom : stringField link "from" with
    | none => exact absurd (by rw [hfrom]; rfl) hends.1
    | some node => exact ⟨node, by simpa [hfrom] using hends.1, rfl⟩
  · cases hto : stringField link "to" with
    | none => exact absurd (by rw [hto]; rfl) hends.2
    | some node => exact ⟨node, by simpa [hto] using hends.2, rfl⟩

/-- Each call of a complete runtime has a result and an execution, unless it was never delivered:
only with evidence of that, and without result and execution, is it left out, and listed. -/
theorem runtimeComplete_sound
    (hcomplete : (runtimeIntegrity interactions spans links).runtimeComplete = true) :
    (∀ call : ModelCall interactions,
      call.node ∈ (runtimeIntegrity interactions spans links).abandonedModelCallNodes ∨
      call.node ∈ (runtimeIntegrity interactions spans links).truncatedModelCallNodes ∨
      (∃ link ∈ links, stringField link "relation" = some "model_call_to_submitted_result" ∧
        stringField link "from" = some call.node) ∧
      ∃ link ∈ links, stringField link "relation" = some "model_call_to_runtime_execution" ∧
        stringField link "from" = some call.node) ∧
    (∀ link ∈ links, ∀ linkId, stringField link "link_id" = some linkId →
      (∃ node ∈ projectionNodes interactions spans, stringField link "from" = some node) ∧
        ∃ node ∈ projectionNodes interactions spans, stringField link "to" = some node) ∧
    (∀ node ∈ (runtimeIntegrity interactions spans links).abandonedModelCallNodes,
      ∃ interactionId callId, node = callNode interactionId callId ∧
        Abandoned interactions interactionId callId) ∧
    (∀ node ∈ (runtimeIntegrity interactions spans links).truncatedModelCallNodes,
      ∃ interactionId callId, node = callNode interactionId callId ∧
        Truncated interactions interactionId callId) ∧
    (PlainInteractions interactions → ∀ call : ModelCall interactions,
      (call.node ∈ (runtimeIntegrity interactions spans links).abandonedModelCallNodes →
        Abandoned interactions call.interactionId call.callId) ∧
      (call.node ∈ (runtimeIntegrity interactions spans links).truncatedModelCallNodes →
        Truncated interactions call.interactionId call.callId)) ∧
    (∀ node, node ∈ (runtimeIntegrity interactions spans links).abandonedModelCallNodes ∨
        node ∈ (runtimeIntegrity interactions spans links).truncatedModelCallNodes →
      ∀ link ∈ links, stringField link "from" = some node →
        stringField link "relation" ≠ some "model_call_to_submitted_result" ∧
        stringField link "relation" ≠ some "model_call_to_runtime_execution") ∧
    ((∀ interactionId callId, Abandoned interactions interactionId callId →
        ':' ∉ callId.toList) → ∀ callId,
      callId ∈ (runtimeIntegrity interactions spans links).abandonedModelCallIds ↔
        ∃ interactionId, callNode interactionId callId ∈
            (runtimeIntegrity interactions spans links).abandonedModelCallNodes ∧
          Abandoned interactions interactionId callId) ∧
    ((∀ interactionId callId, Truncated interactions interactionId callId →
        ':' ∉ callId.toList) → ∀ callId,
      callId ∈ (runtimeIntegrity interactions spans links).truncatedModelCallIds ↔
        ∃ interactionId, callNode interactionId callId ∈
            (runtimeIntegrity interactions spans links).truncatedModelCallNodes ∧
          Truncated interactions interactionId callId) := by
  apply And.intro
  · intro call
    rw [← or_assoc]
    by_cases hexcluded : call.node ∈ evidencedExclusions interactions links
    · exact Or.inl (Finset.mem_union.mp hexcluded)
    · have hlinked := call.linked_of_complete hcomplete hexcluded
      exact Or.inr ⟨mem_linkSources.mp hlinked.1, mem_linkSources.mp hlinked.2⟩
  apply And.intro
  · intro link hlink linkId hid
    exact validLink_of_complete hcomplete hlink hid
  apply And.intro
  · intro node hnode
    exact abandoned_of_mem hnode
  apply And.intro
  · intro node hnode
    exact truncated_of_mem hnode
  apply And.intro
  · intro hplain call
    exact call.evidence_of_mem hplain
  apply And.intro
  · intro node hnode link hlink hfrom
    have hfree := not_linked_of_mem_evidenced (Finset.mem_union.mpr hnode)
    constructor
    · intro hrelation
      exact hfree.1 (mem_linkSources.mpr ⟨link, hlink, hrelation, hfrom⟩)
    · intro hrelation
      exact hfree.2 (mem_linkSources.mpr ⟨link, hlink, hrelation, hfrom⟩)
  apply And.intro
  · intro hcolon callId
    exact callIdsOf_eq (fun node hnode => abandoned_of_mem hnode) hcolon
  · intro hcolon callId
    exact callIdsOf_eq (fun node hnode => truncated_of_mem hnode) hcolon

end Complete

section Runs

def lookupCall : Json := .obj [("call_id", .str "lookup")]

/-- An interaction that the upstream ended as failed, after a call. -/
def failedInteraction : Json :=
  .obj [("integrity", .obj [("protocol_complete", .bool true)]), ("interaction_id", .str "first"),
    ("model_tool_calls", .arr [lookupCall]), ("response", .obj [("status", .str "failed")])]

def rootSpan : Json :=
  .obj [("session_id", .str "session"), ("span_id", .str "root"), ("span_kind", .str "task_root"),
    ("status", .str "completed"), ("trace_context", .obj [("session_id", .str "session")])]

def linkOf (relation source target : String) : Json :=
  .obj [("from", .str source), ("link_id", .str s!"{relation}:{target}"),
    ("relation", .str relation), ("to", .str target)]

def rootLink (interactionId : String) : Json :=
  linkOf "interaction_to_runtime_span" s!"interaction:{interactionId}" (spanNode "root")

theorem runtimeComplete_sound_failed :
    ∃ call : ModelCall [failedInteraction],
      call.node ∈ (runtimeIntegrity [failedInteraction] [rootSpan]
        [rootLink "first"]).truncatedModelCallNodes ∧
        Truncated [failedInteraction] "first" call.callId := by
  have hcomplete :
      (runtimeIntegrity [failedInteraction] [rootSpan]
        [rootLink "first"]).runtimeComplete = true := by
    decide +kernel
  have hsound := runtimeComplete_sound hcomplete
  have hplain : PlainInteractions [failedInteraction] := by
    intro interaction hmem id hid
    rw [List.mem_singleton.mp hmem] at hid
    cases hid
    decide
  let call : ModelCall [failedInteraction] :=
    { interaction := failedInteraction
      mem := List.mem_singleton_self failedInteraction
      call := lookupCall
      listed := List.mem_singleton_self lookupCall
      callId := "lookup"
      named := by decide +kernel }
  have hnode : call.node ∈
      (runtimeIntegrity [failedInteraction] [rootSpan]
        [rootLink "first"]).truncatedModelCallNodes := by
    decide +kernel
  have hevidence := (hsound.2.2.2.2.1 hplain call).2 hnode
  exact ⟨call, hnode, hevidence⟩

def callingInteraction : Json :=
  .obj [("interaction_id", .str "first"), ("model_tool_calls", .arr [lookupCall])]

/-- A later request, which submits the result of the call among its history. -/
def laterInteraction (interactionId : String) : Json :=
  .obj [("interaction_id", .str interactionId), ("tool_results_submitted", .arr [lookupCall])]

def conversation : List Json :=
  [callingInteraction, laterInteraction "second", laterInteraction "third"]

def executionSpan : Json :=
  .obj [("span_id", .str "run"), ("span_kind", .str "tool_execution"),
    ("status", .str "completed"), ("trace_context", .obj [("session_id", .str "session")])]

def conversationLinks : List Json :=
  [linkOf "model_call_to_submitted_result" (callNode "first" "lookup") (resultNode "second" 0),
    linkOf "model_call_to_submitted_result" (callNode "first" "lookup") (resultNode "third" 0),
    linkOf "model_call_to_runtime_execution" (callNode "first" "lookup") (spanNode "run"),
    rootLink "first", rootLink "second", rootLink "third"]

/-- A call of a complete runtime has a link to every result that later requests submit for it. -/
theorem not_one_result_each : ¬∀ (interactions spans links : List Json),
    (runtimeIntegrity interactions spans links).runtimeComplete = true →
      ∀ call : ModelCall interactions,
        call.node ∈ evidencedExclusions interactions links ∨
        ∃! target, ∃ link ∈ links,
          stringField link "relation" = some "model_call_to_submitted_result" ∧
            stringField link "from" = some call.node ∧ stringField link "to" = some target := by
  intro hone
  let call : ModelCall conversation :=
    { interaction := callingInteraction
      mem := List.mem_cons_self
      call := lookupCall
      listed := List.mem_singleton_self lookupCall
      callId := "lookup"
      named := by decide +kernel }
  have hcall := hone conversation [rootSpan, executionSpan] conversationLinks
    (by decide +kernel) call
  apply Or.elim hcall
  · intro hexcluded
    exact absurd hexcluded (by decide +kernel)
  · intro hunique
    have hsame : resultNode "second" 0 = resultNode "third" 0 := by
      apply hunique.unique
      · exact ⟨_, List.mem_cons_self, by decide +kernel⟩
      · exact ⟨_, List.mem_cons_of_mem _ List.mem_cons_self, by decide +kernel⟩
    exact absurd hsame (by decide +kernel)

end Runs

end ChipTrace.Interaction
