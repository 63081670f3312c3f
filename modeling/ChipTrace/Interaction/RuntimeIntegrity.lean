/-
What is checked before the runtime records of a projection count as complete: spans, calls, results
and the links between them, as nodes with composed names.
-/
import ChipTrace.Gateway.ClientClose
import ChipTrace.Telemetry.Records
import Mathlib.Data.Finset.Card
import Mathlib.Data.Finset.Image
import Mathlib.Data.Finset.Option
import Mathlib.Data.Finset.Union

namespace ChipTrace.Interaction

open ChipTrace.Telemetry (stringField pointer pointerStr)

section Fields

def arrayField (value : Json) (name : String) : List Json :=
  ((value.get? name).bind Json.asArray).getD []

def pointerBool (value : Json) (path : List String) : Option Bool :=
  (pointer value path).bind Json.asBool

/-- A field that holds more than white space. -/
def filledField (value : Json) (name : String) : Option String :=
  (stringField value name).filter fun text => !Text.isBlank text

def traceString (value : Json) (field : String) : Option String :=
  (((pointer value ["traceContext", field]).or (pointer value ["trace_context", field])).bind
    Json.asStr).filter fun text => !Text.isBlank text

end Fields

section Spans

def runtimeScopeKey (value : Json) (kind identity : String) : String :=
  if kind = "task" then s!"task:{identity}"
  else if kind = "session" then s!"session:{identity}"
  else
    match traceString value "session_id" with
    | none => s!"turn:{identity}"
    | some sessionId => s!"session:{sessionId}\x00turn:{identity}"

def runtimeTaskScope (value : Json) : Option String :=
  match traceString value "task_session_id" with
  | some identity => some (runtimeScopeKey value "task" identity)
  | none =>
      if pointerStr value ["extensions", "scope_kind"] = some "session" then
        (traceString value "session_id").map (runtimeScopeKey value "session")
      else
        match traceString value "root_turn_id" with
        | some identity => some (runtimeScopeKey value "turn" identity)
        | none => (traceString value "session_id").map (runtimeScopeKey value "session")

def runtimeSpanIsTerminal (span : Json) : Bool :=
  ["completed", "failed", "cancelled", "timeout", "incomplete", "closed"].any fun status =>
    stringField span "status" == some status

def runtimeSpanIsDeliveryRoot (span : Json) : Bool :=
  (pointerBool span ["extensions", "delivery_scope_root"]).getD
    (pointerStr span ["extensions", "scope_kind"] != some "session")

/-- The spans that pass a test, by id. -/
def spanIds (spans : List Json) (test : Json → Bool) : Finset String :=
  ((spans.filter test).filterMap fun span => stringField span "span_id").toFinset

def isTaskRoot (span : Json) : Bool := stringField span "span_kind" == some "task_root"

def isScopeRoot (span : Json) : Bool :=
  isTaskRoot span || pointerBool span ["extensions", "scope_root"] == some true

def containerRootSpanIds (spans : List Json) : Finset String :=
  spanIds spans fun span => isScopeRoot span && !runtimeSpanIsDeliveryRoot span

def taskScopes (spans : List Json) : Finset String := (spans.filterMap runtimeTaskScope).toFinset

def unscopedSpanIds (spans : List Json) : Finset String :=
  spanIds spans fun span => (runtimeTaskScope span).isNone

def rootComplete (spans : List Json) : Bool :=
  let scopeRoots := spans.filter isScopeRoot
  let deliveryRoots := scopeRoots.filter runtimeSpanIsDeliveryRoot
  !spans.isEmpty && decide (unscopedSpanIds spans = ∅) && decide (taskScopes spans ≠ ∅) &&
    decide ((spans.filter isTaskRoot).length = 1) &&
    decide (scopeRoots.length = (taskScopes spans).card) &&
    decide (taskScopes scopeRoots = taskScopes spans) && !deliveryRoots.isEmpty &&
    deliveryRoots.all fun span =>
      pointerBool span ["extensions", "root_complete"] == some true && runtimeSpanIsTerminal span

def openSpanIds (spans : List Json) : Finset String :=
  spanIds spans fun span => !runtimeSpanIsTerminal span

def conflictingSpanIds (spans : List Json) : Finset String :=
  spanIds spans fun span => pointerBool span ["extensions", "state_conflict"] == some true

def incompleteResultSpanIds (spans : List Json) : Finset String :=
  spanIds spans fun span => pointerBool span ["extensions", "result_content_captured"] == some false

def qualityFailureSpanIds (spans : List Json) : Finset String :=
  spanIds spans fun span => pointerBool span ["extensions", "quality_gate_failed"] == some true

end Spans

section Links

/-- The nodes where the links of a relation start. -/
def linkSources (links : List Json) (relation : String) : Finset String :=
  ((links.filter fun link => stringField link "relation" == some relation).filterMap fun link =>
    stringField link "from").toFinset

/-- The nodes where the links of a relation end. -/
def linkTargets (links : List Json) (relation : String) : Finset String :=
  ((links.filter fun link => stringField link "relation" == some relation).filterMap fun link =>
    stringField link "to").toFinset

def spanNode (spanId : String) : String := s!"runtime-span:{spanId}"

def unresolvedParentCallSpanIds (spans links : List Json) : Finset String :=
  (spanIds spans fun span => (filledField span "parent_call_id").isSome).filter fun spanId =>
    spanNode spanId ∉ linkTargets links "model_call_to_runtime_execution"

def unlinkedParentSpans (spans links : List Json) : List Json :=
  (spans.filter fun span => (filledField span "parent_span_id").isSome).filter fun span =>
    (stringField span "span_id").all fun spanId =>
      decide (spanNode spanId ∉ linkTargets links "runtime_parent_to_child")

def parentSpanRequired (span : Json) : Bool :=
  pointerBool span ["extensions", "parent_span_required"] == some true ||
    ((pointerStr span ["trace_context", "task_session_id"]).filter fun text =>
      !Text.isBlank text).isSome

def unresolvedParentSpanIds (spans links : List Json) : Finset String :=
  spanIds (unlinkedParentSpans spans links) parentSpanRequired

end Links

section Calls

def callNode (interactionId callId : String) : String := s!"model-call:{interactionId}:{callId}"

def resultNode (interactionId : String) (index : Nat) : String :=
  s!"submitted-result:{interactionId}:{index}"

def interactionIdOr (interaction : Json) : String :=
  (stringField interaction "interaction_id").getD "missing"

def modelCallNodes (interactions : List Json) : Finset String :=
  (interactions.flatMap fun interaction =>
    (arrayField interaction "model_tool_calls").filterMap fun call =>
      (filledField call "call_id").map (callNode (interactionIdOr interaction))).toFinset

def callsWithResults (links : List Json) : Finset String :=
  linkSources links "model_call_to_submitted_result"

def callsWithExecution (links : List Json) : Finset String :=
  linkSources links "model_call_to_runtime_execution"

def runtimeExecutionNodes (spans : List Json) : Finset String :=
  (spanIds spans fun span => stringField span "span_kind" == some "tool_execution" &&
    pointerBool span ["extensions", "model_call_required"] != some false).image spanNode

def runtimeExecutionsWithoutModelCalls (spans links : List Json) : Finset String :=
  runtimeExecutionNodes spans \ linkTargets links "model_call_to_runtime_execution"

def runtimeCallIdsWithoutModelCalls (spans links : List Json) : Finset String :=
  ((spans.filter fun span => (stringField span "span_id").any fun spanId =>
      decide (spanNode spanId ∈ runtimeExecutionsWithoutModelCalls spans links)).filterMap
    fun span => stringField span "call_id").toFinset

/-- The results that are submitted, by their node, with the calls they are for. -/
def submittedResultCallIdsByNode (interactions : List Json) : List (String × String) :=
  interactions.flatMap fun interaction =>
    ((arrayField interaction "tool_results_submitted").zipIdx).filterMap fun (result, index) =>
      (filledField result "call_id").map fun callId =>
        (resultNode (interactionIdOr interaction) index, callId)

def submittedResultNodes (interactions : List Json) : Finset String :=
  ((submittedResultCallIdsByNode interactions).map Prod.fst).toFinset

def submittedResultsWithoutModelCalls (interactions links : List Json) : Finset String :=
  submittedResultNodes interactions \ linkTargets links "model_call_to_submitted_result"

def submittedResultCallIdsWithoutModelCalls (interactions links : List Json) : Finset String :=
  (((submittedResultCallIdsByNode interactions).filter fun entry =>
    decide (entry.1 ∈ submittedResultsWithoutModelCalls interactions links)).map Prod.snd).toFinset

end Calls

section Exclusions

/-- The calls whose delivery the client gave up. -/
def cancelledDeliveryCallCandidates (interactions : List Json) : Finset String :=
  (interactions.flatMap fun interaction =>
    (arrayField interaction "model_tool_calls").filterMap
      (Gateway.explicitlyAbandonedModelCallNode interaction)).toFinset

def abandonedModelCallNodes (interactions links : List Json) : Finset String :=
  (cancelledDeliveryCallCandidates interactions \ callsWithResults links).filter fun node =>
    node ∉ callsWithExecution links

/-- The calls that the upstream ended in the middle. -/
def truncatedDeliveryCallCandidates (interactions : List Json) : Finset String :=
  (interactions.flatMap fun interaction =>
    (((pointer interaction ["extensions", "wire", "truncated_model_call_ids"]).bind
      Json.asArray).getD []).filterMap fun callId => do
        let callId ← callId.asStr.filter fun text => !Text.isBlank text
        let interactionId ← stringField interaction "interaction_id"
        pure (callNode interactionId callId)).toFinset

def isFailedTerminal (interaction : Json) : Bool :=
  pointerStr interaction ["response", "status"] == some "failed" &&
    pointerBool interaction ["integrity", "protocol_complete"] == some true

/-- The calls of responses that the upstream ended as failed. -/
def failedTerminalCallCandidates (interactions : List Json) : Finset String :=
  ((interactions.filter isFailedTerminal).flatMap fun interaction =>
    (arrayField interaction "model_tool_calls").filterMap fun call => do
      let callId ← filledField call "call_id"
      let interactionId ← stringField interaction "interaction_id"
      pure (callNode interactionId callId)).toFinset

def truncatedModelCallNodes (interactions links : List Json) : Finset String :=
  (truncatedDeliveryCallCandidates interactions ∪
    failedTerminalCallCandidates interactions).filter fun node =>
      node ∉ callsWithResults links ∧ node ∉ callsWithExecution links

/-- What stands behind the last colon of a node. -/
def afterLastColon (node : String) : Option String :=
  if node.toList.contains ':' then
    some (String.ofList (node.toList.rtakeWhile (· != ':')))
  else none

def callIdsOf (nodes : Finset String) : Finset String := nodes.biUnion fun node =>
  (afterLastColon node).toFinset

def evidencedExclusions (interactions links : List Json) : Finset String :=
  abandonedModelCallNodes interactions links ∪ truncatedModelCallNodes interactions links

def requiredModelCallNodes (interactions links : List Json) : Finset String :=
  modelCallNodes interactions \ evidencedExclusions interactions links

end Exclusions

section Integrity

def unlinkedInteractionIds (interactions links : List Json) : Finset String :=
  ((interactions.filterMap fun interaction => stringField interaction "interaction_id").filter
    fun id => decide (s!"interaction:{id}" ∉ linkSources links "interaction_to_runtime_span" ∪
      linkTargets links "runtime_parent_to_interaction")).toFinset

def projectionNodes (interactions spans : List Json) : Finset String :=
  ((interactions.flatMap fun interaction =>
      let interactionId := interactionIdOr interaction
      s!"interaction:{interactionId}" ::
        (((arrayField interaction "tool_results_submitted").zipIdx).flatMap fun (result, index) =>
          resultNode interactionId index ::
            ((stringField result "call_id").map (callNode interactionId)).toList) ++
        (arrayField interaction "model_tool_calls").filterMap fun call =>
          (stringField call "call_id").map (callNode interactionId)) ++
    spans.filterMap fun span => (stringField span "span_id").map spanNode).toFinset

def invalidLinkIds (interactions spans links : List Json) : Finset String :=
  ((links.filter fun link =>
      (stringField link "from").all (fun node =>
          decide (node ∉ projectionNodes interactions spans)) ||
        (stringField link "to").all fun node =>
          decide (node ∉ projectionNodes interactions spans)).filterMap
    fun link => stringField link "link_id").toFinset

/-- The outcome of the checks, with the sets that its metrics list. -/
structure RuntimeIntegrity where
  runtimeComplete : Bool
  rootComplete : Bool
  unscopedSpanIds : Finset String
  openSpanIds : Finset String
  conflictingSpanIds : Finset String
  incompleteResultSpanIds : Finset String
  qualityFailureSpanIds : Finset String
  unresolvedParentCallSpanIds : Finset String
  unresolvedParentSpanIds : Finset String
  abandonedModelCallNodes : Finset String
  abandonedModelCallIds : Finset String
  truncatedModelCallNodes : Finset String
  truncatedModelCallIds : Finset String
  callsWithoutResults : Finset String
  callsWithoutExecution : Finset String
  runtimeExecutionsWithoutModelCalls : Finset String
  runtimeCallIdsWithoutModelCalls : Finset String
  submittedResultsWithoutModelCalls : Finset String
  submittedResultCallIdsWithoutModelCalls : Finset String
  unlinkedInteractionIds : Finset String
  invalidLinkIds : Finset String

def runtimeIntegrity (interactions spans links : List Json) : RuntimeIntegrity :=
  let required := requiredModelCallNodes interactions links
  let callsWithoutResults := required \ callsWithResults links
  let callsWithoutExecution := required \ callsWithExecution links
  let containerRoots := containerRootSpanIds spans
  let abandoned := abandonedModelCallNodes interactions links
  let truncated := truncatedModelCallNodes interactions links
  { runtimeComplete :=
      !spans.isEmpty && decide (unscopedSpanIds spans = ∅) &&
        decide (openSpanIds spans \ containerRoots = ∅) &&
        decide (conflictingSpanIds spans \ containerRoots = ∅) &&
        decide (incompleteResultSpanIds spans = ∅) && decide (qualityFailureSpanIds spans = ∅) &&
        decide (unresolvedParentCallSpanIds spans links = ∅) &&
        decide (unresolvedParentSpanIds spans links = ∅) && decide (callsWithoutResults = ∅) &&
        decide (callsWithoutExecution = ∅) &&
        decide (runtimeExecutionsWithoutModelCalls spans links = ∅) &&
        decide (submittedResultsWithoutModelCalls interactions links = ∅) &&
        decide (unlinkedInteractionIds interactions links = ∅) &&
        decide (invalidLinkIds interactions spans links = ∅)
    rootComplete := rootComplete spans
    unscopedSpanIds := unscopedSpanIds spans
    openSpanIds := openSpanIds spans
    conflictingSpanIds := conflictingSpanIds spans
    incompleteResultSpanIds := incompleteResultSpanIds spans
    qualityFailureSpanIds := qualityFailureSpanIds spans
    unresolvedParentCallSpanIds := unresolvedParentCallSpanIds spans links
    unresolvedParentSpanIds := unresolvedParentSpanIds spans links
    abandonedModelCallNodes := abandoned
    abandonedModelCallIds := callIdsOf abandoned
    truncatedModelCallNodes := truncated
    truncatedModelCallIds := callIdsOf truncated
    callsWithoutResults := callsWithoutResults
    callsWithoutExecution := callsWithoutExecution
    runtimeExecutionsWithoutModelCalls := runtimeExecutionsWithoutModelCalls spans links
    runtimeCallIdsWithoutModelCalls := runtimeCallIdsWithoutModelCalls spans links
    submittedResultsWithoutModelCalls := submittedResultsWithoutModelCalls interactions links
    submittedResultCallIdsWithoutModelCalls :=
      submittedResultCallIdsWithoutModelCalls interactions links
    unlinkedInteractionIds := unlinkedInteractionIds interactions links
    invalidLinkIds := invalidLinkIds interactions spans links }

end Integrity

end ChipTrace.Interaction
