/-
The OTLP export of a projection: the nodes, the parent that the links give each
node, the records, and the check that the records are complete.
-/
import ChipTrace.Telemetry.Records
import ChipTrace.Lib.Preference
import Mathlib.Data.List.Sort
import Mathlib.Data.Rat.Defs

namespace ChipTrace.Telemetry

structure OtlpHierarchy where
  rootSpans : Nat
  internalParentReferences : Nat
  resolvedInternalParents : Nat
  resolvedInternalParentRate : ℚ
  missingParentNodes : List String
  deriving DecidableEq

section Verify

/-- The trace and the span id under which a span is found. -/
abbrev SpanIdentity := String × String

def traceIdOf (span : Json) : String := (stringField span "traceId").getD ""

def identityOf (span : Json) : SpanIdentity :=
  (traceIdOf span, (stringField span "spanId").getD "")

def parentSpanIdOf (span : Json) : Option String := stringField span "parentSpanId"

/-- The one span of a record. -/
def recordSpan (record : Json) : Except String Json :=
  match (pointer record ["resourceSpans", "0", "scopeSpans", "0", "spans"]).bind Json.asArray with
  | none => .error "OTLP record has no spans"
  | some [span] => .ok span
  | some _ => .error "each OTLP JSONL record must contain exactly one span"

/-- The value, or the message that it is missing. -/
def orMissing {α : Type} (value? : Option α) (message : String) : Except String α :=
  match value? with
  | some value => .ok value
  | none => .error message

theorem orMissing_eq_ok_iff {α : Type} {value? : Option α} {message : String} {value : α} :
    orMissing value? message = .ok value ↔ value? = some value := by
  cases value? <;> simp [orMissing]

/-- Enter a span's identity, which must be valid and new. -/
def enterIdentity (identities : List SpanIdentity) (span : Json) :
    Except String (List SpanIdentity) := do
  let traceId ← orMissing (stringField span "traceId") "OTLP span missing traceId"
  let spanId ← orMissing (stringField span "spanId") "OTLP span missing spanId"
  if !validOtelHex traceId 32 || !validOtelHex spanId 16 then
    .error "OTLP span has an invalid traceId or spanId"
  else if identities.contains (traceId, spanId) then
    .error "OTLP export contains a duplicate span identity"
  else .ok (identities ++ [(traceId, spanId)])

def isResolved (identities : List SpanIdentity) (span : Json) : Bool :=
  (parentSpanIdOf span).all fun parent => identities.contains (traceIdOf span, parent)

/-- The counts over spans with the given identities. -/
def countHierarchy (identities : List SpanIdentity) (spans : List Json) : OtlpHierarchy :=
  let roots := spans.filter fun span => (parentSpanIdOf span).isNone
  let references := spans.filter fun span => (parentSpanIdOf span).isSome
  let resolved := references.filter (isResolved identities)
  let missing := references.filter fun span => !isResolved identities span
  { rootSpans := roots.length
    internalParentReferences := references.length
    resolvedInternalParents := resolved.length
    resolvedInternalParentRate :=
      if references.length = 0 then if 0 < roots.length then 1 else 0
      else resolved.length / references.length
    missingParentNodes := (missing.map fun span =>
      traceIdOf span ++ ":" ++ (identityOf span).2).insertionSort (· ≤ ·) }

/-- Some trace that has roots has not exactly one. -/
def rootsDiffer (spans : List Json) : Bool :=
  let traces := (spans.filter fun span => (parentSpanIdOf span).isNone).map traceIdOf
  traces.any fun trace => traces.count trace != 1

def verifyOtlpTree (records : List Json) : Except String OtlpHierarchy := do
  let spans ← records.mapM recordSpan
  let identities ← spans.foldlM enterIdentity []
  let hierarchy := countHierarchy identities spans
  if hierarchy.rootSpans = 0 || rootsDiffer spans || !hierarchy.missingParentNodes.isEmpty ||
      hierarchy.resolvedInternalParents != hierarchy.internalParentReferences ||
      hierarchy.resolvedInternalParentRate != 1 then
    .error "OTLP export does not contain exactly one root per trace"
  else .ok hierarchy

end Verify

section Project

variable (sha256 : Bytes → String) (unixNanos : String → Option Int)

/-- The identity of each node, and all identities given so far. -/
abbrev OtlpNodes := Table String SpanIdentity × List SpanIdentity

def insertOtlpNode (nodes : OtlpNodes) (node : String) (identity : SpanIdentity) :
    Except String OtlpNodes :=
  if nodes.2.contains identity then
    .error s!"multiple canonical nodes map to OTLP identity {identity.1}:{identity.2}"
  else .ok (nodes.1.insert node identity, nodes.2 ++ [identity])

def interactionNode (id : String) : String := "interaction:" ++ id

def runtimeSpanNode (id : String) : String := "runtime-span:" ++ id

def insertInteraction (nodes : OtlpNodes) (interaction : Json) : Except String OtlpNodes :=
  if (sessionId interaction).isNone then .error "ModelInteraction is missing session.id context"
  else match stringField interaction "interaction_id" with
    | none => .error "ModelInteraction missing interaction_id"
    | some id => insertOtlpNode nodes (interactionNode id)
        (projectionIds sha256 interaction "interaction_id")

def insertRuntimeSpan (nodes : OtlpNodes) (span : Json) : Except String OtlpNodes :=
  if (sessionId span).isNone then .error "RuntimeSpan is missing session.id context"
  else match stringField span "span_id" with
    | none => .error "RuntimeSpan missing span_id"
    | some id => insertOtlpNode nodes (runtimeSpanNode id) (projectionIds sha256 span "span_id")

def collectNodes (interactions runtimeSpans : List Json) : Except String OtlpNodes := do
  let nodes ← interactions.foldlM (insertInteraction sha256) (Table.empty, [])
  runtimeSpans.foldlM (insertRuntimeSpan sha256) nodes

/-- The text before the first occurrence of a character. -/
def beforeFirst (c : Char) (text : String) : Option String :=
  if text.toList.contains c then some (String.ofList (text.toList.takeWhile (· != c))) else none

/-- The parent that a link between two present nodes of one trace offers. -/
def offerParent (nodeIds : Table String SpanIdentity) (parent child : String) (priority : Nat) :
    Except String (Option (Candidate String String)) := do
  let parentId ← orMissing (nodeIds.get? parent) s!"InteractionLink parent node is absent: {parent}"
  let childId ← orMissing (nodeIds.get? child) s!"InteractionLink child node is absent: {child}"
  if parentId.1 ≠ childId.1 then
    .error s!"InteractionLink crosses OTLP traces: {parent} -> {child}"
  else .ok (some ⟨child, priority, parent⟩)

/-- The parent that a link offers its child, with the priority of its relation. -/
def linkCandidate (nodeIds : Table String SpanIdentity) (link : Json) :
    Except String (Option (Candidate String String)) :=
  let source := (stringField link "from").getD ""
  let target := (stringField link "to").getD ""
  match (stringField link "relation").getD "" with
  | "runtime_parent_to_child" => offerParent nodeIds source target 40
  | "interaction_to_runtime_span" => offerParent nodeIds source target 25
  | "runtime_parent_to_interaction" => offerParent nodeIds source target 10
  | "model_call_to_runtime_execution" =>
      match (Text.stripPrefix? source "model-call:").bind (beforeFirst ':') with
      | none => .ok none
      | some interactionId =>
          let interaction := interactionNode interactionId
          -- a call of an interaction that is not exported offers nothing
          if (nodeIds.get? interaction).isNone then .ok none
          else offerParent nodeIds interaction target 30
  | _ => .ok none

def multipleParents (child : String) : String :=
  s!"OTLP node {child} has multiple internal parents"

/-- The parents chosen so far, each with the priority of the link that gave it. -/
abbrev ParentNodes := Table String (Nat × String)

def selectParent (nodeIds : Table String SpanIdentity) (parents : ParentNodes) (link : Json) :
    Except String ParentNodes :=
  Preference.chooseItem multipleParents (linkCandidate nodeIds) parents link

def isTaskRoot (span : Json) : Bool := stringField span "span_kind" == some "task_root"

def rootNodes (runtimeSpans : List Json) : List String :=
  ((runtimeSpans.filter isTaskRoot).filterMap (stringField · "span_id")).map runtimeSpanNode

def parentSpanId (nodeIds : Table String SpanIdentity) (parents : ParentNodes) (node : String) :
    Option String :=
  (parents.get? node).bind fun chosen => (nodeIds.get? chosen.2).map Prod.snd

/-- The records of all nodes: roots first, then the other spans, then the interactions. -/
def otlpRecords (interactions runtimeSpans : List Json) (nodeIds : Table String SpanIdentity)
    (parents : ParentNodes) : List Json :=
  (runtimeSpans.filter isTaskRoot ++ runtimeSpans.filter (!isTaskRoot ·)).map (fun span =>
      runtimeOtlp sha256 unixNanos span (parentSpanId nodeIds parents
        (runtimeSpanNode ((stringField span "span_id").getD "missing")))) ++
    interactions.map fun interaction =>
      interactionOtlp sha256 unixNanos interaction (parentSpanId nodeIds parents
        (interactionNode ((stringField interaction "interaction_id").getD "missing")))

/-- The checked records of nodes whose parents are chosen. -/
def buildOtlpTree (interactions runtimeSpans : List Json) (nodeIds : Table String SpanIdentity)
    (parents : ParentNodes) : Except String (List Json × OtlpHierarchy) := do
  let roots := rootNodes runtimeSpans
  let missing := nodeIds.keys.filter fun node =>
    !roots.contains node && (parents.get? node).isNone
  if roots.isEmpty then .error "OTLP export requires at least one canonical root"
  else if !missing.isEmpty then
    .error ("OTLP internal parent is missing for: " ++ ", ".intercalate missing)
  else
    let otlp := otlpRecords sha256 unixNanos interactions runtimeSpans nodeIds parents
    let hierarchy ← verifyOtlpTree otlp
    .ok (otlp, hierarchy)

def projectOtlpTree (interactions runtimeSpans links : List Json) :
    Except String (List Json × OtlpHierarchy) := do
  let nodes ← collectNodes sha256 interactions runtimeSpans
  let parents ← links.foldlM (selectParent nodes.1) Table.empty
  buildOtlpTree sha256 unixNanos interactions runtimeSpans nodes.1 parents

end Project

end ChipTrace.Telemetry
