/-
The token usage of a Session: what each capture reports, from the response or from a linked
gateway row, and how the captures of one request are settled once.
-/
import ChipTrace.Capture.Validators
import ChipTrace.Lib.OrdSet
import ChipTrace.Lib.UnionFind
import ChipTrace.Sessions.Types

namespace ChipTrace.Assemble

inductive UsageField where
  | inputTokens
  | cachedInputTokens
  | cacheCreationInputTokens
  | outputTokens
  | reasoningTokens
  | totalTokens
  deriving DecidableEq

namespace UsageField

/-- The fields in the order in which they are selected and settled. -/
def all : List UsageField :=
  [.inputTokens, .cachedInputTokens, .cacheCreationInputTokens, .outputTokens, .reasoningTokens,
    .totalTokens]

def name : UsageField → String
  | .inputTokens => "input_tokens"
  | .cachedInputTokens => "cached_input_tokens"
  | .cacheCreationInputTokens => "cache_creation_input_tokens"
  | .outputTokens => "output_tokens"
  | .reasoningTokens => "reasoning_tokens"
  | .totalTokens => "total_tokens"

theorem mem_all (field : UsageField) : field ∈ all := by
  cases field <;> decide

theorem nodup_all : all.Nodup := by decide

end UsageField

namespace Usage

def get (usage : Usage) : UsageField → Nat
  | .inputTokens => usage.inputTokens
  | .cachedInputTokens => usage.cachedInputTokens
  | .cacheCreationInputTokens => usage.cacheCreationInputTokens
  | .outputTokens => usage.outputTokens
  | .reasoningTokens => usage.reasoningTokens
  | .totalTokens => usage.totalTokens

def set (usage : Usage) (field : UsageField) (value : Nat) : Usage :=
  match field with
  | .inputTokens => { usage with inputTokens := value }
  | .cachedInputTokens => { usage with cachedInputTokens := value }
  | .cacheCreationInputTokens => { usage with cacheCreationInputTokens := value }
  | .outputTokens => { usage with outputTokens := value }
  | .reasoningTokens => { usage with reasoningTokens := value }
  | .totalTokens => { usage with totalTokens := value }

@[simp] theorem get_set (usage : Usage) (field other : UsageField) (value : Nat) :
    (usage.set field value).get other = if other = field then value else usage.get other := by
  cases field <;> cases other <;> rfl

theorem ext_get {usage other : Usage} (h : ∀ field, usage.get field = other.get field) :
    usage = other := by
  have hinput := h .inputTokens
  have hcached := h .cachedInputTokens
  have hcreation := h .cacheCreationInputTokens
  have houtput := h .outputTokens
  have hreasoning := h .reasoningTokens
  have htotal := h .totalTokens
  cases usage
  cases other
  simp_all [get]

def ofFields (value : UsageField → Nat) : Usage where
  inputTokens := value .inputTokens
  cachedInputTokens := value .cachedInputTokens
  cacheCreationInputTokens := value .cacheCreationInputTokens
  outputTokens := value .outputTokens
  reasoningTokens := value .reasoningTokens
  totalTokens := value .totalTokens

@[simp] theorem get_ofFields (value : UsageField → Nat) (field : UsageField) :
    (ofFields value).get field = value field := by
  cases field <;> rfl

/-- Field by field, staying at the greatest number. -/
def add (usage other : Usage) : Usage where
  inputTokens := U64.saturatingAdd usage.inputTokens other.inputTokens
  cachedInputTokens := U64.saturatingAdd usage.cachedInputTokens other.cachedInputTokens
  cacheCreationInputTokens :=
    U64.saturatingAdd usage.cacheCreationInputTokens other.cacheCreationInputTokens
  outputTokens := U64.saturatingAdd usage.outputTokens other.outputTokens
  reasoningTokens := U64.saturatingAdd usage.reasoningTokens other.reasoningTokens
  totalTokens := U64.saturatingAdd usage.totalTokens other.totalTokens

@[simp] theorem get_add (usage other : Usage) (field : UsageField) :
    (usage.add other).get field = U64.saturatingAdd (usage.get field) (other.get field) := by
  cases field <;> rfl

def asValue (usage : Usage) : Json :=
  Json.mkObj (UsageField.all.map fun field => (field.name, .num (usage.get field)))

end Usage

namespace UsagePresence

def get (present : UsagePresence) : UsageField → Bool
  | .inputTokens => present.inputTokens
  | .cachedInputTokens => present.cachedInputTokens
  | .cacheCreationInputTokens => present.cacheCreationInputTokens
  | .outputTokens => present.outputTokens
  | .reasoningTokens => present.reasoningTokens
  | .totalTokens => present.totalTokens

def set (present : UsagePresence) (field : UsageField) (value : Bool) : UsagePresence :=
  match field with
  | .inputTokens => { present with inputTokens := value }
  | .cachedInputTokens => { present with cachedInputTokens := value }
  | .cacheCreationInputTokens => { present with cacheCreationInputTokens := value }
  | .outputTokens => { present with outputTokens := value }
  | .reasoningTokens => { present with reasoningTokens := value }
  | .totalTokens => { present with totalTokens := value }

@[simp] theorem get_set (present : UsagePresence) (field other : UsageField) (value : Bool) :
    (present.set field value).get other = if other = field then value else present.get other := by
  cases field <;> cases other <;> rfl

def any (present : UsagePresence) : Bool := UsageField.all.any present.get

def fields (present : UsagePresence) : List String :=
  (UsageField.all.filter present.get).map UsageField.name

/-- What one of two sources has. -/
def or (present other : UsagePresence) : UsagePresence where
  inputTokens := present.inputTokens || other.inputTokens
  cachedInputTokens := present.cachedInputTokens || other.cachedInputTokens
  cacheCreationInputTokens := present.cacheCreationInputTokens || other.cacheCreationInputTokens
  outputTokens := present.outputTokens || other.outputTokens
  reasoningTokens := present.reasoningTokens || other.reasoningTokens
  totalTokens := present.totalTokens || other.totalTokens

def fieldsValue (present : UsagePresence) : Json := .arr (present.fields.map .str)

end UsagePresence

section


variable (sha256 : Bytes → String)

/-- The request id that a join names: the captured one, or that with the prefix of a client id. -/
def transformedRequestId (join : Json) (captured : String) : Option String :=
  match stringField join "transform" with
  | some "exact" => some captured
  | some "comma_separated_member" => some captured
  | some "sub2api_client_prefix" => some s!"client:{captured}"
  | _ => none

/-- The captured request id is the one of the field that the join names. -/
def capturedFieldMatches (capture : ParsedCapture) (join : Json) (captured : String) : Bool :=
  match (join.get? "capture_field").bind Json.asStr with
  | some field =>
      if ["upstreamRequestId", "responseHeaders.x-request-id"].contains field then
        if stringField join "transform" == some "comma_separated_member" then
          capture.upstreamRequestId.any fun value => isCommaMember value captured
        else capture.upstreamRequestId == some captured
      else if ["requestId", "requestHeaders.x-client-request-id",
          "responseHeaders.x-client-request-id"].contains field then
        capture.requestId == some captured
      else false
  | none => false

def gatewayRequestIdLinked (capture : ParsedCapture) (evidence : Json) (requestId : String) :
    Bool :=
  if requestId.isEmpty then false
  else
    match capture.gatewayEvidenceJoin with
    | some join =>
        if !join.isObject then false
        else if stringField join "schema_version" != some "chiptrace.gateway-enrichment.v1" ||
            stringField join "mode" != some "exact_request_id" ||
            stringField join "request_id" != some requestId ||
            stringField join "usage_fact_sha256" !=
              some (gatewayEvidenceFingerprint sha256 (evidence.asObject.getD [])) then false
        else
          match stringField join "capture_request_id" with
          | none => false
          | some captured =>
              match transformedRequestId join captured with
              | none => false
              | some transformed =>
                  if transformed != requestId then false
                  else capturedFieldMatches capture join captured
    | none =>
        capture.upstreamRequestId == some requestId ||
          capture.requestId.any fun captured => requestId == s!"client:{captured}"

def gatewayUsageObservation (evidence : Option Json) : UsageObservation :=
  match evidence with
  | none => {}
  | some evidence =>
      let number := fun field : String => (evidence.get? field).bind Json.asU64
      let cachedInput := number "cache_read_tokens"
      let apiInput := (number "api_input_tokens").or do
        let input ← number "input_tokens"
        let cached ← cachedInput
        pure (U64.saturatingAdd input cached)
      let cacheCreation := number "cache_creation_tokens"
      let output := number "output_tokens"
      let total := do
        let input ← apiInput
        let output ← output
        pure (U64.saturatingAdd input output)
      { values :=
          { inputTokens := apiInput.getD 0
            cachedInputTokens := cachedInput.getD 0
            cacheCreationInputTokens := cacheCreation.getD 0
            outputTokens := output.getD 0
            reasoningTokens := 0
            totalTokens := total.getD 0 }
        present :=
          { inputTokens := apiInput.isSome
            cachedInputTokens := cachedInput.isSome
            cacheCreationInputTokens := cacheCreation.isSome
            outputTokens := output.isSome
            reasoningTokens := false
            totalTokens := total.isSome } }

/-- The values selected so far, where they come from and what contradicts them. -/
structure Selection where
  selected : Usage := {}
  selectedSources : JsonMap := []
  conflicts : OrdSet String := Table.empty

def selectUsageField (captureId : String) (response gateway : UsageObservation)
    (selection : Selection) (field : UsageField) : Selection :=
  let responseValue := response.values.get field
  let gatewayValue := gateway.values.get field
  if response.present.get field then
    { selected := selection.selected.set field responseValue
      selectedSources := selection.selectedSources.insert field.name (.str "response_usage")
      conflicts :=
        if gateway.present.get field && responseValue != gatewayValue then
          selection.conflicts.add
            s!"{captureId}:{field.name}:response={responseValue}:sub2api={gatewayValue}"
        else selection.conflicts }
  else if gateway.present.get field then
    { selection with
      selected := selection.selected.set field gatewayValue
      selectedSources := selection.selectedSources.insert field.name (.str "sub2api_fallback") }
  else
    { selection with
      selectedSources := selection.selectedSources.insert field.name (.str "absent") }

structure ReconciledCaptureUsage where
  values : Usage
  present : UsagePresence
  evidence : JsonMap
  conflicts : OrdSet String

/-- The total is at least the sum of input and output. -/
def raiseTotal (response gateway : UsageObservation) (selection : Selection) : Selection :=
  let derivedTotal :=
    U64.saturatingAdd selection.selected.inputTokens selection.selected.outputTokens
  if selection.selected.totalTokens < derivedTotal then
    { selection with
      selected := { selection.selected with totalTokens := derivedTotal }
      selectedSources :=
        if !response.present.totalTokens && !gateway.present.totalTokens then
          selection.selectedSources.insert "total_tokens"
            (.str "derived_selected_input_plus_output")
        else selection.selectedSources }
  else selection

def reconcileCaptureUsageObservation (capture : ParsedCapture) : ReconciledCaptureUsage :=
  let response := capture.usage
  let gatewayLinked := capture.gatewayEvidence.any fun evidence =>
    gatewayRequestIdLinked sha256 capture evidence ((stringField evidence "request_id").getD "")
  let gateway := gatewayUsageObservation (if gatewayLinked then capture.gatewayEvidence else none)
  let selection := raiseTotal response gateway
    (UsageField.all.foldl (selectUsageField capture.captureId response gateway) {})
  { values := selection.selected
    present := response.present.or gateway.present
    evidence := Json.mkFields
      [("capture_id", .str capture.captureId),
        ("policy", .str "response_usage_then_exact_sub2api_fallback.v1"),
        ("response", Json.mkObj
          [("present", .bool response.present.any),
            ("present_fields", response.present.fieldsValue),
            ("normalized", response.values.asValue),
            ("input_tokens_semantics", .str "api_total_input_including_cache_read")]),
        ("gateway", Json.mkObj
          [("present", .bool gateway.present.any),
            ("request_id_linked", .bool gatewayLinked),
            ("present_fields", gateway.present.fieldsValue),
            ("normalized", gateway.values.asValue),
            ("input_tokens_semantics", .str "sub2api_non_cached_input_plus_cache_read")]),
        ("selected", selection.selected.asValue),
        ("selected_sources", .obj selection.selectedSources),
        ("conflicts", .arr (selection.conflicts.keys.map .str))]
    conflicts := selection.conflicts }

end

end ChipTrace.Assemble
