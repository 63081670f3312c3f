/-
Readers of OTLP exports: the containers, the attribute lists with their duplicate
rules, the merged layers of a record and the native identities in them.
-/
import ChipTrace.Capture.Normalize

namespace ChipTrace

def sessionAttributes : List String :=
  ["conversation.id", "session.id", "session_id", "conversation_id", "codex.session_id"]

def turnAttributes : List String := ["turn.id", "turn_id", "codex.turn_id"]

def rootTurnAttributes : List String := ["root_turn.id", "root_turn_id", "codex.root_turn_id"]

section Attributes

/-- The elements of an array field, none when it is something else. -/
def itemsOf (value : Option Json) : List Json := (value.bind Json.asArray).getD []

/-- The key of an attribute; `thread.id` stays in the raw text only. -/
def otlpAttributeKey (entry : Json) : Option String :=
  ((entry.get? "key").bind Json.asStr).filter (· != "thread.id")

/-- Omitted repeated fields and null both mean empty. -/
def optionalOtlpArray (value : Option Json) (path : String) : Except String (List Json) :=
  match value with
  | none | some .null => .ok []
  | some (.arr items) => .ok items
  | some _ => .error s!"OTLP {path} must be an array"

/-- A present metadata message must be an object. -/
def otlpMessageAttributes (message : Option Json) (field : String) :
    Except String (Option Json) :=
  match message with
  | none | some .null => .ok none
  | some (.obj fields) => .ok (JsonMap.get fields "attributes")
  | some _ => .error s!"OTLP {field} must be an object"

def isIdentityAttribute (key : String) : Bool :=
  sessionAttributes.contains key || turnAttributes.contains key ||
    rootTurnAttributes.contains key || key == "thread_id"

def isLifecycleAttribute (key : String) : Bool :=
  ["outcome", "status", "tool_status", "toolStatus"].contains key

def stringValue (value : Option Json) : Option String :=
  (value.bind (Json.get? · "stringValue")).bind Json.asStr

def knownCodeModeOutcomeUpdate (previous current : Option Json) : Bool :=
  stringValue previous == some "interrupted" &&
    (stringValue current).any ["completed", "failed"].contains

/-- The error of a second, different value of a key. -/
def duplicateError (key : String) (previousIndex index : Nat) : String :=
  if isLifecycleAttribute key then
    s!"OTLP has conflicting duplicate lifecycle attribute \"{key}\""
  else if isIdentityAttribute key || key == "codex.context_scope" || key == "event.name" then
    s!"OTLP has conflicting duplicate context attribute \"{key}\""
  else s!"conflicting duplicate OTLP attribute at attributes[{previousIndex}] and attributes[{index}]"

/-- The attributes met so far, each with its position and value. -/
abbrev SeenAttributes := Table String (Nat × Option Json)

/-- One attribute after those before it: a repeated key must repeat its value, except
for source locations and a known status update of a trace. -/
def checkAttribute (allowTraceCodeMetadata allowTraceLifecycle : Bool) (seen : SeenAttributes)
    (numbered : Json × Nat) : Except String SeenAttributes :=
  let entry := numbered.1
  let index := numbered.2
  if !entry.isObject then .error s!"OTLP attributes[{index}] must be an object"
  else match otlpAttributeKey entry with
    | none => .ok seen
    | some key =>
        let value := entry.get? "value"
        match seen.get? key with
        | none => .ok (seen.insert key (index, value))
        | some (previousIndex, previous) =>
            if previous = value ||
                (allowTraceCodeMetadata && Text.startsWith key "code.") ||
                (allowTraceLifecycle && key == "outcome" &&
                  knownCodeModeOutcomeUpdate previous value) then
              .ok (seen.insert key (index, value))
            else .error (duplicateError key previousIndex index)

def validateOtlpAttributesMode (value : Option Json)
    (allowTraceCodeMetadata allowTraceLifecycle : Bool) : Except String Unit := do
  let attributes ← optionalOtlpArray value "attributes"
  let _ ← attributes.zipIdx.foldlM (checkAttribute allowTraceCodeMetadata allowTraceLifecycle)
    (Table.empty : SeenAttributes)
  pure ()

def validateOtlpAttributes (value : Option Json) : Except String Unit :=
  validateOtlpAttributesMode value false false

/-- The text of a string or integer value. -/
def attributeText (value : Json) : Option String :=
  ((value.get? "stringValue").or (value.get? "intValue")).bind fun parsed =>
    parsed.asStr.or (parsed.asI64.map toString)

/-- The attributes of a list that have a text, in its order. -/
def attributeTexts (value : Option Json) : List (String × String) :=
  (itemsOf value).filterMap fun entry => do
    let key ← otlpAttributeKey entry
    let text ← (entry.get? "value").bind attributeText
    pure (key, text)

def attributesForEndpoint (endpoint : String) (value : Option Json)
    (recordName : Option String) : Except String (Table String String) := do
  validateOtlpAttributesMode value (endpoint == "otlp_traces")
    (endpoint == "otlp_traces" && recordName == some "code_mode.handler.execute")
  pure (Table.empty.insertAll (attributeTexts value))

end Attributes

section Identity

/-- A list of names as it is quoted in an error. -/
def quotedNames (names : List String) : String :=
  "[" ++ ", ".intercalate (names.map fun name => "\"" ++ name ++ "\"") ++ "]"

def uniqueAttribute (attributes : Table String String) (keys : List String) :
    Except String (Option String) :=
  let values := orderedNames ((keys.filterMap attributes.get?).filter fun value =>
    !Text.isBlank value)
  if 1 < values.length then
    .error s!"OTLP has conflicting explicit identity aliases: {quotedNames keys}"
  else .ok values.head?

/-- The form of a UUID. -/
def isNativeThread (id : String) : Bool :=
  (textBytes id).length == 36 && (textBytes id).zipIdx.all fun (byte, index) =>
    if [8, 13, 18, 23].contains index then byte == 45
    else isHexDigit (Char.ofNat byte.toNat)

def sessionAttribute (attributes : Table String String) : Except String (Option String) := do
  let explicit ← uniqueAttribute attributes sessionAttributes
  let nativeThread := (attributes.get? "thread_id").filter isNativeThread
  match explicit, nativeThread with
  | some session, some thread =>
      if session = thread then pure (some session)
      else .error "OTLP native thread_id conflicts with its explicit Session"
  | _, _ => pure (explicit.or nativeThread)

/-- The turn, or else the root turn; both must be unambiguous. -/
def turnAttribute (attributes : Table String String) : Except String (Option String) := do
  let native ← uniqueAttribute attributes turnAttributes
  let root ← uniqueAttribute attributes rootTurnAttributes
  pure (native.or root)

/-- The identity attributes of a list that have a text, in its order. -/
def identityTexts (value : Option Json) : List (String × String) :=
  (itemsOf value).filterMap fun entry => do
    let key ← ((entry.get? "key").bind Json.asStr).filter isIdentityAttribute
    let text ← (entry.get? "value").bind attributeText
    pure (key, text)

def mergeIdentityLayer (merged : Table String String) (layer : Option Json) :
    Except String (Table String String) := do
  validateOtlpAttributes layer
  pure (merged.insertAll (identityTexts layer))

/-- The native identity rules on the layers of one record. -/
def validateOtlpIdentityLayers (layers : List (Option Json)) : Except String Unit := do
  let merged ← layers.foldlM mergeIdentityLayer Table.empty
  let _ ← sessionAttribute merged
  let _ ← turnAttribute merged
  pure ()

end Identity

section Exports

/-- The names of an export's containers. -/
structure OtlpFields where
  resources : String
  scopes : String
  records : String
  deriving DecidableEq

def otlpFields (endpoint : String) : Option OtlpFields :=
  match endpoint with
  | "otlp_logs" => some ⟨"resourceLogs", "scopeLogs", "logRecords"⟩
  | "otlp_traces" => some ⟨"resourceSpans", "scopeSpans", "spans"⟩
  | _ => none

def checkObjects (items : List Json) (path : String) (check : Json → Nat → Except String Unit) :
    Except String Unit :=
  items.zipIdx.forM fun (item, index) =>
    if !item.isObject then .error s!"OTLP {path}[{index}] must be an object"
    else check item index

/-- The containers of an export down to its records. -/
def validateOtlpStructure (endpoint : String) (raw : Json) : Except String Unit :=
  match otlpFields endpoint with
  | none => .ok ()
  | some fields =>
      match (raw.get? fields.resources).bind Json.asArray with
      | none => .error s!"OTLP body requires {fields.resources} array"
      | some resources =>
          checkObjects resources fields.resources fun resource resourceIndex => do
            let scopePath := s!"{fields.resources}[{resourceIndex}].{fields.scopes}"
            let scopes ← optionalOtlpArray (resource.get? fields.scopes) scopePath
            checkObjects scopes scopePath fun scope scopeIndex => do
              let recordPath := s!"{scopePath}[{scopeIndex}].{fields.records}"
              let records ← optionalOtlpArray (scope.get? fields.records) recordPath
              checkObjects records recordPath fun _ _ => .ok ()

def resourceTexts (endpoint : String) (resource : Json) : Except String (Table String String) := do
  let attributes ← otlpMessageAttributes (resource.get? "resource") "resource"
  attributesForEndpoint endpoint attributes none

/-- The attributes of a scope over those of its resource. -/
def scopeTexts (endpoint : String) (outer : Table String String) (scope : Json) :
    Except String (Table String String) := do
  let attributes ← otlpMessageAttributes (scope.get? "scope") "scope"
  let texts ← attributesForEndpoint endpoint attributes none
  pure (outer.insertAll texts.entries)

/-- The attributes of a record over those of its scope. -/
def recordTexts (endpoint : String) (outer : Table String String) (record : Json) :
    Except String (Table String String) := do
  let texts ← attributesForEndpoint endpoint (record.get? "attributes")
    ((record.get? "name").bind Json.asStr)
  pure (outer.insertAll texts.entries)

/-- Every record of an export with its merged attributes, up to the first error. -/
def visitOtlpEnvelope {State : Type} (endpoint : String) (raw : Json)
    (visit : State → Json → Table String String → Except String State) (state : State) :
    Except String State :=
  match otlpFields endpoint with
  | none => .ok state
  | some fields => do
      validateOtlpStructure endpoint raw
      (itemsOf (raw.get? fields.resources)).foldlM (fun state resource => do
        let outer ← resourceTexts endpoint resource
        (itemsOf (resource.get? fields.scopes)).foldlM (fun state scope => do
          let layered ← scopeTexts endpoint outer scope
          (itemsOf (scope.get? fields.records)).foldlM (fun state record => do
            let merged ← recordTexts endpoint layered record
            visit state record merged) state) state) state

end Exports

end ChipTrace
