/-
The identity of the Session that a capture belongs to, the keys it is grouped and partitioned
under, and the selection of captures by a task or a Session.
-/
import ChipTrace.Capture.Promotion
import ChipTrace.Sessions.Types

namespace ChipTrace.Assemble

/-- Every field of the trace is taken from the first source that has it. -/
def collectTraceContext (capture : Json) (request : JsonMap) : JsonMap :=
  let topLevel := capture.asObject.getD []
  let captured : JsonMap := ((capture.get? "traceContext").bind Json.asObject).getD []
  let metadata := metadataOf request
  let sources : List JsonMap := [captured, topLevel, metadata, turnMetadataOf metadata, request]
  traceAliases.foldl
    (fun output field =>
      match sources.findSome? fun source => field.2.findSome? source.get with
      | some value => output.insert field.1 value
      | none => output)
    []

def requestObject (capture : Json) : JsonMap := requestOf (capture.asObject.getD [])

def traceOf (capture : Json) : JsonMap := collectTraceContext capture (requestObject capture)

/-- A field of the trace that is a text and not blank. -/
def traceText (trace : JsonMap) (field : String) : Option String :=
  (trace.str? field).filter fun text => !Text.isBlank text

def identityFields : List String :=
  ["task_session_id", "task_id", "session_id", "conversation_id", "trace_id", "turn_id",
    "thread_id"]

/-- The identity of a Session and where it was found. -/
def sessionIdentity (captureId : String) (request trace : JsonMap) : String × String :=
  match identityFields.findSome? fun field =>
      (traceText trace field).map fun value => (value, field) with
  | some identity => identity
  | none =>
      match (request.str? "prompt_cache_key").filter fun text => !Text.isBlank text with
      | some value => (value, "prompt_cache_key")
      | none => (captureId, "capture_id_fallback")

def isGlobalSessionIdentity (source : String) : Bool :=
  ["task_session_id", "task_id", "session_id", "conversation_id", "trace_id"].contains source

def captureIdOf (capture : Json) : String := (stringField capture "captureId").getD "missing"

def identityOf (capture : Json) : String × String :=
  sessionIdentity (captureIdOf capture) (requestObject capture) (traceOf capture)

def namespaceOf (capture : Json) : String :=
  ((stringField capture "sourceNamespace").or (stringField capture "apiKeyFingerprint")).getD
    "default"

def sessionGroupKey (capture : Json) : String :=
  let (identity, identitySource) := identityOf capture
  let space := namespaceOf capture
  if isGlobalSessionIdentity identitySource then s!"session\x00{identity}"
  else s!"{space}\x00{identitySource}\x00{identity}"

/-- The Session above that of a capture, if the trace names one. -/
def ancestorSessionId (capture : Json) : Option String :=
  let trace := traceOf capture
  (((trace.get "root_session_id").or (trace.get "parent_session_id")).bind Json.asStr).filter
    fun identity => !Text.isBlank identity

def taskPartitionKey (capture : Json) : String :=
  let (identity, identitySource) := identityOf capture
  let taskIdentity := (ancestorSessionId capture).getD identity
  let space := namespaceOf capture
  if isGlobalSessionIdentity identitySource || (ancestorSessionId capture).isSome then
    s!"task\x00{taskIdentity}"
  else s!"{space}\x00{identitySource}\x00{taskIdentity}"

/-- A field of the captured trace context, whatever its text. -/
def capturedTraceText (capture : Json) (field : String) : Option String :=
  ((capture.get? "traceContext").bind fun context => context.get? field).bind Json.asStr

/-- The task that a capture is in belongs to a given one: by its identity, or through the
Sessions above it. -/
def belongsToTask (task : String) (capture : Json) : Bool :=
  identityOf capture == (task, "task_session_id") ||
    traceText (traceOf capture) "root_session_id" == some task ||
    traceText (traceOf capture) "parent_session_id" == some task

section Lookup

variable {A : Type} (read : String × A → Option Json)

/-- Fields that are collected under distinct names are found under their names. -/
theorem get_foldl_collect {fields : List (String × A)} (hnodup : (fields.map Prod.fst).Nodup)
    {field : String × A} (hfield : field ∈ fields) (start : JsonMap)
    (hstart : start.get field.1 = none) :
    (fields.foldl (fun output field =>
        match read field with
        | some value => output.insert field.1 value
        | none => output) start).get field.1 = read field := by
  have hother : ∀ (rest : List (String × A)) (built : JsonMap), field.1 ∉ rest.map Prod.fst →
      (rest.foldl (fun output field =>
        match read field with
        | some value => output.insert field.1 value
        | none => output) built).get field.1 = built.get field.1 := by
    intro rest
    induction rest with
    | nil => exact fun built _ => rfl
    | cons head rest ih =>
        intro built hnot
        rw [List.map_cons, List.mem_cons, not_or] at hnot
        rw [List.foldl_cons, ih _ hnot.2]
        cases read head with
        | none => rfl
        | some value => exact JsonMap.get_insert_of_ne hnot.1
  induction fields generalizing start with
  | nil => cases hfield
  | cons head rest ih =>
      rw [List.map_cons, List.nodup_cons] at hnodup
      rw [List.foldl_cons]
      rcases List.mem_cons.mp hfield with rfl | hrest
      · rw [hother rest _ hnodup.1]
        cases hread : read field with
        | none => exact hstart
        | some value => exact JsonMap.get_insert_self
      · apply ih hnodup.2 hrest
        have hne : field.1 ≠ head.1 := by
          intro heq
          exact hnodup.1 (heq ▸ List.mem_map_of_mem hrest)
        cases read head with
        | none => exact hstart
        | some value => exact (JsonMap.get_insert_of_ne hne).trans hstart

end Lookup

theorem nodup_traceAliases : (traceAliases.map Prod.fst).Nodup := by decide

/-- The task that the captured trace context names is the one of the trace. -/
theorem traceText_of_captured {capture : Json} {task : String}
    (hcaptured : capturedTraceText capture "task_session_id" = some task)
    (htask : Text.isBlank task = false) :
    traceText (traceOf capture) "task_session_id" = some task := by
  have hget : (traceOf capture).get "task_session_id" = some (.str task) := by
    obtain ⟨context, hcontext, hvalue⟩ := Option.bind_eq_some_iff.mp hcaptured
    obtain ⟨captured, hcapture, hfield⟩ := Option.bind_eq_some_iff.mp hcontext
    have hmember : ("task_session_id", ["task_session_id", "taskSessionId"]) ∈ traceAliases := by
      simp [traceAliases]
    rw [traceOf, collectTraceContext,
      get_foldl_collect _ nodup_traceAliases hmember [] rfl, hcapture]
    cases context with
    | str text =>
        cases captured with
        | obj fields =>
            obtain rfl := Option.some.inj hvalue
            have hlookup : JsonMap.get fields "task_session_id" = some (.str text) := hfield
            simp [Json.asObject, hlookup]
        | _ => cases hfield
    | _ => cases hvalue
  rw [traceText, JsonMap.str?, hget]
  simp [Json.asStr, Option.filter, htask]

theorem identityOf_of_captured {capture : Json} {task : String}
    (hcaptured : capturedTraceText capture "task_session_id" = some task)
    (htask : Text.isBlank task = false) : identityOf capture = (task, "task_session_id") := by
  rw [identityOf, sessionIdentity, identityFields, List.findSome?_cons,
    traceText_of_captured hcaptured htask]
  rfl

end ChipTrace.Assemble
