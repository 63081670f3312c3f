/-
The jobs of the platform: the requests it accepts, the object it keeps for each of them
and the file that holds this object.
-/
import ChipTrace.Capture.Envelope
import ChipTrace.Lib.Json.RoundTrip
import ChipTrace.Lib.Json.Validity
import ChipTrace.Lib.KeepFirst

namespace ChipTrace.CloudPlatform

structure PlatformError where
  message : String
  status : Nat
  code : String
deriving DecidableEq

def invalidRequest (message : String) : PlatformError := ⟨message, 400, "INVALID_REQUEST"⟩

def corruptState (message : String) : PlatformError := ⟨message, 503, "CORRUPT_STATE"⟩

def someOr {α : Type} (value : Option α) (error : PlatformError) : Except PlatformError α :=
  match value with
  | some value => .ok value
  | none => .error error

def rejectIf (refused : Bool) (error : PlatformError) : Except PlatformError Unit :=
  if refused then .error error else .ok ()

section Components

/-- `^[A-Za-z0-9][A-Za-z0-9._-]{0,159}$` -/
def isComponent (text : String) : Bool :=
  match text.toList with
  | [] => false
  | first :: rest =>
      isAsciiAlphanumeric first && rest.length ≤ 159 &&
        rest.all fun c => isAsciiAlphanumeric c || c == '.' || c == '_' || c == '-'

/-- An identifier that the platform builds paths and arguments from. -/
structure Component where
  text : String
  valid : isComponent text = true
deriving DecidableEq

def Component.toJson (value : Component) : Json := .str value.text

def component (value : Option Json) (field : String) : Except PlatformError Component :=
  match value with
  | some (.str text) =>
      if valid : isComponent text = true then .ok ⟨text, valid⟩
      else .error (invalidRequest s!"{field} must be a nonempty ASCII identifier")
  | _ => .error (invalidRequest s!"{field} must be a nonempty ASCII identifier")

@[simp] theorem component_toJson (value : Component) (field : String) :
    component (some value.toJson) field = .ok value := by
  change (if valid : isComponent value.text = true then _ else _) = _
  exact dif_pos value.valid

def components (items : List Json) : Except PlatformError (List Component) :=
  items.mapM fun item => component (some item) "usage_log_id"

@[simp] theorem components_toJson (ids : List Component) :
    components (ids.map Component.toJson) = .ok ids := by
  rw [components, List.mapM_map]
  induction ids with
  | nil => rfl
  | cons id rest ih =>
      rw [List.mapM_cons, Function.comp_apply, component_toJson, Except.ok_bind, ih]
      rfl

end Components

section Requests

/-- Between 1 and 32 different usage logs. -/
structure UsageLogs where
  ids : List Component
  nonempty : ids ≠ []
  bounded : ids.length ≤ 32
  distinct : ids.Nodup
deriving DecidableEq

def UsageLogs.toJson (logs : UsageLogs) : Json := .arr (logs.ids.map Component.toJson)

theorem keepFirst_ids_nodup (ids : List Component) : (keepFirst id ids).Nodup := by
  have hkeys : ((keepFirst id ids).map id).Nodup := keepFirst_nodup ids
  rwa [List.map_id] at hkeys

def UsageLogs.ofIds? (ids : List Component) : Option UsageLogs :=
  if h : keepFirst id ids ≠ [] ∧ (keepFirst id ids).length ≤ 32 then
    some ⟨keepFirst id ids, h.1, h.2, keepFirst_ids_nodup ids⟩
  else none

def usageLogs (value : Option Json) : Except PlatformError UsageLogs :=
  match value with
  | some (.arr items) => do
      rejectIf (items.isEmpty || 32 < items.length)
        (invalidRequest "export requires 1..32 usage_log_ids")
      let ids ← components items
      someOr (UsageLogs.ofIds? ids) (invalidRequest "export requires 1..32 usage_log_ids")
  | _ => .error (invalidRequest "export requires 1..32 usage_log_ids")

/-- What a job works on, besides its archive. -/
inductive Target where
  | archive
  | restore
  | inspect (sessionId : Component)
  | exports (sessionId releaseId : Component) (usageLogIds : UsageLogs)
deriving DecidableEq

namespace Target

def kind : Target → String
  | .archive => "archive"
  | .restore => "restore"
  | .inspect _ => "inspect"
  | .exports .. => "export"

def fields : Target → List (String × Json)
  | .archive | .restore => []
  | .inspect sessionId => [("session_id", sessionId.toJson)]
  | .exports sessionId releaseId usageLogIds =>
      [("session_id", sessionId.toJson), ("release_id", releaseId.toJson),
        ("usage_log_ids", usageLogIds.toJson)]

end Target

structure Request where
  id : Component
  archiveId : Component
  target : Target
deriving DecidableEq

def Request.fields (request : Request) : List (String × Json) :=
  [("id", request.id.toJson), ("kind", .str request.target.kind),
    ("archive_id", request.archiveId.toJson)] ++ request.target.fields

def Request.toJson (request : Request) : Json := Json.mkObj request.fields

def requestKeys : List String :=
  ["id", "kind", "archive_id", "session_id", "release_id", "usage_log_ids"]

def withoutExport (object : JsonMap) (target : Target) : Except PlatformError Target := do
  rejectIf (object.containsKey "release_id" || object.containsKey "usage_log_ids")
    (invalidRequest "release and usage logs are only valid for export")
  .ok target

def withoutSession (object : JsonMap) (target : Target) : Except PlatformError Target := do
  rejectIf (object.containsKey "session_id")
    (invalidRequest "session_id is only valid for inspect/export")
  withoutExport object target

def readTarget (object : JsonMap) (kind : String) : Except PlatformError Target :=
  if kind = "archive" then withoutSession object .archive
  else if kind = "restore" then withoutSession object .restore
  else if kind = "inspect" then do
    let sessionId ← component (object.get "session_id") "session_id"
    withoutExport object (.inspect sessionId)
  else if kind = "export" then do
    let sessionId ← component (object.get "session_id") "session_id"
    let releaseId ← component (object.get "release_id") "release_id"
    let usageLogIds ← usageLogs (object.get "usage_log_ids")
    .ok (.exports sessionId releaseId usageLogIds)
  else .error (invalidRequest "unknown job kind")

def normalizeRequest (input : Option Json) : Except PlatformError Request := do
  let object : JsonMap ← someOr (input.bind Json.asObject) (invalidRequest "job must be an object")
  match object.find? fun field => ! requestKeys.contains field.1 with
  | some (key, _) => .error (invalidRequest s!"unsupported job field: {key}")
  | none => do
      let id ← component (object.get "id") "id"
      let archiveId ← component (object.get "archive_id") "archive_id"
      let kind ← someOr ((object.get "kind").bind Json.asStr) (invalidRequest "unknown job kind")
      let target ← readTarget object kind
      .ok ⟨id, archiveId, target⟩

theorem keepFirst_eq_self {ids : List Component} (h : ids.Nodup) : keepFirst id ids = ids := by
  have hnodup : (ids.map id).Nodup := by simpa using h
  have hsame := (@keepFirst_append_eq_self _ _ _ id ids [] hnodup).mpr (by simp)
  simpa using hsame

@[simp] theorem usageLogs_toJson (logs : UsageLogs) :
    usageLogs (some logs.toJson) = .ok logs := by
  have hlength : ((logs.ids.map Component.toJson).isEmpty ||
      decide (32 < (logs.ids.map Component.toJson).length)) = false := by
    simp [logs.nonempty, logs.bounded]
  have hids : UsageLogs.ofIds? logs.ids = some logs := by
    rw [UsageLogs.ofIds?, dif_pos]
    · simp only [keepFirst_eq_self logs.distinct]
    · rw [keepFirst_eq_self logs.distinct]
      exact ⟨logs.nonempty, logs.bounded⟩
  change usageLogs (some (.arr (logs.ids.map Component.toJson))) = _
  rw [usageLogs]
  simp only [hlength, components_toJson, rejectIf, Bool.false_eq_true, if_false, Except.ok_bind,
    hids, someOr]

theorem Request.fields_nodup (request : Request) : (request.fields.map Prod.fst).Nodup := by
  cases request with
  | mk id archiveId target => cases target <;> simp [fields, Target.fields]

theorem Request.keys_allowed (request : Request) :
    ∀ field ∈ request.fields, requestKeys.contains field.1 = true := by
  cases request with
  | mk id archiveId target => cases target <;> simp [fields, Target.fields, requestKeys]

theorem Request.get_toJson (request : Request) (key : String) :
    request.toJson.get? key = OrdMap.lookup key request.fields :=
  Json.get?_mkObj request.fields_nodup key

theorem UsageLogs.toJson_wellFormed (logs : UsageLogs) : logs.toJson.WellFormed := by
  refine Json.wellFormedItems_iff.mpr fun item hitem => ?_
  obtain ⟨log, _, rfl⟩ := List.mem_map.mp hitem
  trivial

theorem Target.fields_wellFormed (target : Target) :
    ∀ field ∈ target.fields, field.2.WellFormed := by
  have hcomponent : ∀ value : Component, value.toJson.WellFormed := fun _ => trivial
  cases target <;> simp [fields, hcomponent, UsageLogs.toJson_wellFormed]

theorem Request.toJson_wellFormed (request : Request) : request.toJson.WellFormed := by
  apply Json.mkObj_wellFormed
  have hkind : (Json.str request.target.kind).WellFormed := trivial
  have hcomponent : ∀ value : Component, value.toJson.WellFormed := fun _ => trivial
  simpa [fields, or_imp, forall_and, hkind, hcomponent] using request.target.fields_wellFormed

/-- A request that was accepted is accepted again as it is. -/
theorem normalizeRequest_toJson (request : Request) :
    normalizeRequest (some request.toJson) = .ok request := by
  have hget : ∀ key, JsonMap.get (Json.mkFields request.fields) key =
      OrdMap.lookup key request.fields := request.get_toJson
  have hnone : (Json.mkFields request.fields).find?
      (fun field => ! requestKeys.contains field.1) = none := by
    refine List.find?_eq_none.mpr fun field hfield => ?_
    have hlookup := (OrdMap.mem_iff_lookup (Json.sorted_mkFields _) field.1 field.2).mp hfield
    have hmem := OrdMap.mem_of_lookup ((hget field.1).symm.trans hlookup)
    simpa using request.keys_allowed _ hmem
  change normalizeRequest (some (.obj (Json.mkFields request.fields))) = _
  generalize Json.mkFields request.fields = object at hget hnone
  rw [normalizeRequest]
  simp only [someOr, Option.bind_some, Json.asObject, Except.ok_bind, hnone, hget]
  cases request with
  | mk id archiveId target =>
      cases target <;>
        simp [Request.fields, Target.fields, Target.kind, OrdMap.lookup, Json.asStr, readTarget,
          withoutSession, withoutExport, JsonMap.containsKey, rejectIf, hget]

end Requests

section Text

/-- A text whose reader does not limit the nesting. -/
def parseDeep (text : List Char) : Option Json :=
  match Json.parseValue (2 * text.length + 2) (2 * text.length + 2) text with
  | some (value, rest) => if Json.skipSpace rest = [] then some value else none
  | none => none

mutual

theorem depth_le_size : ∀ value : Json, value.depth ≤ Json.size value
  | .null | .bool _ | .num _ | .str _ => Nat.zero_le _
  | .arr items => Nat.succ_le_succ (depthItems_le_size items)
  | .obj fields => Nat.succ_le_succ (depthFields_le_size fields)

theorem depthItems_le_size : ∀ items : List Json, Json.depthItems items ≤ Json.sizeItems items
  | [] => Nat.le_refl _
  | item :: rest => by
      have hitem := depth_le_size item
      have hrest := depthItems_le_size rest
      rw [Json.depthItems, Json.sizeItems]
      omega

theorem depthFields_le_size : ∀ fields : List (String × Json),
    Json.depthFields fields ≤ Json.sizeFields fields
  | [] => Nat.le_refl _
  | (_, value) :: rest => by
      have hvalue := depth_le_size value
      have hrest := depthFields_le_size rest
      rw [Json.depthFields, Json.sizeFields]
      omega

end

theorem parseDeep_line {value : Json} (hwf : value.WellFormed) :
    parseDeep (Json.print value ++ ['\n']) = some value := by
  have hsize := Json.size_le_print value
  have hdepth := depth_le_size value
  have hlength : (Json.print value ++ ['\n']).length = (Json.print value).length + 1 := by simp
  have hread := Json.parseValue_print value (2 * (Json.print value ++ ['\n']).length + 2)
    (2 * (Json.print value ++ ['\n']).length + 2) ['\n'] hwf (by omega) (Json.numeralEnd_cons (by decide))
  rcases hread with ⟨hok, _⟩ | ⟨_, hwhy⟩
  · rw [parseDeep, hok]
    rfl
  · omega

end Text

section Jobs

inductive Status where
  | queued
  | running
  | completed
  | failed
deriving DecidableEq

namespace Status

def all : List Status := [.queued, .running, .completed, .failed]

def name : Status → String
  | .queued => "queued"
  | .running => "running"
  | .completed => "completed"
  | .failed => "failed"

def ofName? (text : String) : Option Status := all.find? fun status => status.name == text

theorem ofName?_name (status : Status) : ofName? status.name = some status := by
  cases status <;> decide

/-- The job is done and keeps its status. -/
def isSettled : Status → Bool
  | .completed | .failed => true
  | .queued | .running => false

end Status

/-- The fields of a job besides those that identify it. -/
inductive Detail where
  | phase
  | updatedAt
  | result
  | artifacts
  | turns
  | error
deriving DecidableEq

def Detail.key : Detail → String
  | .phase => "phase"
  | .updatedAt => "updated_at"
  | .result => "result"
  | .artifacts => "artifacts"
  | .turns => "turns"
  | .error => "error"

def jobSchema : String := "chiptrace.platform-job.v1"

def jobKeys : List String := ["schema_version", "request", "status", "created_at", "attempt"]

theorem Detail.key_not_jobKey (detail : Detail) : detail.key ∉ jobKeys := by
  cases detail <;> decide

/-- A value as a JSON text has it. -/
structure Value where
  json : Json
  wellFormed : json.WellFormed

def textValue (text : String) : Value := ⟨.str text, trivial⟩

/-- The other fields of a job object. -/
structure Details where
  fields : JsonMap
  wellFormed : (Json.obj fields).WellFormed
  others : ∀ key ∈ jobKeys, fields.get key = none
deriving DecidableEq

namespace Details

def empty : Details := ⟨[], ⟨OrdMap.sorted_nil, trivial⟩, fun _ _ => rfl⟩

def set (details : Details) (detail : Detail) (value : Value) : Details where
  fields := details.fields.insert detail.key value.json
  wellFormed := details.wellFormed.insert value.wellFormed
  others key hkey := by
    have hne : key ≠ detail.key := fun hsame => detail.key_not_jobKey (by rwa [← hsame])
    rw [JsonMap.get_insert_of_ne hne]
    exact details.others key hkey

def drop (details : Details) (detail : Detail) : Details where
  fields := details.fields.remove detail.key
  wellFormed := details.wellFormed.erase
  others key hkey := by
    have hne : key ≠ detail.key := fun hsame => detail.key_not_jobKey (by rwa [← hsame])
    rw [JsonMap.get_remove_of_ne hne]
    exact details.others key hkey

/-- What is left of an object without the fields that identify a job. -/
def ofObject (object : JsonMap) (hwf : (Json.obj object).WellFormed) : Details where
  fields := object.filter fun field => ! jobKeys.contains field.1
  wellFormed := by
    refine ⟨hwf.1.filter _, Json.wellFormedFields_iff.mpr fun field hfield => ?_⟩
    exact Json.wellFormedFields_iff.mp hwf.2 field (List.mem_filter.mp hfield).1
  others key hkey := by
    apply OrdMap.lookup_eq_none_of_not_mem
    intro hmem
    obtain ⟨field, hfield, rfl⟩ := List.mem_map.mp hmem
    simpa [hkey] using (List.mem_filter.mp hfield).2

theorem get_ofObject {object : JsonMap} (hwf : (Json.obj object).WellFormed) {key : String}
    (hkey : key ∉ jobKeys) : (ofObject object hwf).fields.get key = object.get key := by
  refine Option.ext fun value => ?_
  rw [← OrdMap.mem_iff_lookup (ofObject object hwf).wellFormed.1,
    ← OrdMap.mem_iff_lookup hwf.1]
  simp [ofObject, hkey]

@[ext] theorem ext {left right : Details} (h : ∀ key, left.fields.get key = right.fields.get key) :
    left = right := by
  have hfields : left.fields = right.fields :=
    OrdMap.ext_of_sorted left.wellFormed.1 right.wellFormed.1 h
  cases left
  cases right
  simpa using hfields

end Details

structure Job where
  request : Request
  status : Status
  createdAt : String
  attempt : Nat
  details : Details
deriving DecidableEq

namespace Job

def ownFields (job : Job) : List (String × Json) :=
  [("schema_version", .str jobSchema), ("request", job.request.toJson),
    ("status", .str job.status.name), ("created_at", .str job.createdAt),
    ("attempt", .num job.attempt)]

def object (job : Job) : JsonMap :=
  job.ownFields.foldl (fun built field => built.insert field.1 field.2) job.details.fields

def toJson (job : Job) : Json := .obj job.object

/-- `JSON.stringify` of the job. -/
def text (job : Job) : Bytes := jsonBytes job.toJson

/-- The bytes of its file. -/
def fileBytes (job : Job) : Bytes := job.text ++ [10]

def fileName (job : Job) : String := job.request.id.text ++ ".json"

theorem get_object (job : Job) (key : String) :
    job.object.get key = (OrdMap.lookup key job.ownFields).or (job.details.fields.get key) := by
  simp only [object, ownFields, List.foldl_cons, List.foldl_nil, JsonMap.get_insert,
    OrdMap.lookup]
  split_ifs <;> simp_all

theorem toJson_wellFormed (job : Job) : job.toJson.WellFormed := by
  have hstr : ∀ text, (Json.str text).WellFormed := fun _ => trivial
  have hnum : ∀ n, (Json.num n).WellFormed := fun _ => trivial
  have hfields : ∀ field ∈ job.ownFields, field.2.WellFormed := by
    simp [ownFields, hstr, hnum, job.request.toJson_wellFormed]
  exact foldl_preserves _ (fun built => (Json.obj built).WellFormed) job.ownFields
    (fun field hfield built hbuilt => hbuilt.insert (hfields field hfield)) _
    job.details.wellFormed

end Job

/-- `1024 * 1024` -/
def maxJobBytes : Nat := 1048576

def maxSafeInteger : Nat := 9007199254740991

def readAttempt (value : Option Json) : Option Nat :=
  match value with
  | some (.num n) => if 0 ≤ n ∧ n ≤ maxSafeInteger then some n.toNat else none
  | _ => none

theorem parseDeep_wellFormed {text : List Char} {value : Json} (h : parseDeep text = some value) :
    value.WellFormed := by
  rw [parseDeep] at h
  split at h
  · rename_i parsed rest hvalue
    split_ifs at h
    cases h
    exact ((Json.parserFits _).value hvalue).wellFormed
  · cases h

def readValue (bytes : Bytes) : Option Value :=
  match h : (Bytes.decode? bytes).bind parseDeep with
  | none => none
  | some json => some ⟨json, by
      obtain ⟨text, _, htext⟩ := Option.bind_eq_some_iff.mp h
      exact parseDeep_wellFormed htext⟩

def readObject (value : Value) : Option { object : JsonMap // (Json.obj object).WellFormed } :=
  match value with
  | ⟨.obj fields, hwf⟩ => some ⟨fields, hwf⟩
  | _ => none

def invalidJobFile : PlatformError := corruptState "invalid persisted job file"

def invalidJob : PlatformError := corruptState "invalid persisted job"

/-- One turn of the loop of `start`: the job of a file of this name, before it is
recovered. -/
def loadJob (name : String) (bytes : Bytes) : Except PlatformError Job := do
  rejectIf (maxJobBytes < bytes.length) invalidJobFile
  let value ← someOr (readValue bytes) invalidJobFile
  let ⟨object, hwf⟩ ← someOr (readObject value) (invalidRequest "job must be an object")
  let request ← normalizeRequest (object.get "request")
  rejectIf (name ≠ request.id.text ++ ".json" || object.get "schema_version" ≠ some (.str jobSchema))
    invalidJob
  let status ← someOr (((object.get "status").bind Json.asStr).bind Status.ofName?) invalidJob
  let attempt ← someOr (readAttempt (object.get "attempt")) invalidJob
  let createdAt ← someOr ((object.get "created_at").bind Json.asStr) invalidJob
  .ok ⟨request, status, createdAt, attempt, .ofObject object hwf⟩

theorem readValue_fileBytes (job : Job) :
    readValue job.fileBytes = some ⟨job.toJson, job.toJson_wellFormed⟩ := by
  have hline : job.fileBytes = Bytes.encode (Json.print job.toJson ++ ['\n']) := by
    rw [Bytes.encode_append]
    rfl
  have hparse : (Bytes.decode? job.fileBytes).bind parseDeep = some job.toJson := by
    rw [hline, Bytes.decode?_encode, Option.bind_some, parseDeep_line job.toJson_wellFormed]
  rw [readValue]
  split
  · rename_i hnone
    rw [hparse] at hnone
    cases hnone
  · rename_i json hsome
    rw [hparse] at hsome
    cases hsome
    rfl

/-- A file is rejected for its size, or for an attempt that is not a safe integer; else the
job is loaded as it was saved. -/
theorem loadJob_fileBytes {job loaded : Job} :
    loadJob job.fileName job.fileBytes = .ok loaded ↔
      loaded = job ∧ job.fileBytes.length ≤ maxJobBytes ∧ job.attempt ≤ maxSafeInteger := by
  have hget : ∀ key, job.object.get key =
      (OrdMap.lookup key job.ownFields).or (job.details.fields.get key) := job.get_object
  have hread : readAttempt (some (.num job.attempt)) =
      if job.attempt ≤ maxSafeInteger then some job.attempt else none := by
    rw [readAttempt]
    simp only [Int.natCast_nonneg, true_and, Nat.cast_le, Int.toNat_natCast]
  have hwf : (Json.obj job.object).WellFormed := job.toJson_wellFormed
  have hdetails : Details.ofObject job.object hwf = job.details := by
    ext1 key
    by_cases hkey : key ∈ jobKeys
    · rw [Details.others _ key hkey, job.details.others key hkey]
    · rw [Details.get_ofObject hwf hkey, hget]
      simp only [jobKeys, List.mem_cons, List.not_mem_nil, or_false, not_or] at hkey
      simp [Job.ownFields, OrdMap.lookup, hkey]
  rw [loadJob, readValue_fileBytes]
  by_cases hlength : maxJobBytes < job.fileBytes.length
  · simp [rejectIf, hlength, Nat.not_le.mpr hlength]
  · simp only [rejectIf, someOr, readObject, Job.toJson, Except.ok_bind]
    simp only [hget, Job.ownFields, OrdMap.lookup]
    by_cases hattempt : job.attempt ≤ maxSafeInteger
    · have hsame : (job = loaded) ↔ loaded = job := ⟨Eq.symm, Eq.symm⟩
      simp [hlength, normalizeRequest_toJson, Job.fileName, Json.asStr, Status.ofName?_name, hread,
        hdetails, hattempt, Nat.not_lt.mp hlength, hsame]
    · simp [hlength, normalizeRequest_toJson, Job.fileName, Json.asStr, Status.ofName?_name, hread,
        hattempt]

end Jobs

end ChipTrace.CloudPlatform
