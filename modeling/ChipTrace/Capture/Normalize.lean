/-
Normalisation of a capture envelope into the bytes that are stored: validation,
body and field normalisation, redaction of credentials and defaults.
-/
import ChipTrace.Capture.Bodies
import ChipTrace.Capture.Promotion

namespace ChipTrace

/-- What a capture proves about the turn it belongs to. -/
structure WireCaptureEvidence where
  turnScoped : Bool
  httpSuccess : Bool
  identityConflict : Bool
  deriving DecidableEq, Repr

structure CaptureRecord where
  captureId : String
  canonical : Bytes
  sha256 : String
  legacyRawSha256 : Option String
  receivedAt : Option String
  model : Option String
  wireEvidence : WireCaptureEvidence
  deriving DecidableEq, Repr

def CaptureRecord.matchesPersistedSha256 (record : CaptureRecord) (persisted : String) : Bool :=
  record.sha256 == persisted || record.legacyRawSha256 == some persisted

def WireCaptureEvidence.fromCapture (object : JsonMap) : WireCaptureEvidence :=
  if object.str? "recordType" != some "api_snapshot" then ⟨false, false, false⟩
  else
    let trace : JsonMap := (object.object? "traceContext").getD []
    let present := fun field => (trace.filled? field).isSome
    let session := present "source_session_id" || present "session_id"
    let turn := present "turn_id" || present "root_turn_id"
    let identityConflict := ((object.array? "fieldEvidenceConflicts").getD []).any fun item =>
      ((item.get? "field").bind Json.asStr).any fun field => Text.startsWith field "traceContext."
    { turnScoped := session && turn && !identityConflict
      httpSuccess := (object.u64? "responseStatus").any fun status =>
        200 ≤ status && status < 300
      identityConflict := identityConflict }

section Redaction

/-- The lower-case names of the credentials among the headers of one side. -/
def credentialNames (object : JsonMap) (side : String) : List String :=
  ((object.object? side).getD []).filterMap fun (name, _) =>
    if isSensitive name then some (Text.asciiLower name) else none

def sanitizeSide (object : JsonMap) (side : String) : JsonMap :=
  object.insert side (.obj (((object.object? side).getD []).filter fun (name, _) =>
    !isSensitive name))

/-- Distinct names in order. -/
def orderedNames (names : List String) : List String :=
  (names.foldl (fun (seen : Table String Unit) name => seen.insert name ()) Table.empty).keys

def recordedNames (object : JsonMap) : List String :=
  ((object.array? "redactedHeaders").getD []).filterMap Json.asStr

def sanitizeHeaders (object : JsonMap) : JsonMap × List String :=
  (sanitizeSide (sanitizeSide object "requestHeaders") "responseHeaders",
    orderedNames (credentialNames object "requestHeaders" ++
      credentialNames object "responseHeaders" ++ recordedNames object))

end Redaction

section Object

def checkCaptureId (object : JsonMap) : Except CaptureError String := do
  let captureId ← okOr (object.str? "captureId") "captureId is required"
  bailIf (256 < (textBytes captureId).length || !isCaptureId captureId)
    "captureId must match cap-[A-Za-z0-9._:-]+ and be <= 256 bytes"
  pure captureId

def checkProducerContract (enforced : Bool) (object : JsonMap) : Checked := do
  bailIf (enforced && object.containsKey "producerEvent")
    "producerEvent is historical read-only data; use Wire, OTLP, or Codex Hook ingest"
  bailIf (enforced && (object.containsKey "rolloutEvent" ||
      object.str? "recordType" == some "rollout_event"))
    "rolloutEvent is historical read-only data; use Wire, OTLP, or Codex Hook ingest"

def checkHeaders (object : JsonMap) (field : String) : Checked :=
  bailIf ((object.get field).any fun value => !value.isNull && !value.isObject)
    s!"{field} must be an object or null"

def checkShape (object : JsonMap) : Checked := do
  ["sourceNamespace", "receivedAt", "startedAt", "finishedAt"].forM
    (validateOptionalString object)
  ["requestHeaders", "responseHeaders"].forM (checkHeaders object)
  validateResponseStatus (object.get "responseStatus")
  bailIf ((object.get "traceContext").any fun value => !value.isNull && !value.isObject)
    "traceContext must be an object or null"
  bailIf ((object.get "observedLifecycleEvents").any fun value =>
      !value.isNull && value.asArray.all fun events =>
        events.any fun event => event.asStr.all String.isEmpty)
    "observedLifecycleEvents must contain non-empty strings"
  bailIf ((evaluationItems object).any fun value =>
      !value.isNull && value.asArray.all fun items => items.any fun item => !item.isObject)
    "evaluationEvidence must contain JSON objects"

def receivedAtOf (object : JsonMap) : Option String :=
  ["receivedAt", "finishedAt", "startedAt"].findSome? object.filled?

def storedDefaults : List (String × Json) :=
  [("traceContext", .obj []), ("observedLifecycleEvents", .arr []),
    ("requestTruncated", .bool false), ("responseTruncated", .bool false),
    ("stream", .bool false), ("captureError", .null)]

/-- The stored form of a validated envelope. -/
def finishEnvelope (object : JsonMap) : JsonMap :=
  let (object, redacted) := sanitizeHeaders object
  let object := object.insert "version" (.str captureSchemaVersion)
  let object := object.insert "redactedHeaders" (.arr (redacted.map .str))
  let object := storedDefaults.foldl (fun object (field, value) =>
    object.orInsert field value) object
  if (object.get "receivedAt").all Json.isNull then
    object.insert "receivedAt" (((receivedAtOf object).map Json.str).getD .null)
  else object

variable (sha256 : Bytes → String)

def checkRecordParts (object : JsonMap) : Checked := do
  validateLifecycleEvent object
  validateToolExecution object
  validateEvaluationEvidence object
  validateRolloutEvent sha256 object
  validateTelemetryBatch sha256 object

def checkPromoted (object : JsonMap) : Checked := do
  validateRecordType object
  validateTraceContext object
  validateFieldEvidence object
  validateGatewayEvidence sha256 object

/-- The stored form of an envelope, with its identifier. -/
def normalizeEnvelope (enforced : Bool) (object : JsonMap) :
    Except CaptureError (String × JsonMap) := do
  let captureId ← checkCaptureId object
  let object := object.orInsert "recordType" (.str "api_snapshot")
  checkProducerContract enforced object
  checkShape object
  checkRecordParts sha256 object
  let object ← normalizeBodyFields sha256 object
  validateResponseDeliveryEvidence object
  let object := promoteProtocolFields object
  checkPromoted sha256 object
  pure (captureId, finishEnvelope object)

end Object

section Bytes

variable (sha256 : Bytes → String)

def readEnvelope (raw : Bytes) : Except CaptureError JsonMap := do
  let value ← match parseBytes raw with
    | some value => .ok value
    | none => .error .json
  okOr value.asObject "capture envelope must be a JSON object"

/-- The normalisation between the two checks of the byte limit. -/
def normalizeUnbounded (raw : Bytes) (enforced : Bool) : Except CaptureError CaptureRecord := do
  let envelope ← readEnvelope raw
  let legacyRawSha256 :=
    if envelope.str? "version" != some captureSchemaVersion then some (sha256 raw) else none
  let (captureId, object) ← normalizeEnvelope sha256 enforced envelope
  let canonical := jsonBytes (.obj object)
  pure ⟨captureId, canonical, sha256 canonical, legacyRawSha256, receivedAtOf object,
    (requestOf object).str? "model", WireCaptureEvidence.fromCapture object⟩

def normalizeCaptureWithPolicy (raw : Bytes) (maxBytes : Nat) (enforced : Bool) :
    Except CaptureError CaptureRecord := do
  bailIf (maxBytes < raw.length) s!"capture envelope exceeds {maxBytes} bytes"
  let record ← normalizeUnbounded sha256 raw enforced
  bailIf (maxBytes < record.canonical.length)
    s!"normalized capture envelope exceeds {maxBytes} bytes"
  pure record

def normalizeCapture (raw : Bytes) (maxBytes : Nat) : Except CaptureError CaptureRecord :=
  normalizeCaptureWithPolicy sha256 raw maxBytes true

def stripCarriageReturn (line : Bytes) : Bytes :=
  if line.getLast? = some 13 then line.dropLast else line

def isAsciiWhitespace (byte : UInt8) : Bool :=
  byte == 32 || byte == 9 || byte == 10 || byte == 12 || byte == 13

/-- One line of a batch, after the records of the lines before it. -/
def normalizeLine (normalize : Bytes → Nat → Except CaptureError CaptureRecord)
    (maxEnvelopeBytes maxRecords : Nat) (records : List CaptureRecord)
    (numbered : Bytes × Nat) : Except CaptureError (List CaptureRecord) :=
  let line := stripCarriageReturn numbered.1
  let number := numbered.2 + 1
  if line.all isAsciiWhitespace then pure records
  else do
    bailIf (maxRecords ≤ records.length) s!"batch contains more than {maxRecords} records"
    let record ← withContext (normalize line maxEnvelopeBytes)
      s!"invalid capture at NDJSON line {number}"
    pure (records ++ [record])

def normalizeCaptureLines (raw : Bytes) (maxEnvelopeBytes maxRecords : Nat)
    (normalize : Bytes → Nat → Except CaptureError CaptureRecord) :
    Except CaptureError (List CaptureRecord) := do
  bailIf (maxRecords == 0) "batch record limit must be positive"
  let records ← (raw.splitOn 10).zipIdx.foldlM
    (normalizeLine normalize maxEnvelopeBytes maxRecords) []
  bailIf records.isEmpty "capture batch is empty"
  pure records

def normalizeCaptureBatch (raw : Bytes) (maxEnvelopeBytes maxRecords : Nat) :
    Except CaptureError (List CaptureRecord) :=
  normalizeCaptureLines raw maxEnvelopeBytes maxRecords (normalizeCapture sha256)

/-- A record read back from the store keeps the bytes it was stored with. -/
def validateStoredCapture (raw : Bytes) : Except CaptureError CaptureRecord := do
  let value ← readEnvelope raw
  let current ← normalizeCaptureWithPolicy sha256 raw
    (U64.saturatingAdd raw.length (1024 * 1024)) false
  let captureId ← okOr (value.str? "captureId") "captureId is required"
  pure ⟨captureId, raw, sha256 raw, none, receivedAtOf value, (requestOf value).str? "model",
    current.wireEvidence⟩

end Bytes

end ChipTrace
