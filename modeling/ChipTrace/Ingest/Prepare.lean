/-
One ingest request: the raw text is kept as a telemetry batch next to the captures
derived from it, and a stored batch can be derived again.
-/
import ChipTrace.Ingest.Hook
import ChipTrace.Quality.Summary

namespace ChipTrace

def CloudEndpoint.parse (platform : Platform) (value : String) : Except String CloudEndpoint :=
  match value with
  | "otlp_logs" => .ok .otlpLogs
  | "otlp_traces" => .ok .otlpTraces
  | "codex_hook" => .ok .codexHook
  | _ => .error s!"unsupported cloud ingest endpoint {platform.quoted value}"

section Traces

def countNestedRecords (value : Json) (outer middle inner : String) : Nat :=
  U64.ofLength (((itemsOf (value.get? outer)).flatMap fun outer =>
    itemsOf (outer.get? middle)).map fun middle => (itemsOf (middle.get? inner)).length).sum

/-- The identity rules of one span. -/
def checkIdentity (attributes : Table String String) : Except String Unit := do
  let _ ← sessionAttribute attributes
  let _ ← turnAttribute attributes
  pure ()

def validateOtlpTraces (envelope : Json) : Nat × List String :=
  (countNestedRecords envelope "resourceSpans" "scopeSpans" "spans",
    match visitOtlpEnvelope "otlp_traces" envelope (fun _ _ attributes => checkIdentity attributes)
        () with
    | .ok () => []
    | .error error => [error])

end Traces

structure CloudIngestBatch where
  records : List CaptureRecord
  summary : CloudIngestSummary

section Prepare

variable (platform : Platform)

/-- The derivation of one endpoint; an error counts as one conversion error. -/
def deriveEndpoint (endpoint : CloudEndpoint) (envelope : Json) (rawSha256 : String)
    (limit : ByteLimit) : DerivedBatch :=
  match endpoint with
  | .otlpLogs => deriveOtlpLogs platform envelope rawSha256 limit
  | .otlpTraces =>
      let (sourceRecords, errors) := validateOtlpTraces envelope
      ⟨[], sourceRecords, 0, errors⟩
  | .codexHook =>
      match deriveCodexHook platform envelope rawSha256 limit with
      | .ok batch => batch
      | .error error => ⟨[], 1, 0, [error]⟩

/-- A derived capture that only reports an incomplete record. -/
def isTelemetryIncomplete (record : CaptureRecord) : Bool :=
  ((((parseBytes record.canonical).bind (Json.get? · "lifecycleEvent")).bind
    (Json.get? · "type")).bind Json.asStr) == some "telemetry_incomplete"

def summarizeBatch (endpoint : CloudEndpoint) (derived : DerivedBatch) : CloudIngestSummary :=
  let qualityErrorCount :=
    U64.saturatingAdd derived.unknownEvents (U64.ofLength derived.errors.length)
  { endpoint := endpoint.asStr
    sourceRecords := derived.sourceRecords
    derivedCaptures := U64.ofLength derived.records.length
    unknownEvents := derived.unknownEvents
    attributedQualityErrors :=
      min (U64.ofLength (derived.records.countP isTelemetryIncomplete)) qualityErrorCount
    conversionErrors := derived.errors }

/-- The reason counts as an object. -/
def reasonObject (reasons : Table String Nat) : Json :=
  .obj (reasons.entries.map fun entry => (entry.1, .num entry.2))

def telemetryBatchFields (rawJson rawSha256 : String) (summary : CloudIngestSummary) : Json :=
  Json.mkObj
    [("schema_version", .str telemetryBatchSchemaVersion), ("endpoint", .str summary.endpoint),
      ("raw_json", .str rawJson), ("raw_bytes", .num (textBytes rawJson).length),
      ("raw_sha256", .str rawSha256), ("source_records", .num summary.sourceRecords),
      ("derived_captures", .num summary.derivedCaptures),
      ("unknown_events", .num summary.unknownEvents),
      ("attributed_quality_errors", .num summary.attributedQualityErrors),
      ("conversion_errors", .arr (summary.conversionErrors.map Json.str)),
      ("quality_error_reasons", reasonObject (qualityErrorReasons summary))]

/-- The envelope around the raw text. -/
def telemetryBatchValue (rawJson rawSha256 : String) (summary : CloudIngestSummary) : Json :=
  let batchId := platform.stableDigest ["batch", summary.endpoint, rawSha256]
  Json.mkObj
    [("recordType", .str "telemetry_batch"), ("captureId", .str s!"cap-cloud-{batchId}"),
      ("captureStage", .str "event"), ("sourceNamespace", .str cloudSourceNamespace),
      ("telemetryBatch", telemetryBatchFields rawJson rawSha256 summary)]

/-- A body within the limit that is the text of a JSON object. -/
def readIngestBody (raw : Bytes) (limit : ByteLimit) : Except String (String × Json) :=
  if raw.isEmpty then .error "cloud ingest body must not be empty"
  else if limit.any (· < raw.length) then
    .error s!"cloud ingest body exceeds {limit.getD 0} bytes"
  else match Bytes.decode? raw with
    | none => .error s!"cloud ingest body must be UTF-8 JSON: {platform.utf8Error raw}"
    | some text =>
        match Json.parse text with
        | none => .error s!"parse cloud ingest JSON: {(platform.jsonFault raw).text}"
        | some envelope =>
            if !envelope.isObject then .error "cloud ingest body must be a JSON object"
            else .ok (String.ofList text, envelope)

def prepareCloudIngest (endpoint : CloudEndpoint) (raw : Bytes) (limit : ByteLimit) :
    Except String CloudIngestBatch := do
  let (rawJson, envelope) ← readIngestBody platform raw limit
  let rawSha256 := platform.sha256 raw
  let derived := deriveEndpoint platform endpoint envelope rawSha256 limit
  let summary := summarizeBatch endpoint derived
  let record ← platform.normalizeValue limit (telemetryBatchValue platform rawJson rawSha256 summary)
  pure ⟨record :: derived.records, summary⟩

/-- The reason counts of an object. -/
def readReasons (value : Json) : Except String (Table String Nat) := do
  let fields ← required value.asObject
    "telemetryBatch.quality_error_reasons must be a reason-count object"
  fields.foldlM (fun (reasons : Table String Nat) (field : String × Json) => do
    let count ← required field.2.asU64
      "telemetryBatch.quality_error_reasons must be a reason-count object"
    pure (reasons.insert field.1 count)) Table.empty

/-- Derive a stored batch again, without a limit. -/
def revalidateTelemetryBatch (capture : Json) : Except String CloudIngestSummary := do
  let batch ← required ((capture.get? "telemetryBatch").bind Json.asObject)
    "telemetry_batch requires telemetryBatch"
  let endpoint ← required (JsonMap.str? batch "endpoint") "telemetryBatch.endpoint is required"
  let raw ← required (JsonMap.str? batch "raw_json") "telemetryBatch.raw_json is required"
  let endpoint ← CloudEndpoint.parse platform endpoint
  let prepared ← prepareCloudIngest platform endpoint (textBytes raw) none
  match JsonMap.get batch "quality_error_reasons" with
  | none => pure ()
  | some observed => do
      let observed ← readReasons observed
      if observed ≠ qualityErrorReasons prepared.summary then
        throw "telemetryBatch.quality_error_reasons does not match the raw telemetry"
  pure prepared.summary

end Prepare

end ChipTrace
