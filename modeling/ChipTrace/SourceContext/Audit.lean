/-
The source-context audit of a Session: every exported record gets one disposition, and the
records that may be another producer's are held back until all captures were read.
-/
import Mathlib.Data.Prod.Lex
import ChipTrace.Lib.OrdSet
import ChipTrace.Lib.Tally
import ChipTrace.RawArchive.Keys
import ChipTrace.Telemetry.Records
import ChipTrace.TurnIdentity.Index
import ChipTrace.Turns.Otlp

namespace ChipTrace.SourceContext

open Telemetry (pointerStr stringField)
open TurnIdentity (hexId rawBatch)

def auditSchemaVersion : String := "chiptrace.source-context-audit.v2"

def maxGroups : Nat := 128

def maxContextSamples : Nat := 1000

structure SourceContextCounts where
  totalRecords : Nat := 0
  turnAssignedRecords : Nat := 0
  sessionLevelRecords : Nat := 0
  processLevelRecords : Nat := 0
  unscopedTurnRecords : Nat := 0
  otherSessionRecords : Nat := 0
  unknownSessionRecords : Nat := 0
  ambientRecords : Nat := 0
  deriving DecidableEq

def SourceContextCounts.checkedTotal (counts : SourceContextCounts) : Except String Nat := do
  let add := U64.checkedAdd "source context audit count overflow"
  let total ← add counts.turnAssignedRecords counts.sessionLevelRecords
  let total ← add total counts.processLevelRecords
  let total ← add total counts.unscopedTurnRecords
  let total ← add total counts.otherSessionRecords
  let total ← add total counts.unknownSessionRecords
  add total counts.ambientRecords

/-- What the exact index of a Session says about a record. -/
structure SourceObservation where
  sessionId : Option String
  turnId : Option String
  requiresTurn : Bool
  processScoped : Bool
  relatedSessions : List String

/-- The exact index: what it says about a record, and why a record has no turn. -/
structure Index where
  otlpSourceObservation : String → Json → Table String String → Except String SourceObservation
  unresolvedReason : Json → Table String String → Except String String

/-- Source, disposition, record name and reason of a gap. -/
abbrev GapKey := String ×ₗ String ×ₗ String ×ₗ String

/-- A gap and the producer that it is held back for. -/
abbrev PendingKey := String ×ₗ GapKey

structure ContextGapSample where
  captureId : String
  recordIndex : Nat
  gap : GapKey
  traceId : Option String
  spanId : Option String
  parentSpanId : Option String

def otlpRecordName (source : String) (record : Json) (attributes : Table String String) :
    Option String :=
  if source = "otlp_logs" then attributes.get? "event.name"
  else (stringField record "name").filter fun name => !Text.isBlank name

/-- The emitting process; a record without a service name has none. -/
def producerFingerprint (attributes : Table String String) : Option String :=
  let filled := fun key => (attributes.get? key).filter fun value => !Text.isBlank value
  let version := (filled "service.version").getD "unknown"
  (filled "service.name").map fun service => s!"{service}@{version}"

/-- A record name that may be printed. -/
def printableName (name : Option String) : String :=
  (name.filter fun name => (textBytes name).length ≤ 160 && !name.toList.any isControl).getD
    "<unnamed>"

structure SourceContextAuditBuilder where
  sessionId : String
  allowed : OrdSet String
  sampleLimit : Nat
  selectedCaptures : Nat := 0
  sources : Table String SourceContextCounts := Table.empty
  groups : Table GapKey Nat := Table.empty
  omittedGapRecords : Nat := 0
  gaps : Nat := 0
  producerHits : Table String Bool := Table.empty
  pending : Table PendingKey Nat := Table.empty
  pendingSamples : List (String × ContextGapSample) := []

section Observe

/-- The counts of a source after an update. -/
def updateCounts (sources : Table String SourceContextCounts) (source : String)
    (update : SourceContextCounts → SourceContextCounts) : Table String SourceContextCounts :=
  sources.insert source (update ((sources.get? source).getD {}))

/-- Add to the count of a key. -/
def raise {K : Type} [LinearOrder K] (tally : Table K Nat) (key : K) (records : Nat) :
    Table K Nat :=
  tally.insert key (Tally.count tally key + records)

def SourceContextAuditBuilder.new (sessionId : String) (allowed : OrdSet String)
    (sampleLimit : Nat) : Except String SourceContextAuditBuilder :=
  if maxContextSamples < sampleLimit then
    .error s!"source context sample limit must be at most {maxContextSamples}"
  else .ok { sessionId, allowed, sampleLimit }

variable (index : Index)

def isAllowed (allowed : OrdSet String) (session : String) : Bool :=
  (allowed.get? session).isSome

def SourceObservation.inSession (observed : SourceObservation) (allowed : OrdSet String) : Bool :=
  observed.sessionId.any (isAllowed allowed)

def SourceObservation.ambiguousSession (observed : SourceObservation) (allowed : OrdSet String) :
    Bool :=
  observed.sessionId.isNone && observed.relatedSessions.any (isAllowed allowed)

/-- What becomes of a record: it is counted at once, or it is a gap. -/
inductive Disposition where
  | counted (update : SourceContextCounts → SourceContextCounts)
  | gap (name : String)

def dispositionOf (observed : SourceObservation) (allowed : OrdSet String) : Disposition :=
  let inSession := observed.inSession allowed
  if observed.processScoped then
    .counted fun counts => { counts with processLevelRecords := counts.processLevelRecords + 1 }
  else if inSession && observed.turnId.isSome then
    .counted fun counts => { counts with turnAssignedRecords := counts.turnAssignedRecords + 1 }
  else if inSession && !observed.requiresTurn then
    .counted fun counts => { counts with sessionLevelRecords := counts.sessionLevelRecords + 1 }
  else if (inSession || observed.ambiguousSession allowed) && observed.requiresTurn then
    .gap "unscoped_turn"
  else if observed.sessionId.isSome then
    .counted fun counts => { counts with otherSessionRecords := counts.otherSessionRecords + 1 }
  else .gap "unknown_session"

/-- A producer that knows the Session is charged for its records. -/
def noteProducer (builder : SourceContextAuditBuilder) (observed : SourceObservation)
    (producer : Option String) : Table String Bool :=
  match producer with
  | some producer =>
      if observed.inSession builder.allowed || observed.ambiguousSession builder.allowed then
        builder.producerHits.insert producer true
      else builder.producerHits
  | none => builder.producerHits

/-- Why a record is a gap. -/
def gapReason (observed : SourceObservation) (allowed : OrdSet String) (record : Json)
    (attributes : Table String String) : Except String String :=
  if observed.ambiguousSession allowed then .ok "ambiguous_session_context"
  else index.unresolvedReason record attributes

/-- A gap is held back for its producer. -/
def holdBack (builder : SourceContextAuditBuilder) (producer : String)
    (sample : ContextGapSample) : SourceContextAuditBuilder :=
  { builder with
    pending := raise builder.pending (toLex (producer, sample.gap)) 1
    pendingSamples :=
      if builder.pendingSamples.length < builder.sampleLimit then
        builder.pendingSamples ++ [(producer, sample)]
      else builder.pendingSamples }

def observeRecord (source captureId : String) (state : SourceContextAuditBuilder × Nat)
    (record : Json) (attributes : Table String String) :
    Except String (SourceContextAuditBuilder × Nat) := do
  let (builder, recordIndex) := state
  let observed ← index.otlpSourceObservation source record attributes
  let producer := producerFingerprint attributes
  let counted := { builder with
    sources := updateCounts builder.sources source fun counts =>
      { counts with totalRecords := counts.totalRecords + 1 }
    producerHits := noteProducer builder observed producer }
  match dispositionOf observed builder.allowed with
  | .counted update =>
      pure ({ counted with sources := updateCounts counted.sources source update },
        recordIndex + 1)
  | .gap disposition =>
      let reason ← gapReason index observed builder.allowed record attributes
      let name := printableName (otlpRecordName source record attributes)
      pure (holdBack counted (producer.getD "")
        ⟨captureId, recordIndex, toLex (source, toLex (disposition, toLex (name, reason))),
          hexId (record.get? "traceId") 32, hexId (record.get? "spanId") 16,
          hexId (record.get? "parentSpanId") 16⟩,
        recordIndex + 1)

/-- The records of one capture, in their order. -/
def observeCapture (builder : SourceContextAuditBuilder) (capture : Json) :
    Except String SourceContextAuditBuilder := do
  let builder := { builder with selectedCaptures := builder.selectedCaptures + 1 }
  match pointerStr capture ["telemetryBatch", "endpoint"] with
  | some endpoint =>
      if endpoint = "otlp_logs" ∨ endpoint = "otlp_traces" then do
        let raw ← rawBatch capture
        let captureId := (stringField capture "captureId").getD "missing"
        let (builder, _) ← visitOtlpEnvelope endpoint raw
          (observeRecord index endpoint captureId) (builder, 0)
        pure builder
      else pure builder
  | none => pure builder

end Observe

section Finish

structure SourceContextAudit where
  schemaVersion : String
  sessionId : String
  producerProfile : String := ""
  selectedCaptures : Nat
  duplicateCapturesRemoved : Nat
  sources : Table String SourceContextCounts
  unscopedOtlpRecords : Nat
  gapGroups : Table GapKey Nat
  omittedGapRecords : Nat
  sampleLimit : Nat
  samples : List ContextGapSample
  omittedSamples : Nat
  ambientProducers : Table String Nat

/-- A record without a producer is charged, and so is one of a producer that knows the Session. -/
def chargeable (hits : Table String Bool) (producer : String) : Bool :=
  producer.isEmpty || (hits.get? producer).getD false

structure Charging where
  sources : Table String SourceContextCounts
  groups : Table GapKey Nat
  omittedGapRecords : Nat
  gaps : Nat
  ambientProducers : Table String Nat := Table.empty

/-- A gap goes to its group, or to no group when there are too many. -/
def addGroup (state : Charging) (gap : GapKey) (records : Nat) : Charging :=
  if (state.groups.get? gap).isSome ∨ state.groups.len < maxGroups then
    { state with groups := raise state.groups gap records }
  else { state with omittedGapRecords := state.omittedGapRecords + records }

/-- The disposition of a gap that is charged to the Session. -/
def chargeGap (disposition : String) (records : Nat) (counts : SourceContextCounts) :
    SourceContextCounts :=
  if disposition = "unscoped_turn" then
    { counts with unscopedTurnRecords := counts.unscopedTurnRecords + records }
  else { counts with unknownSessionRecords := counts.unknownSessionRecords + records }

def charge (hits : Table String Bool) (state : Charging) (entry : PendingKey × Nat) : Charging :=
  let producer := (ofLex entry.1).1
  let gap := (ofLex entry.1).2
  let source := (ofLex gap).1
  let disposition := (ofLex (ofLex gap).2).1
  let records := entry.2
  if chargeable hits producer then
    let charged := addGroup state gap records
    { charged with
      sources := updateCounts state.sources source (chargeGap disposition records)
      gaps := state.gaps + records }
  else
    { state with
      sources :=
        if (state.sources.get? source).isSome then
          updateCounts state.sources source fun counts =>
            { counts with ambientRecords := counts.ambientRecords + records }
        else state.sources
      ambientProducers := raise state.ambientProducers producer records }

/-- Charge gaps that were held back. -/
def SourceContextAuditBuilder.charging (builder : SourceContextAuditBuilder)
    (entries : List (PendingKey × Nat)) : Charging :=
  entries.foldl (charge builder.producerHits)
    ⟨builder.sources, builder.groups, builder.omittedGapRecords, builder.gaps, Table.empty⟩

def SourceContextAuditBuilder.finish (builder : SourceContextAuditBuilder) (duplicates : Nat) :
    SourceContextAudit :=
  let charged := builder.charging builder.pending.entries
  let samples := ((builder.pendingSamples.filter fun sample =>
    chargeable builder.producerHits sample.1).map Prod.snd).take builder.sampleLimit
  { schemaVersion := auditSchemaVersion
    sessionId := builder.sessionId
    selectedCaptures := builder.selectedCaptures
    duplicateCapturesRemoved := duplicates
    sources := charged.sources
    unscopedOtlpRecords := charged.sources.weigh fun _ counts => counts.unscopedTurnRecords
    gapGroups := charged.groups
    omittedGapRecords := charged.omittedGapRecords
    sampleLimit := builder.sampleLimit
    samples
    omittedSamples := charged.gaps - samples.length
    ambientProducers := charged.ambientProducers }

/-- The audit of captures that were selected for a Session. -/
def auditCaptures (index : Index) (sessionId : String) (allowed : OrdSet String)
    (sampleLimit duplicates : Nat) (captures : List Json) : Except String SourceContextAudit := do
  let builder ← SourceContextAuditBuilder.new sessionId allowed sampleLimit
  let builder ← captures.foldlM (observeCapture index) builder
  pure (builder.finish duplicates)

end Finish

section Verify

/-- The counts of one source in a check of an audit, and its unscoped records. -/
def verifySource (audit : SourceContextAudit) (unscoped : Nat) (source : String) :
    Except String Nat :=
  match audit.sources.get? source with
  | none =>
      if audit.producerProfile = "claude-code" then .ok unscoped
      else .error s!"source context audit is missing {source}"
  | some counts => do
      let total ← counts.checkedTotal
      if total ≠ counts.totalRecords then
        throw s!"source context audit {source} counts do not conserve records"
      if counts.unscopedTurnRecords ≠ 0 ∨ counts.unknownSessionRecords ≠ 0 then
        throw (s!"source context audit {source} has unresolved records: " ++
          s!"unscoped_turn_records={counts.unscopedTurnRecords}, " ++
          s!"unknown_session_records={counts.unknownSessionRecords}")
      U64.checkedAdd "source context audit unscoped count overflow" unscoped
        counts.unscopedTurnRecords

def SourceContextAudit.verifyDeliveryReady (audit : SourceContextAudit) (sessionId : String) :
    Except String Unit := do
  if audit.schemaVersion ≠ auditSchemaVersion then
    throw "source context audit has an unsupported schema version"
  if audit.sessionId ≠ sessionId then
    throw "source context audit Session does not match requested Session"
  let unscoped ← ["otlp_logs", "otlp_traces"].foldlM (verifySource audit) 0
  if audit.unscopedOtlpRecords ≠ unscoped then
    throw "source context audit unscoped count does not match source counts"

end Verify

end ChipTrace.SourceContext
