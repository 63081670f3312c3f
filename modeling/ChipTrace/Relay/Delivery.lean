/-
Delivery of claimed captures to the Collector: what a single request and a batch
request say about each payload, and the update that follows.
-/
import ChipTrace.Lib.Bytes
import ChipTrace.Lib.Checked
import ChipTrace.Relay.Config
import ChipTrace.Relay.Receipt
import Mathlib.Data.List.Forall2
import Mathlib.Data.List.Induction

namespace ChipTrace

/-- A response whose body is `none` when it is not JSON. -/
structure HttpResponse where
  status : StatusCode
  body : Option Json

/-- A request ends in a transport error or in a response. -/
abbrev Reply := Except String HttpResponse

structure DeliveryPayload where
  record : DeliveryRecord
  body : Bytes

/-- The two routes of the remote Collector during one delivery. -/
structure RemoteCollector where
  captures : Bytes → Reply
  capture : DeliveryPayload → Reply

section Updates

def deliveredUpdate (record : DeliveryRecord) : DeliveryUpdate :=
  ⟨record.captureId, .delivered, none, none, by decide⟩

def conflictUpdate (record : DeliveryRecord) (error : String) : DeliveryUpdate :=
  ⟨record.captureId, .conflict, some error, none, by decide⟩

def failedUpdate (record : DeliveryRecord) (error : String) : DeliveryUpdate :=
  ⟨record.captureId, .failed, some error, none, by decide⟩

/-- Back to pending, after a delay that doubles with every attempt. -/
def retryUpdate (config : RelayConfig) (record : DeliveryRecord) (error : String) :
    DeliveryUpdate :=
  let exponent := min (record.attempts - 1) 20
  let baseMs := config.baseRetryDelay % U64.limit
  let maxMs := config.maxRetryDelay % U64.limit
  let delayMs := min (U64.saturatingMul baseMs (2 ^ exponent)) maxMs
  ⟨record.captureId, .pending, some error, some delayMs, by decide⟩

end Updates

section Requests

variable (statusText : StatusCode → String) (config : RelayConfig)

def httpDeliveryFailure (record : DeliveryRecord) (status : StatusCode) : DeliveryUpdate :=
  let error := "remote HTTP " ++ statusText status
  if status = StatusCode.conflict then conflictUpdate record error
  else if isRetryable status then retryUpdate config record error
  else failedUpdate record error

/-- The verdict of a success response of the single route. -/
def acknowledgedUpdate (record : DeliveryRecord) (body : Option Json) : DeliveryUpdate :=
  match body with
  | none => retryUpdate config record "invalid Collector acknowledgement JSON"
  | some payload =>
      match verifyCollectorReceipt record payload with
      | .ok () => deliveredUpdate record
      | .error error => retryUpdate config record error

def sendSingle (remote : RemoteCollector) (payload : DeliveryPayload) : DeliveryUpdate :=
  match remote.capture payload with
  | .error error => retryUpdate config payload.record error
  | .ok response =>
      if response.status.isSuccess then
        acknowledgedUpdate config payload.record response.body
      else httpDeliveryFailure statusText config payload.record response.status

/-- Outcomes by the id they name, and the ids named more than once. -/
structure Outcomes where
  byId : Table String Json
  ambiguousIds : List String

def recordOutcome (outcomes : Outcomes) (outcome : Json) : Outcomes :=
  match getStr outcome "capture_id" with
  | none => outcomes
  | some captureId =>
      { byId := outcomes.byId.insert captureId outcome
        ambiguousIds :=
          if (outcomes.byId.get? captureId).isSome then captureId :: outcomes.ambiguousIds
          else outcomes.ambiguousIds }

def readOutcomes (outcomes : List Json) : Outcomes :=
  outcomes.foldl recordOutcome ⟨Table.empty, []⟩

/-- The `results` of a batch response; anything but an array counts as empty. -/
def batchResults (payload : Json) : List Json :=
  ((payload.get? "results").bind Json.asArray).getD []

/-- An item that answers neither `ok` nor `durable`. -/
def claimsNothing (outcome : Json) : Bool :=
  getBool outcome "ok" != some true && getBool outcome "durable" != some true

def rejectedUpdate (record : DeliveryRecord) (outcome : Json) : DeliveryUpdate :=
  let error := (getStr outcome "detail").getD "remote batch item rejected"
  match (getU64 outcome "http_status").bind itemStatus? with
  | none => retryUpdate config record error
  | some status =>
      if isRetryable status then retryUpdate config record error
      else failedUpdate record error

/-- The verdict of the only outcome that names a record. -/
def outcomeUpdate (record : DeliveryRecord) (outcome : Json) : DeliveryUpdate :=
  if claimsNothing outcome = false then
    match verifyCollectorReceipt record outcome with
    | .ok () => deliveredUpdate record
    | .error error => retryUpdate config record error
  else if getU64 outcome "http_status" = some 409 ∨
      getStr outcome "reason" = some "capture_id_conflict" then
    conflictUpdate record "remote captureId conflict"
  else rejectedUpdate config record outcome

def batchUpdate (status : StatusCode) (outcomes : Outcomes) (record : DeliveryRecord) :
    DeliveryUpdate :=
  if record.captureId ∈ outcomes.ambiguousIds then
    retryUpdate config record "duplicate Collector batch outcomes for Capture"
  else match outcomes.byId.get? record.captureId with
    | some outcome => outcomeUpdate config record outcome
    | none =>
        retryUpdate config record
          ("remote HTTP " ++ statusText status ++ " omitted batch outcome")

/-- The bodies of a batch, each closed by a newline. -/
def batchBody (batch : List DeliveryPayload) : Bytes :=
  batch.flatMap fun payload => payload.body ++ [10]

/-- Statuses after which the payloads of a batch are sent one by one. -/
def fallsBack (status : StatusCode) : Bool :=
  status = StatusCode.notFound || status = StatusCode.methodNotAllowed ||
    status = StatusCode.payloadTooLarge || status = StatusCode.unsupportedMediaType

def sendDeliveryBatch (remote : RemoteCollector) (batch : List DeliveryPayload) :
    List DeliveryUpdate :=
  match batch with
  | [payload] => [sendSingle statusText config remote payload]
  | _ =>
      match remote.captures (batchBody batch) with
      | .error error => batch.map fun payload => retryUpdate config payload.record error
      | .ok response =>
          if fallsBack response.status then batch.map (sendSingle statusText config remote)
          else if response.status.isSuccess = false then
            batch.map fun payload =>
              httpDeliveryFailure statusText config payload.record response.status
          else match response.body with
            | none =>
                batch.map fun payload =>
                  retryUpdate config payload.record
                    "invalid Collector batch acknowledgement JSON"
            | some payload =>
                let outcomes := readOutcomes (batchResults payload)
                batch.map fun payload =>
                  batchUpdate statusText config response.status outcomes payload.record

end Requests

section Naming

/-- The outcomes that name an id. -/
def naming (captureId : String) (outcomes : List Json) : List Json :=
  outcomes.filter fun outcome => getStr outcome "capture_id" = some captureId

/-- The map holds the last outcome that names an id, and an id is ambiguous when
two outcomes name it. -/
theorem readOutcomes_spec (outcomes : List Json) (captureId : String) :
    (readOutcomes outcomes).byId.get? captureId = (naming captureId outcomes).getLast? ∧
      (captureId ∈ (readOutcomes outcomes).ambiguousIds ↔
        2 ≤ (naming captureId outcomes).length) := by
  induction outcomes using List.reverseRecOn with
  | nil => simp [readOutcomes, naming]
  | append_singleton earlier outcome ih =>
      obtain ⟨hlast, hambiguous⟩ := ih
      have hfold : readOutcomes (earlier ++ [outcome]) =
          recordOutcome (readOutcomes earlier) outcome := by
        simp [readOutcomes, List.foldl_append]
      have hnaming : naming captureId (earlier ++ [outcome]) =
          naming captureId earlier ++ naming captureId [outcome] :=
        List.filter_append ..
      rw [hfold, hnaming, recordOutcome]
      cases hname : getStr outcome "capture_id" with
      | none =>
          have hskip : naming captureId [outcome] = [] := by simp [naming, hname]
          rw [hskip, List.append_nil]
          exact ⟨hlast, hambiguous⟩
      | some named =>
          by_cases hsame : named = captureId
          · subst hsame
            have hpresent : naming named [outcome] = [outcome] := by simp [naming, hname]
            have hearlier : ((readOutcomes earlier).byId.get? named).isSome ↔
                1 ≤ (naming named earlier).length := by
              rw [hlast, List.getLast?_isSome, ne_eq, ← List.length_eq_zero_iff]
              omega
            rw [hpresent]
            refine ⟨by simp, ?_⟩
            rw [List.length_append, List.length_singleton]
            by_cases hseen : ((readOutcomes earlier).byId.get? named).isSome
            · have hone := hearlier.mp hseen
              simp only [if_pos hseen, List.mem_cons, true_or, true_iff]
              omega
            · have hnone : ¬ 1 ≤ (naming named earlier).length := fun h =>
                hseen (hearlier.mpr h)
              simp only [if_neg hseen, hambiguous]
              omega
          · have hskip : naming captureId [outcome] = [] := by simp [naming, hname, hsame]
            rw [hskip, List.append_nil]
            refine ⟨?_, ?_⟩
            · rw [Table.get?_insert_of_ne _ (Ne.symm hsame), hlast]
            · rw [← hambiguous]
              dsimp only
              split_ifs
              · simp [Ne.symm hsame]
              · rfl

end Naming

end ChipTrace
