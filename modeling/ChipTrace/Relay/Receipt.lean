/-
HTTP statuses and the verification of a Collector receipt against the ledger's
own record.
-/
import ChipTrace.Lib.Json.Basic
import ChipTrace.Ledger.Types

namespace ChipTrace

/-- A status code as the HTTP library admits it. -/
structure StatusCode where
  code : Nat
  valid : 100 ≤ code ∧ code < 1000
  deriving DecidableEq

namespace StatusCode

def fromU16? (code : Nat) : Option StatusCode :=
  if h : 100 ≤ code ∧ code < 1000 then some ⟨code, h⟩ else none

def isSuccess (status : StatusCode) : Bool := 200 ≤ status.code && status.code < 300

def isServerError (status : StatusCode) : Bool := 500 ≤ status.code && status.code < 600

def ok : StatusCode := ⟨200, by decide⟩
def accepted : StatusCode := ⟨202, by decide⟩
def multiStatus : StatusCode := ⟨207, by decide⟩
def badRequest : StatusCode := ⟨400, by decide⟩
def notFound : StatusCode := ⟨404, by decide⟩
def methodNotAllowed : StatusCode := ⟨405, by decide⟩
def conflict : StatusCode := ⟨409, by decide⟩
def payloadTooLarge : StatusCode := ⟨413, by decide⟩
def unsupportedMediaType : StatusCode := ⟨415, by decide⟩
def serviceUnavailable : StatusCode := ⟨503, by decide⟩

end StatusCode

/-- A JSON number read as an item status. -/
def itemStatus? (status : Nat) : Option StatusCode :=
  if status < 2 ^ 16 then StatusCode.fromU16? status else none

def isRetryable (status : StatusCode) : Bool :=
  status.code == 408 || status.code == 425 || status.code == 429 || status.isServerError

/-- The field of an object as an unsigned number. -/
def getU64 (value : Json) (key : String) : Option Nat := (value.get? key).bind Json.asU64

def getStr (value : Json) (key : String) : Option String := (value.get? key).bind Json.asStr

def getBool (value : Json) (key : String) : Option Bool := (value.get? key).bind Json.asBool

/-- A receipt decoded from its eight fields. -/
def ackOfFields (captureId state durable duplicate rawSha256 segmentId offset length : Json) :
    Option SubmitAck := do
  let captureId ← captureId.asStr
  let state ← state.asStr
  let durable ← durable.asBool
  let duplicate ← duplicate.asBool
  let rawSha256 ← rawSha256.asStr
  let segmentId ← segmentId.asU64
  let offset ← offset.asU64
  let length ← length.asU64
  pure ⟨captureId, state, durable, duplicate, rawSha256, segmentId, offset, length⟩

/-- Decode a receipt from an object with these fields among others, or from an
array with exactly the fields in declaration order. -/
def SubmitAck.fromValue? (value : Json) : Option SubmitAck :=
  match value with
  | .obj _ => do
      let captureId ← value.get? "capture_id"
      let state ← value.get? "state"
      let durable ← value.get? "durable"
      let duplicate ← value.get? "duplicate"
      let rawSha256 ← value.get? "raw_sha256"
      let segmentId ← value.get? "segment_id"
      let offset ← value.get? "offset"
      let length ← value.get? "length"
      ackOfFields captureId state durable duplicate rawSha256 segmentId offset length
  | .arr [captureId, state, durable, duplicate, rawSha256, segmentId, offset, length] =>
      ackOfFields captureId state durable duplicate rawSha256 segmentId offset length
  | _ => none

/-- A present item status that is not a success status. -/
def contradictsStatus (payload : Json) : Bool :=
  match payload.get? "http_status" with
  | none => false
  | some status =>
      match status.asU64.bind itemStatus? with
      | some status => !status.isSuccess
      | none => true

/-- The state of a receipt and its duplicate flag. -/
def StateAgrees (ack : SubmitAck) : Prop :=
  (ack.state = "accepted" ∧ ack.duplicate = false) ∨
    (ack.state = "duplicate" ∧ ack.duplicate = true)

instance (ack : SubmitAck) : Decidable (StateAgrees ack) :=
  inferInstanceAs (Decidable (_ ∨ _))

/-- The checks of a decoded receipt. -/
def verifyAck (record : DeliveryRecord) (payload : Json) (ack : SubmitAck) :
    Except String Unit :=
  if ack.captureId ≠ record.captureId ∨ ack.rawSha256 ≠ record.rawSha256 then
    .error "Collector Capture receipt identity or SHA-256 mismatch"
  else if record.bytes = 0 ∨ ack.length ≠ record.bytes then
    .error "Collector Capture receipt byte length mismatch"
  else if ack.durable = false ∨ getBool payload "duplicate" ≠ some ack.duplicate ∨
      ¬ StateAgrees ack then
    .error "Collector Capture receipt state is inconsistent"
  else if ack.segmentId = 0 ∨ U64.limit ≤ ack.offset + ack.length then
    .error "Collector Capture receipt locator is invalid"
  else if contradictsStatus payload then
    .error "Collector Capture receipt contradicts item HTTP status"
  else .ok ()

def verifyCollectorReceipt (record : DeliveryRecord) (payload : Json) : Except String Unit :=
  if getBool payload "ok" ≠ some true ∨ getBool payload "durable" ≠ some true then
    .error "Collector acknowledgement does not confirm durability"
  else match SubmitAck.fromValue? ((payload.get? "capture").getD .null) with
    | none => .error "Collector acknowledgement has no valid Capture receipt"
    | some ack => verifyAck record payload ack

/-- A receipt that proves the delivery of a record. -/
structure BoundReceipt (record : DeliveryRecord) (payload : Json) (ack : SubmitAck) :
    Prop where
  okFlag : getBool payload "ok" = some true
  durableFlag : getBool payload "durable" = some true
  capture : SubmitAck.fromValue? ((payload.get? "capture").getD .null) = some ack
  captureId : ack.captureId = record.captureId
  rawSha256 : ack.rawSha256 = record.rawSha256
  length : ack.length = record.bytes ∧ record.bytes ≠ 0
  durable : ack.durable = true
  duplicate : getBool payload "duplicate" = some ack.duplicate
  state : StateAgrees ack
  locator : ack.segmentId ≠ 0 ∧ ack.offset + ack.length < U64.limit
  status : contradictsStatus payload = false

theorem verifyAck_ok {record : DeliveryRecord} {payload : Json} {ack : SubmitAck}
    (hok : verifyAck record payload ack = .ok ()) :
    (ack.captureId = record.captureId ∧ ack.rawSha256 = record.rawSha256) ∧
      (ack.length = record.bytes ∧ record.bytes ≠ 0) ∧
      (ack.durable = true ∧ getBool payload "duplicate" = some ack.duplicate ∧
        StateAgrees ack) ∧
      (ack.segmentId ≠ 0 ∧ ack.offset + ack.length < U64.limit) ∧
      contradictsStatus payload = false := by
  rw [verifyAck] at hok
  split_ifs at hok with hidentity hlength hstate hlocator hstatus
  simp only [not_or, not_not, Bool.not_eq_false, Bool.not_eq_true, not_le] at *
  exact ⟨hidentity, hlength.symm, hstate, hlocator, hstatus⟩

/-- Verification accepts exactly the bound receipts. -/
theorem verifyCollectorReceipt_ok_iff {record : DeliveryRecord} {payload : Json} :
    verifyCollectorReceipt record payload = .ok () ↔ ∃ ack, BoundReceipt record payload ack := by
  constructor
  · intro hok
    rw [verifyCollectorReceipt] at hok
    split_ifs at hok with hconfirms
    rw [not_or, not_not, not_not] at hconfirms
    split at hok
    · cases hok
    · rename_i ack hack
      obtain ⟨hidentity, hlength, hstate, hlocator, hstatus⟩ := verifyAck_ok hok
      exact ⟨ack, ⟨hconfirms.1, hconfirms.2, hack, hidentity.1, hidentity.2, hlength,
        hstate.1, hstate.2.1, hstate.2.2, hlocator, hstatus⟩⟩
  · rintro ⟨ack, h⟩
    have hlocator : ack.offset + record.bytes < U64.limit := h.length.1 ▸ h.locator.2
    simp [verifyCollectorReceipt, h.okFlag, h.durableFlag, h.capture, verifyAck, h.captureId,
      h.rawSha256, h.length.1, h.length.2, h.durable, h.duplicate, h.state, h.locator.1,
      hlocator, h.status]

end ChipTrace
