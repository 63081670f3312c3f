/-
The replies of the Collector to stored captures.
-/
import ChipTrace.Relay.Receipt

namespace ChipTrace

def SubmitAck.toValue (ack : SubmitAck) : Json :=
  Json.mkObj [("capture_id", .str ack.captureId), ("state", .str ack.state),
    ("durable", .bool ack.durable), ("duplicate", .bool ack.duplicate),
    ("raw_sha256", .str ack.rawSha256), ("segment_id", .num ack.segmentId),
    ("offset", .num ack.offset), ("length", .num ack.length)]

/-- The fields of a reply that confirms a stored capture. -/
def acceptedFields (ack : SubmitAck) : List (String × Json) :=
  [("ok", .bool true), ("durable", .bool true), ("duplicate", .bool ack.duplicate),
    ("capture", ack.toValue)]

def acceptedReply (ack : SubmitAck) : Json := Json.mkObj (acceptedFields ack)

/-- The machine integers of a receipt. -/
def SubmitAck.Sized (ack : SubmitAck) : Prop :=
  ack.segmentId < U64.limit ∧ ack.offset < U64.limit ∧ ack.length < U64.limit

theorem SubmitAck.toValue_get (ack : SubmitAck) (key : String) :
    ack.toValue.get? key = OrdMap.lookup key
      [("capture_id", .str ack.captureId), ("state", .str ack.state),
        ("durable", .bool ack.durable), ("duplicate", .bool ack.duplicate),
        ("raw_sha256", .str ack.rawSha256), ("segment_id", .num ack.segmentId),
        ("offset", .num ack.offset), ("length", .num ack.length)] :=
  Json.get?_mkObj (by simp) key

theorem acceptedReply_get (ack : SubmitAck) (key : String) :
    (acceptedReply ack).get? key = OrdMap.lookup key (acceptedFields ack) :=
  Json.get?_mkObj (by simp [acceptedFields]) key

theorem SubmitAck.fromValue?_toValue {ack : SubmitAck} (hsized : ack.Sized) :
    SubmitAck.fromValue? ack.toValue = some ack := by
  obtain ⟨hsegment, hoffset, hlength⟩ := hsized
  have hobject : ∃ fields, ack.toValue = .obj fields := ⟨_, rfl⟩
  obtain ⟨fields, hfields⟩ := hobject
  rw [hfields, SubmitAck.fromValue?, ← hfields]
  simp only [SubmitAck.toValue_get, OrdMap.lookup, String.reduceEq, if_false, if_true,
    Option.bind_eq_bind, Option.bind_some, ackOfFields, Json.asStr, Json.asBool,
    Json.asU64_natCast_of_lt hsegment, Json.asU64_natCast_of_lt hoffset,
    Json.asU64_natCast_of_lt hlength]
  rfl

/-- A stored capture's reply is a receipt for a record of that identifier, hash and
length. -/
theorem verify_acceptedReply {record : DeliveryRecord} {ack : SubmitAck}
    (hid : ack.captureId = record.captureId) (hsha : ack.rawSha256 = record.rawSha256)
    (hbytes : ack.length = record.bytes) (hfilled : record.bytes ≠ 0)
    (hdurable : ack.durable = true) (hstate : StateAgrees ack)
    (hsegment : ack.segmentId ≠ 0 ∧ ack.segmentId < U64.limit)
    (hlocator : ack.offset + ack.length < U64.limit) :
    verifyCollectorReceipt record (acceptedReply ack) = .ok () := by
  refine verifyCollectorReceipt_ok_iff.mpr ⟨ack, ?_⟩
  refine ⟨?_, ?_, ?_, hid, hsha, ⟨hbytes, hfilled⟩, hdurable, ?_, hstate,
    ⟨hsegment.1, hlocator⟩, ?_⟩
  · rw [getBool, acceptedReply_get]
    rfl
  · rw [getBool, acceptedReply_get]
    rfl
  · rw [acceptedReply_get]
    exact SubmitAck.fromValue?_toValue ⟨hsegment.2, by omega, by omega⟩
  · rw [getBool, acceptedReply_get]
    rfl
  · rw [contradictsStatus, acceptedReply_get]
    rfl

end ChipTrace
