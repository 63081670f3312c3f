/-
What a batch delivery may conclude about a payload from the Collector's answer,
and the items whose contradictory answer is not left pending.
-/
import ChipTrace.Relay.Delivery

namespace ChipTrace

section Answers

/-- Whether the payloads of a batch are sent on the single route. -/
def sentSingly (remote : RemoteCollector) (batch : List DeliveryPayload) : Bool :=
  batch.length == 1 ||
    match remote.captures (batchBody batch) with
    | .error _ => false
    | .ok response => fallsBack response.status

/-- The response that covers a payload: its status and the outcomes in its body
that are about the payload. -/
structure Answer where
  status : StatusCode
  outcomes : List Json

/-- On the single route the body is the one outcome; on the batch route the
outcomes are the results that name the payload's id. -/
def answerAbout (remote : RemoteCollector) (batch : List DeliveryPayload)
    (payload : DeliveryPayload) : Option Answer :=
  if sentSingly remote batch then
    match remote.capture payload with
    | .error _ => none
    | .ok response => some ⟨response.status, response.body.toList⟩
  else
    match remote.captures (batchBody batch) with
    | .error _ => none
    | .ok response =>
        some ⟨response.status,
          naming payload.record.captureId ((response.body.map batchResults).getD [])⟩

variable (remote : RemoteCollector) (batch : List DeliveryPayload) (payload : DeliveryPayload)

/-- A success response with exactly one outcome for the payload, and that outcome
is a receipt bound to the payload's record. -/
def ProvenDelivery : Prop :=
  ∃ answer outcome ack, answerAbout remote batch payload = some answer ∧
    answer.status.isSuccess = true ∧ answer.outcomes = [outcome] ∧
      BoundReceipt payload.record outcome ack

/-- The only outcome of a success response, on the batch route. -/
def SoleItem (outcome : Json) : Prop :=
  ∃ answer, answerAbout remote batch payload = some answer ∧
    sentSingly remote batch = false ∧ answer.status.isSuccess = true ∧
      answer.outcomes = [outcome]

/-- An item that reports status 409, or that reports the reason of a conflict and
no status at all. -/
def ItemConflict (outcome : Json) : Prop :=
  getU64 outcome "http_status" = some 409 ∨
    (getU64 outcome "http_status" = none ∧
      getStr outcome "reason" = some "capture_id_conflict")

def ExplicitConflict : Prop :=
  (∃ answer, answerAbout remote batch payload = some answer ∧
      answer.status = StatusCode.conflict) ∨
    ∃ outcome, SoleItem remote batch payload outcome ∧ ItemConflict outcome

/-- A status that is neither a success nor worth a retry. -/
def Rejects (status : StatusCode) : Prop :=
  status.isSuccess = false ∧ isRetryable status = false

def ItemRejection (outcome : Json) : Prop :=
  ∃ status, (getU64 outcome "http_status").bind itemStatus? = some status ∧ Rejects status

def ExplicitRejection : Prop :=
  (∃ answer, answerAbout remote batch payload = some answer ∧ Rejects answer.status) ∨
    ∃ outcome, SoleItem remote batch payload outcome ∧ ItemRejection outcome

/-- What an update may say about its payload. -/
structure SoundVerdict (update : DeliveryUpdate) : Prop where
  captureId : update.captureId = payload.record.captureId
  delivered : update.state = .delivered ↔ ProvenDelivery remote batch payload
  otherwise : ¬ ProvenDelivery remote batch payload →
    ¬ ExplicitConflict remote batch payload →
    ¬ ExplicitRejection remote batch payload → update.state = .pending

/-- An item that claims nothing and gives a success status, or the reason of a
conflict next to a status that is neither 409 nor a rejection. -/
def Contradictory (outcome : Json) : Prop :=
  claimsNothing outcome = true ∧ ¬ ItemConflict outcome ∧ ¬ ItemRejection outcome ∧
    ((∃ status, (getU64 outcome "http_status").bind itemStatus? = some status ∧
        status.isSuccess = true) ∨
      getStr outcome "reason" = some "capture_id_conflict")

end Answers

section Statuses

theorem isRetryable_of_isSuccess {status : StatusCode} (hsuccess : status.isSuccess = true) :
    isRetryable status = false := by
  simp only [StatusCode.isSuccess, Bool.and_eq_true, decide_eq_true_eq] at hsuccess
  simp only [isRetryable, StatusCode.isServerError, Bool.or_eq_false_iff, beq_eq_false_iff_ne,
    Bool.and_eq_false_iff, decide_eq_false_iff_not]
  omega

/-- A status that is not worth a retry is a success or a rejection. -/
theorem isSuccess_or_rejects {status : StatusCode} (hfinal : isRetryable status = false) :
    status.isSuccess = true ∨ Rejects status := by
  cases hsuccess : status.isSuccess with
  | true => exact Or.inl rfl
  | false => exact Or.inr ⟨hsuccess, hfinal⟩

theorem Rejects.not_isSuccess {status : StatusCode} (hrejects : Rejects status) :
    status.isSuccess ≠ true := by
  rw [hrejects.1]
  exact Bool.false_ne_true

end Statuses

section Judging

variable {statusText : StatusCode → String} {config : RelayConfig}
variable {remote : RemoteCollector} {batch : List DeliveryPayload} {payload : DeliveryPayload}
variable {answer : Answer} {outcome : Json}

theorem provenDelivery_iff (hanswer : answerAbout remote batch payload = some answer) :
    ProvenDelivery remote batch payload ↔ answer.status.isSuccess = true ∧
      ∃ outcome, answer.outcomes = [outcome] ∧
        verifyCollectorReceipt payload.record outcome = .ok () := by
  constructor
  · rintro ⟨answer', outcome, ack, hanswer', hsuccess, houtcomes, hbound⟩
    cases Option.some.inj (hanswer'.symm.trans hanswer)
    exact ⟨hsuccess, outcome, houtcomes, verifyCollectorReceipt_ok_iff.mpr ⟨ack, hbound⟩⟩
  · rintro ⟨hsuccess, outcome, houtcomes, hverified⟩
    obtain ⟨ack, hbound⟩ := verifyCollectorReceipt_ok_iff.mp hverified
    exact ⟨answer, outcome, ack, hanswer, hsuccess, houtcomes, hbound⟩

theorem not_proven_of_none (hanswer : answerAbout remote batch payload = none) :
    ¬ ProvenDelivery remote batch payload := by
  rintro ⟨answer, _, _, hsome, _⟩
  rw [hanswer] at hsome
  cases hsome

theorem sound_retry (hunproven : ¬ ProvenDelivery remote batch payload) (error : String) :
    SoundVerdict remote batch payload (retryUpdate config payload.record error) where
  captureId := rfl
  delivered := ⟨fun hstate => (by cases hstate), fun hproven => absurd hproven hunproven⟩
  otherwise := fun _ _ _ => rfl

theorem sound_delivered (hproven : ProvenDelivery remote batch payload) :
    SoundVerdict remote batch payload (deliveredUpdate payload.record) where
  captureId := rfl
  delivered := ⟨fun _ => hproven, fun _ => rfl⟩
  otherwise := fun hunproven _ _ => absurd hproven hunproven

/-- A conflict or a failure needs an explicit answer. -/
theorem sound_settled_iff {update : DeliveryUpdate}
    (hid : update.captureId = payload.record.captureId)
    (hstate : update.state = .conflict ∨ update.state = .failed)
    (hunproven : ¬ ProvenDelivery remote batch payload) :
    SoundVerdict remote batch payload update ↔
      ExplicitConflict remote batch payload ∨ ExplicitRejection remote batch payload := by
  constructor
  · intro hsound
    by_contra hneither
    rw [not_or] at hneither
    have hpending := hsound.otherwise hunproven hneither.1 hneither.2
    rcases hstate with hstate | hstate <;> rw [hstate] at hpending <;> cases hpending
  · intro hexplicit
    refine ⟨hid, ⟨fun hdelivered => ?_, fun hproven => absurd hproven hunproven⟩, ?_⟩
    · rcases hstate with hstate | hstate <;> rw [hstate] at hdelivered <;> cases hdelivered
    · intro _ hconflict hrejection
      exact (hexplicit.elim hconflict hrejection).elim

/-- The verdict of a response that is not a success. -/
theorem sound_httpDeliveryFailure
    (hanswer : answerAbout remote batch payload = some answer)
    (hfailure : answer.status.isSuccess = false) :
    SoundVerdict remote batch payload
      (httpDeliveryFailure statusText config payload.record answer.status) := by
  have hunproven : ¬ ProvenDelivery remote batch payload := by
    rw [provenDelivery_iff hanswer, hfailure]
    exact fun h => Bool.false_ne_true h.1
  rw [httpDeliveryFailure]
  split_ifs with hconflict hretry
  · exact (sound_settled_iff rfl (Or.inl rfl) hunproven).mpr
      (Or.inl (Or.inl ⟨answer, hanswer, hconflict⟩))
  · exact sound_retry hunproven _
  · have hrejects : Rejects answer.status := ⟨hfailure, Bool.eq_false_iff.mpr hretry⟩
    exact (sound_settled_iff rfl (Or.inr rfl) hunproven).mpr
      (Or.inr (Or.inl ⟨answer, hanswer, hrejects⟩))

/-- Verification decides between delivery and retry. -/
theorem sound_verified (hanswer : answerAbout remote batch payload = some answer)
    (hsuccess : answer.status.isSuccess = true) (houtcomes : answer.outcomes = [outcome]) :
    SoundVerdict remote batch payload
      (match verifyCollectorReceipt payload.record outcome with
        | .ok () => deliveredUpdate payload.record
        | .error error => retryUpdate config payload.record error) := by
  cases hverified : verifyCollectorReceipt payload.record outcome with
  | ok _ =>
      exact sound_delivered ((provenDelivery_iff hanswer).mpr
        ⟨hsuccess, outcome, houtcomes, hverified⟩)
  | error error =>
      refine sound_retry (fun hproven => ?_) error
      obtain ⟨_, other, hother, hok⟩ := (provenDelivery_iff hanswer).mp hproven
      cases List.singleton_inj.mp (houtcomes.symm.trans hother)
      rw [hverified] at hok
      cases hok

theorem sound_sendSingle (hsingly : sentSingly remote batch = true) :
    SoundVerdict remote batch payload (sendSingle statusText config remote payload) := by
  rw [sendSingle]
  cases hreply : remote.capture payload with
  | error error =>
      exact sound_retry (not_proven_of_none (by simp [answerAbout, hsingly, hreply])) error
  | ok response =>
      have hanswer : answerAbout remote batch payload =
          some ⟨response.status, response.body.toList⟩ := by
        simp [answerAbout, hsingly, hreply]
      dsimp only
      split_ifs with hsuccess
      · cases hbody : response.body with
        | none =>
            rw [acknowledgedUpdate]
            refine sound_retry (fun hproven => ?_) _
            obtain ⟨_, outcome, houtcomes, _⟩ := (provenDelivery_iff hanswer).mp hproven
            rw [hbody] at houtcomes
            cases houtcomes
        | some json =>
            rw [acknowledgedUpdate]
            exact sound_verified hanswer hsuccess (by simp [hbody])
      · exact sound_httpDeliveryFailure hanswer (Bool.eq_false_iff.mpr hsuccess)

theorem not_verified_of_claimsNothing {record : DeliveryRecord}
    (hnothing : claimsNothing outcome = true) :
    verifyCollectorReceipt record outcome ≠ .ok () := by
  intro hverified
  obtain ⟨ack, hbound⟩ := verifyCollectorReceipt_ok_iff.mp hverified
  simp [claimsNothing, hbound.okFlag] at hnothing

/-- The explicit answers of an item on the batch route. -/
theorem explicit_iff (hanswer : answerAbout remote batch payload = some answer)
    (hbatch : sentSingly remote batch = false) (hsuccess : answer.status.isSuccess = true)
    (houtcomes : answer.outcomes = [outcome]) :
    (ExplicitConflict remote batch payload ∨ ExplicitRejection remote batch payload) ↔
      ItemConflict outcome ∨ ItemRejection outcome := by
  have hsole : SoleItem remote batch payload outcome :=
    ⟨answer, hanswer, hbatch, hsuccess, houtcomes⟩
  have honly : ∀ other, SoleItem remote batch payload other → other = outcome := by
    rintro other ⟨answer', hanswer', _, _, hother⟩
    cases Option.some.inj (hanswer'.symm.trans hanswer)
    exact List.singleton_inj.mp (hother.symm.trans houtcomes)
  constructor
  · rintro ((⟨answer', hanswer', hconflict⟩ | ⟨other, hother, hconflict⟩) |
      (⟨answer', hanswer', hrejects⟩ | ⟨other, hother, hrejection⟩))
    · cases Option.some.inj (hanswer'.symm.trans hanswer)
      rw [hconflict] at hsuccess
      exact absurd hsuccess (by decide)
    · exact Or.inl (honly other hother ▸ hconflict)
    · cases Option.some.inj (hanswer'.symm.trans hanswer)
      exact absurd hsuccess hrejects.not_isSuccess
    · exact Or.inr (honly other hother ▸ hrejection)
  · rintro (hconflict | hrejection)
    · exact Or.inl (Or.inr ⟨outcome, hsole, hconflict⟩)
    · exact Or.inr (Or.inr ⟨outcome, hsole, hrejection⟩)

/-- The verdict of a sole item is sound exactly when the item is not
contradictory. -/
theorem sound_outcomeUpdate_iff (hanswer : answerAbout remote batch payload = some answer)
    (hbatch : sentSingly remote batch = false) (hsuccess : answer.status.isSuccess = true)
    (houtcomes : answer.outcomes = [outcome]) :
    SoundVerdict remote batch payload (outcomeUpdate config payload.record outcome) ↔
      ¬ Contradictory outcome := by
  rw [outcomeUpdate]
  split_ifs with hclaims hconflict
  · refine iff_of_true (sound_verified hanswer hsuccess houtcomes) fun hcontra => ?_
    exact absurd hcontra.1 (by simp [hclaims])
  all_goals
    have hnothing : claimsNothing outcome = true := Bool.eq_true_of_not_eq_false hclaims
    have hunproven : ¬ ProvenDelivery remote batch payload := by
      rw [provenDelivery_iff hanswer]
      rintro ⟨_, other, hother, hok⟩
      cases List.singleton_inj.mp (houtcomes.symm.trans hother)
      exact not_verified_of_claimsNothing hnothing hok
    have hexplicit := explicit_iff hanswer hbatch hsuccess houtcomes
  · rw [sound_settled_iff rfl (Or.inl rfl) hunproven, hexplicit]
    constructor
    · rintro hor ⟨_, hnotConflict, hnotRejection, _⟩
      exact hor.elim hnotConflict hnotRejection
    · intro hfine
      by_contra hneither
      rw [not_or] at hneither
      have hreason : getStr outcome "reason" = some "capture_id_conflict" :=
        hconflict.resolve_left fun hstatus => hneither.1 (Or.inl hstatus)
      exact hfine ⟨hnothing, hneither.1, hneither.2, Or.inr hreason⟩
  · rw [not_or] at hconflict
    have hnotConflict : ¬ ItemConflict outcome := fun h =>
      h.elim hconflict.1 fun h => hconflict.2 h.2
    rw [rejectedUpdate]
    cases hstatus : (getU64 outcome "http_status").bind itemStatus? with
    | none =>
        refine iff_of_true (sound_retry hunproven _) ?_
        rintro ⟨_, _, _, ⟨status, hsome, _⟩ | hreason⟩
        · rw [hstatus] at hsome
          cases hsome
        · exact hconflict.2 hreason
    | some status =>
        dsimp only
        split_ifs with hretry
        · refine iff_of_true (sound_retry hunproven _) ?_
          rintro ⟨_, _, _, ⟨status', hsome, hok⟩ | hreason⟩
          · cases Option.some.inj (hstatus.symm.trans hsome)
            rw [isRetryable_of_isSuccess hok] at hretry
            cases hretry
          · exact hconflict.2 hreason
        · have hfinal : isRetryable status = false := Bool.eq_false_iff.mpr hretry
          rw [sound_settled_iff rfl (Or.inr rfl) hunproven, hexplicit]
          constructor
          · rintro hor ⟨_, hnot, hnotRejection, _⟩
            exact hor.elim hnot hnotRejection
          · intro hfine
            refine Or.inr ⟨status, hstatus, ?_⟩
            by_contra hnotRejects
            have hok := (isSuccess_or_rejects hfinal).resolve_right hnotRejects
            refine hfine ⟨hnothing, hnotConflict, ?_, Or.inl ⟨status, hstatus, hok⟩⟩
            rintro ⟨status', hsome, hrejects⟩
            cases Option.some.inj (hstatus.symm.trans hsome)
            exact hnotRejects hrejects

end Judging

section Batches

variable (statusText : StatusCode → String) (config : RelayConfig)
variable (remote : RemoteCollector) (batch : List DeliveryPayload)

/-- The update of one payload of a batch that got a response on its own route. -/
def responseUpdate (response : HttpResponse) (record : DeliveryRecord) : DeliveryUpdate :=
  if response.status.isSuccess = false then
    httpDeliveryFailure statusText config record response.status
  else match response.body with
    | none => retryUpdate config record "invalid Collector batch acknowledgement JSON"
    | some payload =>
        batchUpdate statusText config response.status (readOutcomes (batchResults payload))
          record

/-- The update of one payload of a batch. -/
def payloadUpdate (payload : DeliveryPayload) : DeliveryUpdate :=
  if sentSingly remote batch then sendSingle statusText config remote payload
  else match remote.captures (batchBody batch) with
    | .error error => retryUpdate config payload.record error
    | .ok response => responseUpdate statusText config response payload.record

/-- A batch gives every payload its own update, in order. -/
theorem sendDeliveryBatch_eq_map :
    sendDeliveryBatch statusText config remote batch =
      batch.map (payloadUpdate statusText config remote batch) := by
  have hmany : (∀ payload, batch ≠ [payload]) → sentSingly remote batch =
      match remote.captures (batchBody batch) with
      | .error _ => false
      | .ok response => fallsBack response.status := by
    intro hbatch
    have hlength : (batch.length == 1) = false := by
      rw [beq_eq_false_iff_ne]
      intro hone
      obtain ⟨payload, hpayload⟩ := List.length_eq_one_iff.mp hone
      exact hbatch payload hpayload
    rw [sentSingly, hlength, Bool.false_or]
  rw [sendDeliveryBatch.eq_def]
  split
  · simp [payloadUpdate, sentSingly]
  · rename_i hbatch
    have hsingly := hmany fun payload heq => hbatch payload heq
    cases hreply : remote.captures (batchBody batch) with
    | error error =>
        rw [hreply] at hsingly
        simp [payloadUpdate, hsingly, hreply]
    | ok response =>
        rw [hreply] at hsingly
        by_cases hfallback : fallsBack response.status = true
        · simp [payloadUpdate, hsingly, hfallback]
        · have hupdate : payloadUpdate statusText config remote batch =
              fun payload => responseUpdate statusText config response payload.record := by
            funext payload
            simp [payloadUpdate, hsingly, hfallback, hreply]
          simp only [hupdate, responseUpdate, hfallback]
          cases response.status.isSuccess <;> cases response.body <;> rfl

variable {statusText config remote batch}
variable {payload : DeliveryPayload}

/-- On the batch route the map and the ambiguity set pick the only outcome that
names the payload, if there is one. -/
theorem sound_batchUpdate_iff (statusText : StatusCode → String) (config : RelayConfig)
    {status : StatusCode} {results : List Json}
    (hanswer : answerAbout remote batch payload =
      some ⟨status, naming payload.record.captureId results⟩)
    (hbatch : sentSingly remote batch = false) (hsuccess : status.isSuccess = true) :
    SoundVerdict remote batch payload
        (batchUpdate statusText config status (readOutcomes results) payload.record) ↔
      ¬ ∃ outcome, naming payload.record.captureId results = [outcome] ∧
        Contradictory outcome := by
  obtain ⟨hlast, hambiguous⟩ := readOutcomes_spec results payload.record.captureId
  have hunproven : (naming payload.record.captureId results).length ≠ 1 →
      ¬ ProvenDelivery remote batch payload := by
    intro hlength hproven
    obtain ⟨_, outcome, houtcomes, _⟩ := (provenDelivery_iff hanswer).mp hproven
    exact hlength (List.length_eq_one_iff.mpr ⟨outcome, houtcomes⟩)
  rw [batchUpdate, hlast]
  simp only [hambiguous]
  rcases hnamed : naming payload.record.captureId results with _ | ⟨outcome, _ | ⟨second, rest⟩⟩
  · refine iff_of_true (sound_retry (hunproven (by simp [hnamed])) _) ?_
    rintro ⟨_, hnil, _⟩
    cases hnil
  · have hitem : SoundVerdict remote batch payload
        (outcomeUpdate config payload.record outcome) ↔ ¬ Contradictory outcome :=
      sound_outcomeUpdate_iff hanswer hbatch hsuccess hnamed
    simpa using hitem
  · refine iff_of_true ?_ ?_
    · simpa using sound_retry (hunproven (by simp [hnamed])) _
    · rintro ⟨_, hcons, _⟩
      cases hcons

/-- The verdict on a payload is sound exactly when the payload's only item, if it
has one, is not contradictory. -/
theorem sound_payloadUpdate_iff :
    SoundVerdict remote batch payload (payloadUpdate statusText config remote batch payload) ↔
      ¬ ∃ outcome, SoleItem remote batch payload outcome ∧ Contradictory outcome := by
  rw [payloadUpdate]
  split_ifs with hsingly
  · refine iff_of_true (sound_sendSingle hsingly) ?_
    rintro ⟨_, ⟨_, _, hbatch, _⟩, _⟩
    rw [hsingly] at hbatch
    cases hbatch
  · have hbatch := Bool.eq_false_iff.mpr hsingly
    cases hreply : remote.captures (batchBody batch) with
    | error error =>
        have hnone : answerAbout remote batch payload = none := by
          simp [answerAbout, hbatch, hreply]
        refine iff_of_true (sound_retry (not_proven_of_none hnone) error) ?_
        rintro ⟨_, ⟨_, hsome, _⟩, _⟩
        rw [hnone] at hsome
        cases hsome
    | ok response =>
        have hanswer : answerAbout remote batch payload = some ⟨response.status,
            naming payload.record.captureId ((response.body.map batchResults).getD [])⟩ := by
          simp [answerAbout, hbatch, hreply]
        have hsole : ∀ outcome, SoleItem remote batch payload outcome ↔
            response.status.isSuccess = true ∧
              naming payload.record.captureId ((response.body.map batchResults).getD []) =
                [outcome] := by
          intro outcome
          simp [SoleItem, hanswer, hbatch]
        simp only [hsole, responseUpdate]
        split_ifs with hfailure
        · refine iff_of_true (sound_httpDeliveryFailure hanswer hfailure) ?_
          rintro ⟨_, ⟨hsuccess, _⟩, _⟩
          rw [hfailure] at hsuccess
          cases hsuccess
        · have hsuccess := Bool.eq_true_of_not_eq_false hfailure
          cases hbody : response.body with
          | none =>
              refine iff_of_true (sound_retry (fun hproven => ?_) _) ?_
              · obtain ⟨_, outcome, houtcomes, _⟩ := (provenDelivery_iff hanswer).mp hproven
                simp [hbody, naming] at houtcomes
              · rintro ⟨_, ⟨_, hnil⟩, _⟩
                simp [naming] at hnil
          | some json =>
              rw [hbody] at hanswer
              simpa [hsuccess] using
                sound_batchUpdate_iff statusText config hanswer hbatch hsuccess

/-- One update per payload, in order, each one a sound verdict. -/
def BatchVerdicts (remote : RemoteCollector) (batch : List DeliveryPayload)
    (updates : List DeliveryUpdate) : Prop :=
  List.Forall₂ (SoundVerdict remote batch) batch updates

/-- A batch gets one sound verdict per payload exactly when no payload's only item
is contradictory. -/
theorem sendDeliveryBatch_verdicts_iff (statusText : StatusCode → String)
    (config : RelayConfig) (remote : RemoteCollector) (batch : List DeliveryPayload) :
    BatchVerdicts remote batch (sendDeliveryBatch statusText config remote batch) ↔
      ∀ payload ∈ batch, ¬ ∃ outcome,
        SoleItem remote batch payload outcome ∧ Contradictory outcome := by
  rw [sendDeliveryBatch_eq_map, BatchVerdicts, List.forall₂_map_right_iff, List.forall₂_same]
  simp only [sound_payloadUpdate_iff]

end Batches

namespace SilentItem

/-- Two claimed captures. -/
def claimed (captureId : String) : DeliveryPayload :=
  ⟨⟨captureId, "sha", 12, .inflight, 1, 0, 0, none, none, none⟩, [123, 125]⟩

/-- An item with a success status and none of the acknowledgement flags. -/
def item : Json := .obj [("capture_id", .str "a"), ("http_status", .num 200)]

def remote : RemoteCollector :=
  { captures := fun _ => .ok ⟨StatusCode.ok, some (.obj [("results", .arr [item])])⟩
    capture := fun _ => .ok ⟨StatusCode.ok, none⟩ }

def config : RelayConfig := ⟨4, 100, 10, 1000, 10000, 1000, 100, 10000, 100⟩

theorem contradictory_item : Contradictory item := by
  have hstatus : (getU64 item "http_status").bind itemStatus? = some StatusCode.ok := by decide
  have hreason : getStr item "reason" = none := by decide
  refine ⟨by decide, ?_, ?_, Or.inl ⟨StatusCode.ok, hstatus, by decide⟩⟩
  · rintro (hconflict | ⟨_, hconflict⟩)
    · exact absurd hconflict (by decide)
    · rw [hreason] at hconflict
      cases hconflict
  · rintro ⟨status, hsome, hrejects⟩
    cases Option.some.inj (hstatus.symm.trans hsome)
    exact absurd hrejects.1 (by decide)

theorem soleItem : SoleItem remote [claimed "a", claimed "b"] (claimed "a") item :=
  ⟨⟨StatusCode.ok, [item]⟩, by rfl, by decide, by decide, rfl⟩

end SilentItem

/-- A success item without flags is recorded as a failure. -/
theorem not_sendDeliveryBatch_verdicts :
    (sendDeliveryBatch (fun _ => "") SilentItem.config SilentItem.remote
        [SilentItem.claimed "a", SilentItem.claimed "b"]).map DeliveryUpdate.state =
      [.failed, .pending] ∧
      ¬ BatchVerdicts SilentItem.remote [SilentItem.claimed "a", SilentItem.claimed "b"]
        (sendDeliveryBatch (fun _ => "") SilentItem.config SilentItem.remote
          [SilentItem.claimed "a", SilentItem.claimed "b"]) := by
  refine ⟨by decide, fun hverdicts => ?_⟩
  rw [sendDeliveryBatch_eq_map, BatchVerdicts, List.forall₂_map_right_iff,
    List.forall₂_same] at hverdicts
  have hsound := hverdicts (SilentItem.claimed "a") List.mem_cons_self
  exact sound_payloadUpdate_iff.mp hsound
    ⟨SilentItem.item, SilentItem.soleItem, SilentItem.contradictory_item⟩

end ChipTrace
