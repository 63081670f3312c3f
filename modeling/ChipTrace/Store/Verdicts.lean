/-
Verdicts on records, as batches and one at a time are meant to give them: what is
known decides each, and the two agree unless a batch holds a legacy retry of one
of its own records.
-/
import ChipTrace.Capture.Normalize
import Mathlib.Logic.Function.Basic

namespace ChipTrace.CaptureStore

section Verdicts

/-- What is decided about a record, with the digest that is acknowledged. -/
inductive Verdict where
  | accepted (sha256 : String)
  | duplicate (sha256 : String)
  | conflict
  deriving DecidableEq

/-- The digest under which each capture is known. -/
abbrev Known := String → Option String

/-- A record that was already known is a duplicate if it matches, else a conflict. -/
def againstKnown (known : String) (isSame : Bool) : Verdict :=
  if isSame then .duplicate known else .conflict

/-- One record at a time: each is decided by everything known before it. -/
def judge (known : Known) (record : CaptureRecord) : Verdict :=
  match known record.captureId with
  | some sha256 => againstKnown sha256 (record.matchesPersistedSha256 sha256)
  | none => .accepted record.sha256

def learn (known : Known) (record : CaptureRecord) : Known :=
  if (known record.captureId).isSome then known
  else Function.update known record.captureId (some record.sha256)

def judgeEach (known : Known) : List CaptureRecord → List Verdict
  | [] => []
  | record :: rest => judge known record :: judgeEach (learn known record) rest

/-- In a batch: what the batch itself brought is compared by its digest only. -/
def judgeInBatch (ledger batch : Known) (record : CaptureRecord) : Verdict :=
  match ledger record.captureId with
  | some sha256 => againstKnown sha256 (record.matchesPersistedSha256 sha256)
  | none =>
      match batch record.captureId with
      | some sha256 => againstKnown sha256 (sha256 == record.sha256)
      | none => .accepted record.sha256

def learnInBatch (ledger batch : Known) (record : CaptureRecord) : Known :=
  if (ledger record.captureId).isSome then batch else learn batch record

def judgeBatch (ledger batch : Known) : List CaptureRecord → List Verdict
  | [] => []
  | record :: rest =>
      judgeInBatch ledger batch record :: judgeBatch ledger (learnInBatch ledger batch record) rest

/-- Everything known: the ledger, and then what the batch brought. -/
def both (ledger batch : Known) : Known := fun id => (ledger id).or (batch id)

/-- What a batch brought: the digest of the first record of each capture that the ledger does
not have. -/
def broughtBy (ledger : Known) (records : List CaptureRecord) : Known := fun id =>
  if (ledger id).isSome then none
  else (records.find? fun record => record.captureId == id).map CaptureRecord.sha256

/-- No record has, under another digest, the digest of the first record that brings its capture
in the same batch as its legacy digest. -/
def NoLegacyRetry (ledger : Known) (records : List CaptureRecord) : Prop :=
  ∀ before other after first, records = before ++ other :: after →
    ledger other.captureId = none →
    before.find? (fun record => record.captureId == other.captureId) = some first →
    other.legacyRawSha256 = some first.sha256 → other.sha256 = first.sha256

variable {ledger batch : Known}

theorem broughtBy_nil : broughtBy ledger [] = fun _ => none := by
  funext id
  simp [broughtBy]

theorem learnInBatch_broughtBy (before : List CaptureRecord) (record : CaptureRecord) :
    learnInBatch ledger (broughtBy ledger before) record =
      broughtBy ledger (before ++ [record]) := by
  funext id
  rw [learnInBatch, learn, broughtBy, broughtBy, List.find?_append]
  by_cases hid : id = record.captureId
  · subst hid
    cases hledger : ledger record.captureId with
    | some sha256 => simp [broughtBy, hledger]
    | none =>
        cases hfound : before.find? fun other => other.captureId == record.captureId with
        | some first => simp [broughtBy, hledger, hfound]
        | none => simp [broughtBy, hledger, hfound]
  · have hne : (record.captureId == id) = false := beq_eq_false_iff_ne.mpr (Ne.symm hid)
    have hsame : ([record].find? fun other => other.captureId == id) = none := by
      rw [List.find?_cons_of_neg (by rw [hne]; exact Bool.false_ne_true), List.find?_nil]
    rw [hsame, Option.or_none]
    split_ifs <;> simp_all [broughtBy, Function.update_of_ne]

theorem learn_both (record : CaptureRecord) :
    learn (both ledger batch) record = both ledger (learnInBatch ledger batch record) := by
  funext id
  rw [learn, learnInBatch, learn, both]
  cases hledger : ledger record.captureId with
  | some sha256 => simp [both]
  | none =>
      cases hbatch : batch record.captureId with
      | some sha256 => simp [both]
      | none =>
          by_cases hid : id = record.captureId
          · subst hid
            simp [both, hledger]
          · simp [both, Function.update_of_ne hid]

theorem againstKnown_eq_iff {known : String} {first second : Bool} :
    againstKnown known first = againstKnown known second ↔ first = second := by
  cases first <;> cases second <;> simp [againstKnown]

/-- One record is decided alike exactly when it is no legacy retry of what the batch brought. -/
theorem judgeInBatch_eq_iff {before : List CaptureRecord} {record : CaptureRecord} :
    judgeInBatch ledger (broughtBy ledger before) record =
        judge (both ledger (broughtBy ledger before)) record ↔
      ∀ first, ledger record.captureId = none →
        before.find? (fun other => other.captureId == record.captureId) = some first →
        record.legacyRawSha256 = some first.sha256 → record.sha256 = first.sha256 := by
  rw [judgeInBatch, judge, both]
  cases hledger : ledger record.captureId with
  | some sha256 => simp
  | none =>
      cases hfound : before.find? fun other => other.captureId == record.captureId with
      | none => simp [broughtBy, hledger, hfound]
      | some first =>
          simp only [broughtBy, hledger, hfound, Option.isSome_none, Bool.false_eq_true, if_false,
            Option.map_some, Option.none_or, againstKnown_eq_iff,
            CaptureRecord.matchesPersistedSha256]
          by_cases hsame : record.sha256 = first.sha256
          · simp [hsame]
          · have hne : (record.sha256 == first.sha256) = false := beq_eq_false_iff_ne.mpr hsame
            have hne' : (first.sha256 == record.sha256) = false :=
              beq_eq_false_iff_ne.mpr (Ne.symm hsame)
            simp [hsame, hne, hne']

theorem judgeBatch_eq_iff_from (before rest : List CaptureRecord) :
    judgeBatch ledger (broughtBy ledger before) rest =
        judgeEach (both ledger (broughtBy ledger before)) rest ↔
      ∀ middle other after first, rest = middle ++ other :: after →
        ledger other.captureId = none →
        (before ++ middle).find? (fun record => record.captureId == other.captureId) =
          some first →
        other.legacyRawSha256 = some first.sha256 → other.sha256 = first.sha256 := by
  induction rest generalizing before with
  | nil => simp [judgeBatch, judgeEach]
  | cons record rest ih =>
      rw [judgeBatch, judgeEach, List.cons.injEq, judgeInBatch_eq_iff, learn_both,
        learnInBatch_broughtBy, ih]
      constructor
      · rintro ⟨hhead, htail⟩ middle other after first hsplit
        cases middle with
        | nil =>
            obtain ⟨rfl, rfl⟩ := List.cons.inj hsplit
            rw [List.append_nil]
            exact hhead first
        | cons next middle =>
            obtain ⟨rfl, rfl⟩ := List.cons.inj hsplit
            have hlater := htail middle other after first rfl
            rwa [List.append_assoc, List.singleton_append] at hlater
      · intro h
        refine ⟨fun first => ?_, fun middle other after first hsplit => ?_⟩
        · have hhead := h [] record rest first rfl
          rwa [List.append_nil] at hhead
        · rw [List.append_assoc, List.singleton_append]
          exact h (record :: middle) other after first (congrArg _ hsplit)

/-- A batch and its records one at a time are decided alike exactly when the batch holds no
legacy retry of one of its own records. -/
theorem judgeBatch_eq_iff (records : List CaptureRecord) :
    judgeBatch ledger (fun _ => none) records = judgeEach ledger records ↔
      NoLegacyRetry ledger records := by
  have hfrom := @judgeBatch_eq_iff_from ledger [] records
  have hboth : both ledger (fun _ => none) = ledger := by
    funext id
    exact Option.or_none
  rwa [broughtBy_nil, hboth] at hfrom

end Verdicts

end ChipTrace.CaptureStore
