/-
The quality part of the delivery ledger: live counters, the archive and the
transactions that move counts between them.
-/
import ChipTrace.Ledger.Ops
import ChipTrace.Quality.Summary

namespace ChipTrace

def ingestQualityArchiveSchemaVersion : String := "chiptrace.ingest-quality-archive.v1"

/-- The digest of an archive's serialised content, its id left empty. -/
def IngestQualityArchive.computeId (digest : IngestQualityArchive → String)
    (archive : IngestQualityArchive) : String := digest { archive with archiveId := "" }

namespace DeliveryLedger

def readIngestQualityCounters (ledger : DeliveryLedger) :
    Except String IngestQualityCounters :=
  (ledger.metadata.ingestQualityCounters.getD default).reconcileReasonMaps

def writeIngestQualityCounters (ledger : DeliveryLedger) (counters : IngestQualityCounters) :
    Except String DeliveryLedger := do
  let checked ← counters.reconcileReasonMaps
  pure { ledger with metadata := { ledger.metadata with
    ingestQualityCounters := some checked } }

def setArchive (ledger : DeliveryLedger) (archive : Option IngestQualityArchive) :
    DeliveryLedger :=
  { ledger with metadata := { ledger.metadata with ingestQualityArchive := archive } }

variable (digest : IngestQualityArchive → String)

/-- What a snapshot checks about a stored archive. -/
def checkArchive (archive : IngestQualityArchive) : Except String Unit := do
  if archive.schemaVersion ≠ ingestQualityArchiveSchemaVersion then
    .error ("unsupported quality archive schema: " ++ archive.schemaVersion)
  else if archive.archiveId ≠ archive.computeId digest then
    .error "quality archive id does not match its content"
  else do
    let total ← archive.counters.checkedTotal
    if archive.sourceQualityErrors ≠ total then
      .error "quality archive total does not match its counters"
    else .ok ()

def ingestQualitySnapshot (ledger : DeliveryLedger) :
    Except String (IngestQualityCounters × Option IngestQualityArchive) := do
  let counters ← ledger.readIngestQualityCounters
  let _ ← counters.checkedTotal
  match ledger.metadata.ingestQualityArchive with
  | none => pure (counters, none)
  | some archive => do
      checkArchive digest archive
      pure (counters, some archive)

/-- The archive of the current counters. -/
def newArchive (archivedAt approvedBy approvalNote : String) (total : Nat)
    (current : IngestQualityCounters) : IngestQualityArchive :=
  let archive : IngestQualityArchive :=
    { schemaVersion := ingestQualityArchiveSchemaVersion
      archiveId := ""
      archivedAt := archivedAt
      approvedBy := Text.trim approvedBy
      approvalNote := Text.trim approvalNote
      sourceQualityErrors := total
      counters := current }
  { archive with archiveId := archive.computeId digest }

def archiveIngestQuality (ledger : DeliveryLedger) (expectedTotal : Nat)
    (archivedAt approvedBy approvalNote : String) :
    Except String (IngestQualityArchive × DeliveryLedger) :=
  if Text.trim approvedBy = "" then .error "quality archive requires a non-empty approver"
  else if Text.trim approvalNote = "" then
    .error "quality archive requires a non-empty approval note"
  else if ledger.metadata.ingestQualityArchive.isSome then
    .error "quality archive already exists; archives are append-only"
  else do
    let current ← ledger.readIngestQualityCounters
    let total ← current.checkedTotal
    if total ≠ expectedTotal then
      .error ("quality archive total mismatch: expected " ++ toString expectedTotal ++
        ", ledger reports " ++ toString total)
    else do
      let archive := newArchive digest archivedAt approvedBy approvalNote total current
      let written ← ledger.writeIngestQualityCounters default
      pure (archive, written.setArchive (some archive))

/-- The checks of a restore that concern the stored archive. -/
def checkRestore (archive : IngestQualityArchive) (archiveId : String) : Except String Unit :=
  if archive.schemaVersion ≠ ingestQualityArchiveSchemaVersion then
    .error ("unsupported quality archive schema: " ++ archive.schemaVersion)
  else if archive.archiveId ≠ archive.computeId digest then
    .error "quality archive id does not match its content"
  else if archive.archiveId ≠ archiveId then
    .error "quality archive id does not match the requested restore"
  else .ok ()

def restoreIngestQuality (ledger : DeliveryLedger) (archiveId : String) :
    Except String DeliveryLedger :=
  if Text.trim archiveId = "" then .error "quality restore requires an archive id"
  else match ledger.metadata.ingestQualityArchive with
    | none => .error "quality restore requires a stored archive"
    | some archive => do
        checkRestore digest archive archiveId
        let current ← ledger.readIngestQualityCounters
        let total ← current.checkedTotal
        if total ≠ 0 then .error "quality restore requires an empty live ledger"
        else do
          let written ← ledger.writeIngestQualityCounters archive.counters
          pure (written.setArchive none)

def recordIngestQualityWithReasons (ledger : DeliveryLedger) (endpoint : CloudEndpoint)
    (unknownEvents conversionErrors : Nat) (reasons : Table String Nat) :
    Except String (IngestQualityCounters × DeliveryLedger) :=
  if unknownEvents = 0 ∧ conversionErrors = 0 then do
    let counters ← ledger.readIngestQualityCounters
    pure (counters, ledger)
  else do
    let current ← ledger.readIngestQualityCounters
    let counters ← current.add endpoint unknownEvents conversionErrors reasons
    let written ← ledger.writeIngestQualityCounters counters
    pure (counters, written)

/-- The live counters as they are stored. -/
def liveQuality (ledger : DeliveryLedger) : IngestQualityCounters :=
  ledger.metadata.ingestQualityCounters.getD default

def archivedQuality (ledger : DeliveryLedger) : IngestQualityCounters :=
  (ledger.metadata.ingestQualityArchive.map IngestQualityArchive.counters).getD default

/-- Live and archived counts together. -/
def durableCount (ledger : DeliveryLedger) (endpoint : CloudEndpoint) (kind : QualityKind) :
    Nat :=
  ledger.liveQuality.count endpoint kind + ledger.archivedQuality.count endpoint kind

/-- An archive that passes the checks of a snapshot and of a restore. -/
structure ArchiveSound (archive : IngestQualityArchive) : Prop where
  schemaVersion : archive.schemaVersion = ingestQualityArchiveSchemaVersion
  archiveId : archive.archiveId = archive.computeId digest
  counters : archive.counters.Reconciled
  total : archive.sourceQualityErrors = archive.counters.counts.sum

/-- Migrated quality data that every reader accepts. -/
structure QualitySound (ledger : DeliveryLedger) : Prop where
  stored : ledger.metadata.ingestQualityCounters = some ledger.liveQuality
  live : ledger.liveQuality.Reconciled
  archive : ∀ archive, ledger.metadata.ingestQualityArchive = some archive →
    ArchiveSound digest archive

variable {digest} {ledger next : DeliveryLedger}

theorem QualitySound.read_eq (h : ledger.QualitySound digest) :
    ledger.readIngestQualityCounters = .ok ledger.liveQuality := h.live.reconcileReasonMaps_eq

theorem ArchiveSound.check_eq {archive : IngestQualityArchive}
    (h : ArchiveSound digest archive) : checkArchive digest archive = .ok () := by
  simp [checkArchive, h.schemaVersion, ← h.archiveId, h.counters.checkedTotal_eq, h.total]

/-- A snapshot of sound quality data succeeds and shows it unchanged. -/
theorem QualitySound.snapshot_eq (h : ledger.QualitySound digest) :
    ledger.ingestQualitySnapshot digest =
      .ok (ledger.liveQuality, ledger.metadata.ingestQualityArchive) := by
  rw [ingestQualitySnapshot, h.read_eq, Except.ok_bind, h.live.checkedTotal_eq, Except.ok_bind]
  cases harchive : ledger.metadata.ingestQualityArchive with
  | none => rfl
  | some archive =>
      simp [(h.archive archive harchive).check_eq]

theorem computeId_newArchive (archivedAt approvedBy approvalNote : String) (total : Nat)
    (current : IngestQualityCounters) :
    (newArchive digest archivedAt approvedBy approvalNote total current).archiveId =
      (newArchive digest archivedAt approvedBy approvalNote total current).computeId digest :=
  rfl

/-- Archiving moves every live count into the new archive. -/
theorem archiveIngestQuality_spec {expectedTotal : Nat}
    {archivedAt approvedBy approvalNote : String} {archive : IngestQualityArchive}
    (h : ledger.QualitySound digest)
    (hok : ledger.archiveIngestQuality digest expectedTotal archivedAt approvedBy
      approvalNote = .ok (archive, next)) :
    next.QualitySound digest ∧ next.durableCount = ledger.durableCount := by
  rw [archiveIngestQuality] at hok
  split_ifs at hok with _ _ hexists
  rw [h.read_eq, Except.ok_bind, h.live.checkedTotal_eq, Except.ok_bind] at hok
  split_ifs at hok with htotal
  have hzero := IngestQualityCounters.zero_reconciled.reconcileReasonMaps_eq
  obtain ⟨written, hwritten, hok⟩ := Except.bind_eq_ok_iff.mp hok
  obtain ⟨checked, hchecked, hwritten⟩ := Except.bind_eq_ok_iff.mp hwritten
  cases Except.ok.inj (hzero.symm.trans hchecked)
  rw [Except.pure_eq_ok_iff] at hwritten hok
  subst hwritten
  obtain ⟨rfl, rfl⟩ := Prod.mk.inj hok
  refine ⟨⟨rfl, IngestQualityCounters.zero_reconciled, ?_⟩, ?_⟩
  · intro archive harchive
    cases Option.some.inj harchive
    exact ⟨rfl, computeId_newArchive .., h.live, rfl⟩
  · have hnone : ledger.metadata.ingestQualityArchive = none := by
      simpa using hexists
    funext endpoint kind
    simp only [durableCount, archivedQuality, hnone]
    exact Nat.add_comm _ _

/-- Restoring puts every archived count back into the empty live counters. -/
theorem restoreIngestQuality_spec {archiveId : String} (h : ledger.QualitySound digest)
    (hok : ledger.restoreIngestQuality digest archiveId = .ok next) :
    next.QualitySound digest ∧ next.durableCount = ledger.durableCount := by
  rw [restoreIngestQuality] at hok
  split_ifs at hok
  cases harchive : ledger.metadata.ingestQualityArchive with
  | none =>
      rw [harchive] at hok
      cases hok
  | some archive =>
      have hsound := h.archive archive harchive
      rw [harchive] at hok
      obtain ⟨_, _, hok⟩ := Except.bind_eq_ok_iff.mp hok
      rw [h.read_eq, Except.ok_bind] at hok
      obtain ⟨total, htotal, hok⟩ := Except.bind_eq_ok_iff.mp hok
      split_ifs at hok with hempty
      rw [not_not] at hempty
      subst hempty
      obtain ⟨written, hwritten, hok⟩ := Except.bind_eq_ok_iff.mp hok
      obtain ⟨checked, hchecked, hwritten⟩ := Except.bind_eq_ok_iff.mp hwritten
      cases Except.ok.inj (hsound.counters.reconcileReasonMaps_eq.symm.trans hchecked)
      rw [Except.pure_eq_ok_iff] at hwritten hok
      subst hwritten
      subst hok
      refine ⟨⟨rfl, hsound.counters, fun archive hnone => by cases hnone⟩, ?_⟩
      funext endpoint kind
      have hzero := h.live.count_eq_zero htotal endpoint kind
      simp only [durableCount, archivedQuality, harchive, hzero, Nat.zero_add]
      show archive.counters.count endpoint kind +
        (default : IngestQualityCounters).count endpoint kind = _
      rw [IngestQualityCounters.count_default]
      rfl

/-- Recording adds the reported errors to the live counters of the endpoint. -/
theorem recordIngestQuality_spec {at_ : CloudEndpoint} {quality : EndpointQuality}
    {counters : IngestQualityCounters} (h : ledger.QualitySound digest)
    (hpositive : ¬ (quality.unknownEvents = 0 ∧ quality.conversionErrors = 0))
    (hok : ledger.recordIngestQualityWithReasons at_ quality.unknownEvents
      quality.conversionErrors quality.qualityReasons = .ok (counters, next)) :
    next.QualitySound digest ∧
      next.metadata.ingestQualityArchive = ledger.metadata.ingestQualityArchive ∧
      ∀ endpoint kind, next.liveQuality.count endpoint kind =
        ledger.liveQuality.count endpoint kind +
          if endpoint = at_ then quality.count kind else 0 := by
  rw [recordIngestQualityWithReasons, if_neg hpositive, h.read_eq, Except.ok_bind] at hok
  obtain ⟨added, hadd, hok⟩ := Except.bind_eq_ok_iff.mp hok
  obtain ⟨written, hwritten, hok⟩ := Except.bind_eq_ok_iff.mp hok
  obtain ⟨checked, hchecked, hwritten⟩ := Except.bind_eq_ok_iff.mp hwritten
  cases h.live.reconcileReasonMaps_add hadd hchecked
  rw [Except.pure_eq_ok_iff] at hwritten hok
  subst hwritten
  obtain ⟨rfl, rfl⟩ := Prod.mk.inj hok
  exact ⟨⟨rfl, IngestQualityCounters.reconcileReasonMaps_reconciled hchecked, h.archive⟩, rfl,
    IngestQualityCounters.count_add hadd⟩

section Open

variable {seed : Except String (Option IngestQualitySeed)}

/-- The deliveries part of `open` leaves the quality data alone. -/
theorem openLedger_quality (hok : ledger.openLedger seed = .ok next) :
    ∃ migrated, ledger.openMeta seed = .ok migrated ∧
      next.metadata.ingestQualityCounters = migrated.metadata.ingestQualityCounters ∧
      next.metadata.ingestQualityArchive = migrated.metadata.ingestQualityArchive := by
  obtain ⟨migrated, hmigrated, hok⟩ := Except.bind_eq_ok_iff.mp hok
  obtain ⟨started, hstarted, hok⟩ := Except.bind_eq_ok_iff.mp hok
  refine ⟨migrated, hmigrated, ?_⟩
  cases started with
  | none =>
      cases Except.pure_eq_ok_iff.mp hok
      exact ⟨rfl, rfl⟩
  | some started =>
      cases Except.pure_eq_ok_iff.mp hok
      rw [fastStartup] at hstarted
      split at hstarted
      · cases hstarted
      · split_ifs at hstarted
        · cases hstarted
        · cases Option.some.inj (Except.ok.inj hstarted)
          exact ⟨rfl, rfl⟩
        · cases hstarted
        · obtain ⟨tables, _, hstarted⟩ := Except.bind_eq_ok_iff.mp hstarted
          cases Except.pure_eq_ok_iff.mp hstarted
          exact ⟨rfl, rfl⟩

/-- A restart finds the quality data it left. -/
theorem QualitySound.openLedger (h : ledger.QualitySound digest)
    (hok : ledger.openLedger seed = .ok next) :
    next.QualitySound digest ∧ next.liveQuality = ledger.liveQuality ∧
      next.metadata.ingestQualityArchive = ledger.metadata.ingestQualityArchive := by
  obtain ⟨migrated, hmigrated, hcounters, harchive⟩ := openLedger_quality hok
  obtain ⟨version, _, hmigrated⟩ := Except.bind_eq_ok_iff.mp hmigrated
  rw [h.stored] at hmigrated
  cases Except.pure_eq_ok_iff.mp hmigrated
  have hlive : next.liveQuality = ledger.liveQuality := by
    rw [liveQuality, hcounters]
    rfl
  refine ⟨⟨?_, ?_, ?_⟩, hlive, harchive⟩
  · rw [hcounters, hlive]
    exact h.stored
  · rw [hlive]
    exact h.live
  · rw [harchive]
    exact h.archive

/-- The counters a seed file brings. -/
def seedCounters (seed : Except String (Option IngestQualitySeed)) : IngestQualityCounters :=
  match readIngestQualitySeed seed with
  | .ok found => found.getD default
  | .error _ => default

theorem readIngestQualitySeed_reconciled {found : Option IngestQualityCounters}
    (hok : readIngestQualitySeed seed = .ok found) : (found.getD default).Reconciled := by
  obtain ⟨file, _, hok⟩ := Except.bind_eq_ok_iff.mp hok
  cases file with
  | none =>
      cases Except.pure_eq_ok_iff.mp hok
      exact IngestQualityCounters.zero_reconciled
  | some file =>
      obtain ⟨counters, hcounters, hok⟩ := Except.bind_eq_ok_iff.mp hok
      cases Except.pure_eq_ok_iff.mp hok
      rw [IngestQualitySeed.intoCounters] at hcounters
      split_ifs at hcounters
      obtain ⟨reconciled, hreconciled, hcounters⟩ := Except.bind_eq_ok_iff.mp hcounters
      obtain ⟨total, _, hcounters⟩ := Except.bind_eq_ok_iff.mp hcounters
      split_ifs at hcounters
      cases Except.pure_eq_ok_iff.mp hcounters
      exact IngestQualityCounters.reconcileReasonMaps_reconciled hreconciled

/-- The first open stores the counters of the seed. -/
theorem openLedger_seeds (hcounters : ledger.metadata.ingestQualityCounters = none)
    (harchive : ledger.metadata.ingestQualityArchive = none)
    (hok : ledger.openLedger seed = .ok next) :
    next.QualitySound digest ∧ next.liveQuality = seedCounters seed ∧
      next.metadata.ingestQualityArchive = none := by
  obtain ⟨migrated, hmigrated, hnextCounters, hnextArchive⟩ := openLedger_quality hok
  obtain ⟨version, _, hmigrated⟩ := Except.bind_eq_ok_iff.mp hmigrated
  rw [hcounters] at hmigrated
  obtain ⟨found, hfound, hmigrated⟩ := Except.bind_eq_ok_iff.mp hmigrated
  split_ifs at hmigrated
  obtain ⟨checked, hchecked, hmigrated⟩ := Except.bind_eq_ok_iff.mp hmigrated
  cases Except.pure_eq_ok_iff.mp hmigrated
  have hreconciled := readIngestQualitySeed_reconciled hfound
  cases Except.ok.inj (hreconciled.reconcileReasonMaps_eq.symm.trans hchecked)
  have hlive : next.liveQuality = seedCounters seed := by
    rw [liveQuality, hnextCounters, seedCounters, hfound]
    rfl
  have hnone : next.metadata.ingestQualityArchive = none := hnextArchive.trans harchive
  have hseed : seedCounters seed = found.getD default := by rw [seedCounters, hfound]
  refine ⟨⟨?_, ?_, ?_⟩, hlive, hnone⟩
  · rw [hnextCounters, hlive, hseed]
  · rw [hlive, hseed]
    exact hreconciled
  · rw [hnone]
    intro archive hsome
    cases hsome

end Open

end DeliveryLedger

end ChipTrace
