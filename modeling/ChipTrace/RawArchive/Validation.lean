/-
What the archiver builds, its readers accept: the manifest of the discovered segments
passes every check that a reader makes before it trusts a checkpoint.
-/
import ChipTrace.RawArchive.Manifest

namespace ChipTrace

def SegmentEntry.key (entry : SegmentEntry) : String × Nat := (entry.shard, entry.segmentId)

def LocalSegment.key (segment : LocalSegment) : String × Nat :=
  (segment.shard, segment.segmentId)

/-- Strictly before, in order of shard and number. -/
def KeyBefore (left right : String × Nat) : Prop :=
  left.1 < right.1 ∨ (left.1 = right.1 ∧ left.2 < right.2)

theorem entryBefore_iff {left right : String × Nat} :
    entryBefore left right = true ↔ KeyBefore left right := by
  simp [entryBefore, KeyBefore]

theorem KeyBefore.asymm {left right : String × Nat} (h : KeyBefore left right) :
    ¬ KeyBefore right left := by
  rintro (hlt | ⟨heq, hlt⟩) <;> rcases h with hlt' | ⟨heq', hlt'⟩
  · exact lt_asymm hlt hlt'
  · exact lt_irrefl _ (heq' ▸ hlt)
  · exact lt_irrefl _ (heq ▸ hlt')
  · exact lt_asymm hlt hlt'

theorem KeyBefore.ne {left right : String × Nat} (h : KeyBefore left right) : left ≠ right := by
  rintro rfl
  exact h.asymm h

/-! How many records a segment can hold. -/

theorem splitOn_nonempty_le (separator : UInt8) (content : Bytes) :
    (content.splitOn separator).countP (fun line => !line.isEmpty) ≤ content.length := by
  induction content with
  | nil => simp
  | cons byte rest ih =>
      rw [List.splitOn_cons_eq_if_modifyHead]
      split
      · simp only [List.countP_cons, List.length_cons]
        simp
        omega
      · cases hsplit : rest.splitOn separator with
        | nil => exact absurd hsplit (List.splitOn_ne_nil separator rest)
        | cons first lines =>
            rw [hsplit, List.countP_cons] at ih
            simp only [List.modifyHead_cons, List.countP_cons, List.length_cons]
            simp
            omega

theorem recordLines_length_le (content : Bytes) :
    (recordLines content).length ≤ content.length := by
  have hcount : (recordLines content).length =
      (content.splitOn 10).countP fun line => !(stripLineEnding line).all isAsciiWhitespace := by
    rw [recordLines, ← List.countP_eq_length_filter, List.countP_map]
    rfl
  rw [hcount]
  apply le_trans (List.countP_mono_left ?_) (splitOn_nonempty_le 10 content)
  intro line _ hline
  cases line with
  | nil => simp [stripLineEnding] at hline
  | cons byte rest => rfl

theorem RecordReader.read_length {reader : RecordReader} {json : Bytes → Option Json}
    {content : Bytes} {records : List Json} (h : reader.read json content = .ok records) :
    records.length = (recordLines content).length :=
  (List.mapM_eq_ok_iff.mp h).length_eq.symm

theorem SegmentFacts.records_le {sha256 : Bytes → String} {json : Bytes → Option Json}
    {segment : LocalSegment} (h : SegmentFacts sha256 json segment) :
    segment.records ≤ segment.bytes := by
  obtain ⟨records, hread, hrecords, _⟩ := h.records
  rw [hrecords, h.bytes, RecordReader.read_length hread]
  exact recordLines_length_le segment.content

/-! The walk over the entries in their order. -/

theorem foldlM_sequenceStep (rules : SequenceRules) {entries : List SegmentEntry}
    (walk : SequenceWalk)
    (hentry : ∀ entry ∈ entries, SafeComponent entry.shard ∧ entry.segmentId ≠ 0 ∧
      rules.check entry = .ok ())
    (hordered : (entries.map SegmentEntry.key).Pairwise KeyBefore)
    (hprevious : ∀ previous ∈ walk.previous, ∀ entry ∈ entries, KeyBefore previous entry.key)
    (hfresh : ∀ entry ∈ entries, entry.key ∉ walk.seen) :
    ∃ final, entries.foldlM (sequenceStep rules) walk = .ok final ∧
      final.seen = (entries.map SegmentEntry.key).reverse ++ walk.seen := by
  induction entries generalizing walk with
  | nil => exact ⟨walk, rfl, rfl⟩
  | cons entry rest ih =>
      obtain ⟨hshard, hid, hcheck⟩ := hentry entry List.mem_cons_self
      rw [List.map_cons, List.pairwise_cons] at hordered
      have hstep : sequenceStep rules walk entry =
          .ok ⟨some entry.key, entry.key :: walk.seen⟩ := by
        have hunordered : walk.previous.any (entryBefore entry.key) = false := by
          cases hlast : walk.previous with
          | none => rfl
          | some previous =>
              rw [Option.any_some, ← Bool.not_eq_true, entryBefore_iff]
              exact (hprevious previous hlast entry List.mem_cons_self).asymm
        have hnew : walk.seen.contains entry.key = false := by
          simpa using hfresh entry List.mem_cons_self
        have hid : (entry.segmentId == 0) = false := by simpa using hid
        refine Except.bind_eq_ok_iff.mpr ⟨(), validateComponent_iff.mpr hshard, ?_⟩
        refine Except.bind_eq_ok_iff.mpr ⟨(), refuseIf_eq_ok.mpr hid, ?_⟩
        refine Except.bind_eq_ok_iff.mpr ⟨(), hcheck, ?_⟩
        refine Except.bind_eq_ok_iff.mpr ⟨(), refuseIf_eq_ok.mpr hunordered, ?_⟩
        exact Except.bind_eq_ok_iff.mpr ⟨(), refuseIf_eq_ok.mpr hnew, rfl⟩
      have hlater : ∀ other ∈ rest, KeyBefore entry.key other.key := by
        intro other hother
        exact hordered.1 other.key (List.mem_map_of_mem hother)
      obtain ⟨final, hrun, hseen⟩ := ih ⟨some entry.key, entry.key :: walk.seen⟩
        (fun other hother => hentry other (List.mem_cons_of_mem _ hother)) hordered.2
        (by
          intro previous hmem other hother
          rw [Option.mem_some_iff] at hmem
          exact hmem ▸ hlater other hother)
        (by
          intro other hother hmem
          rcases List.mem_cons.mp hmem with heq | hseen
          · exact (hlater other hother).ne heq.symm
          · exact hfresh other (List.mem_cons_of_mem _ hother) hseen)
      refine ⟨final, ?_, ?_⟩
      · rw [List.foldlM_cons, hstep]
        exact hrun
      · rw [hseen]
        simp

/-! The numbers of a shard. -/

/-- Each number follows the one before it; the first is 1 if nothing came before. -/
def Consecutive : Option Nat → List Nat → Prop
  | _, [] => True
  | none, id :: rest => id = 1 ∧ Consecutive (some id) rest
  | some last, id :: rest => id = U64.saturatingAdd last 1 ∧ Consecutive (some id) rest

def idsOf (keys : List (String × Nat)) (shard : String) : List Nat :=
  (keys.filter fun key => key.1 == shard).map Prod.snd

theorem idsOf_cons (key : String × Nat) (keys : List (String × Nat)) (shard : String) :
    idsOf (key :: keys) shard =
      if key.1 = shard then key.2 :: idsOf keys shard else idsOf keys shard := by
  unfold idsOf
  by_cases heq : key.1 = shard
  · simp [heq]
  · simp [heq]

/-- What the gap check of the discovery has seen of each shard. -/
theorem consecutive_of_checkGaps {segments : List LocalSegment}
    {previous last : Table String Nat}
    (h : segments.foldlM gapStep previous = .ok last) (shard : String) :
    Consecutive (previous.get? shard) (idsOf (segments.map LocalSegment.key) shard) := by
  induction segments generalizing previous with
  | nil => simp [idsOf, Consecutive]
  | cons segment rest ih =>
      rw [List.foldlM_cons, Except.bind_eq_ok_iff] at h
      obtain ⟨next, hstep, hrest⟩ := h
      have htail := ih hrest
      rw [List.map_cons, idsOf_cons]
      have hnext : next = previous.insert segment.shard segment.segmentId ∧
          ∀ rest, Consecutive (some segment.segmentId) rest →
            Consecutive (previous.get? segment.shard) (segment.segmentId :: rest) := by
        unfold gapStep at hstep
        split at hstep
        · rename_i previousId hprevious
          split at hstep
          · cases hstep
          rename_i hfollows
          cases hstep
          refine ⟨rfl, fun rest hrest => ?_⟩
          rw [hprevious]
          exact ⟨not_not.mp hfollows, hrest⟩
        · rename_i hprevious
          split at hstep
          · cases hstep
          rename_i hfirst
          cases hstep
          refine ⟨rfl, fun rest hrest => ?_⟩
          rw [hprevious]
          exact ⟨not_not.mp hfirst, hrest⟩
      obtain ⟨rfl, hcons⟩ := hnext
      split
      · rename_i heq
        have heq : segment.shard = shard := heq
        subst heq
        rw [Table.get?_insert_self] at htail
        exact hcons _ htail
      · rename_i hne
        have hne : shard ≠ segment.shard := fun heq => hne heq.symm
        rw [Table.get?_insert_of_ne _ hne] at htail
        exact htail

theorem Consecutive.startsAtOne {ids : List Nat} (h : Consecutive none ids) (hne : ids ≠ []) :
    startsAtOne ids = true := by
  cases ids with
  | nil => exact absurd rfl hne
  | cons id rest => simp [ChipTrace.startsAtOne, h.1]

theorem Consecutive.noGap {previous : Option Nat} {ids : List Nat}
    (h : Consecutive previous ids) : noGap ids = true := by
  induction ids generalizing previous with
  | nil => rfl
  | cons id rest ih =>
      have hrest : Consecutive (some id) rest := by
        cases previous <;> exact h.2
      cases rest with
      | nil => rfl
      | cons next rest =>
          have htail : ChipTrace.noGap (next :: rest) = true := ih hrest
          simp only [ChipTrace.noGap, List.tail_cons, List.zip_cons_cons, List.all_cons,
            Bool.and_eq_true, beq_iff_eq] at htail ⊢
          exact ⟨hrest.1, htail⟩

/-- The numbers of a shard in a list of keys that are in order. -/
theorem shardIds_of_perm {seen keys : List (String × Nat)} (hperm : seen.Perm keys)
    (hordered : keys.Pairwise KeyBefore) (shard : String) :
    shardIds seen shard = idsOf keys shard := by
  have hids : (idsOf keys shard).Pairwise (· ≤ ·) := by
    rw [idsOf, List.pairwise_map, List.pairwise_filter]
    refine hordered.imp ?_
    intro left right hbefore hleft hright
    rcases hbefore with hlt | ⟨_, hlt⟩
    · rw [beq_iff_eq] at hleft hright
      exact absurd hlt (by rw [hleft, hright]; exact lt_irrefl shard)
    · exact le_of_lt hlt
  have hsorted : (shardIds seen shard).Pairwise (· ≤ ·) := by
    simpa [shardIds] using @List.pairwise_mergeSort _ (fun a b : Nat => decide (a ≤ b))
      (by simpa using fun a b c => Nat.le_trans) (by simpa using Nat.le_total)
      ((seen.filter fun key => key.1 == shard).map Prod.snd)
  have hsame : (shardIds seen shard).Perm (idsOf keys shard) :=
    (List.mergeSort_perm _ _).trans ((hperm.filter _).map Prod.snd)
  exact hsame.eq_of_pairwise (fun _ _ _ _ => Nat.le_antisymm) hsorted hids

theorem checkComplete_ok {seen : List (String × Nat)} {segments : List LocalSegment}
    (hperm : seen.Perm (segments.map LocalSegment.key))
    (hordered : (segments.map LocalSegment.key).Pairwise KeyBefore)
    {last : Table String Nat} (hgaps : checkGaps segments = .ok last) :
    checkComplete seen = .ok () := by
  apply List.forM_eq_ok_iff.mpr
  intro key hkey
  have hids := shardIds_of_perm hperm hordered key.1
  have hconsecutive : Consecutive none (shardIds seen key.1) := by
    rw [hids]
    exact consecutive_of_checkGaps hgaps key.1
  have hne : shardIds seen key.1 ≠ [] := by
    rw [hids]
    have hmem : key.2 ∈ idsOf (segments.map LocalSegment.key) key.1 := by
      apply List.mem_map.mpr
      exact ⟨key, List.mem_filter.mpr ⟨hperm.subset hkey, by simp⟩, rfl⟩
    exact List.ne_nil_of_mem hmem
  refine Except.bind_eq_ok_iff.mpr ⟨(), refuseIf_eq_ok.mpr ?_, refuseIf_eq_ok.mpr ?_⟩
  · rw [hconsecutive.startsAtOne hne]
    rfl
  · rw [hconsecutive.noGap]
    rfl

/-! Digests in keys. -/

theorem isHexDigit_plain {c : Char} (h : isHexDigit c = true) :
    c ≠ '/' ∧ c ≠ '\\' ∧ isControl c = false := by
  refine ⟨?_, ?_, ?_⟩
  · rintro rfl
    exact absurd h (by decide)
  · rintro rfl
    exact absurd h (by decide)
  · have hrange : 48 ≤ c.toNat ∧ c.toNat ≤ 102 := by
      have hle : ∀ low high : Char, 48 ≤ low.toNat → high.toNat ≤ 102 →
          low ≤ c ∧ c ≤ high → 48 ≤ c.toNat ∧ c.toNat ≤ 102 := by
        intro low high hlow hhigh hbetween
        exact ⟨le_trans hlow hbetween.1, le_trans hbetween.2 hhigh⟩
      simp only [isHexDigit, Bool.or_eq_true, Bool.and_eq_true, decide_eq_true_eq] at h
      rcases h with (hdigit | hlower) | hupper
      · rw [Decimal.isDigit, Decimal.digitValue?] at hdigit
        split at hdigit
        · rename_i hbetween
          exact hle '0' '9' (by decide) (by decide) hbetween
        · cases hdigit
      · exact hle 'a' 'f' (by decide) (by decide) hlower
      · exact hle 'A' 'F' (by decide) (by decide) hupper
    simp only [isControl, Bool.or_eq_false_iff, Bool.and_eq_false_iff, decide_eq_false_iff_not]
    omega

theorem digest_safe {digest : String} (h : isHexDigest digest = true) :
    SafeComponent (digest ++ ".ndjson") := by
  rw [isHexDigest, Bool.and_eq_true, List.all_eq_true] at h
  have hplain : ∀ c ∈ (digest ++ ".ndjson").toList,
      c ≠ '/' ∧ c ≠ '\\' ∧ isControl c = false := by
    intro c hc
    rw [String.toList_append, List.mem_append] at hc
    rcases hc with hc | hc
    · exact isHexDigit_plain (h.2 c hc)
    · have hsuffix : (".ndjson".toList.all fun c =>
          c != '/' && c != '\\' && !isControl c) = true := by
        decide
      simpa [and_assoc] using List.all_eq_true.mp hsuffix c hc
  have hlength : 2 < (digest ++ ".ndjson").toList.length := by
    rw [String.toList_append, List.length_append]
    have hseven : ".ndjson".toList.length = 7 := rfl
    omega
  refine ⟨?_, ?_, fun hc => (hplain _ hc).1 rfl, fun hc => (hplain _ hc).2.1 rfl, ?_⟩
  · intro heq
    rw [heq] at hlength
    exact absurd hlength (by decide)
  · rw [isDotComponent, Bool.or_eq_false_iff, beq_eq_false_iff_ne, beq_eq_false_iff_ne]
    constructor
    · intro heq
      rw [heq] at hlength
      exact absurd hlength (by decide)
    · intro heq
      rw [heq] at hlength
      exact absurd hlength (by decide)
  · rw [List.any_eq_false]
    intro c hc
    rw [(hplain c hc).2.2]
    exact Bool.false_ne_true

/-! The descriptors of the built manifest and their totals. -/

/-- A descriptor that passes its checks. -/
structure EntryValid (paths : ArchivePaths) (empty : Bool) (entry : SegmentEntry) : Prop where
  shard : SafeComponent entry.shard
  objectKey : entry.objectKey = paths.objectKey entry.sha256
  safe : SafeKey entry.objectKey
  sha256 : isHexDigest entry.sha256 = true
  sourcePath : entry.sourcePath = segmentSourcePath entry.shard entry.segmentId
  bytes : empty = false → entry.bytes ≠ 0
  records : empty = false → entry.records ≠ 0
  noRecords : empty = true → entry.records = 0

theorem entryStep_ok {paths : ArchivePaths} {totals : Totals} {entry : SegmentEntry}
    {empty : Bool} (hvalid : EntryValid paths empty entry)
    (hfresh : entry.key ∉ totals.seen) (hbytes : totals.bytes + entry.bytes < U64.limit)
    (hrecords : totals.records + entry.records < U64.limit) :
    entryStep paths totals (entry, empty) = .ok
      ⟨entry.key :: totals.seen, totals.bytes + entry.bytes, totals.records + entry.records⟩ := by
  have hrefuse : (entry.sourcePath != segmentSourcePath entry.shard entry.segmentId ||
      entry.objectKey != paths.objectKey entry.sha256 ||
      totals.seen.contains (entry.shard, entry.segmentId) ||
      (!empty && (entry.bytes == 0 || entry.records == 0)) ||
      (empty && entry.records != 0)) = false := by
    have hnew : totals.seen.contains entry.key = false := by
      simpa using hfresh
    change (_ || _ || totals.seen.contains entry.key || _ || _) = false
    rw [hnew]
    cases empty with
    | false => simp [hvalid.sourcePath, hvalid.objectKey, hvalid.bytes, hvalid.records]
    | true => simp [hvalid.sourcePath, hvalid.objectKey, hvalid.noRecords]
  refine Except.bind_eq_ok_iff.mpr ⟨(), validateComponent_iff.mpr hvalid.shard, ?_⟩
  refine Except.bind_eq_ok_iff.mpr ⟨(), validateKey_iff.mpr hvalid.safe, ?_⟩
  refine Except.bind_eq_ok_iff.mpr ⟨(), refuseIf_eq_ok.mpr (by simp [hvalid.sha256]), ?_⟩
  refine Except.bind_eq_ok_iff.mpr ⟨(), refuseIf_eq_ok.mpr hrefuse, ?_⟩
  refine Except.bind_eq_ok_iff.mpr ⟨_, U64.checkedAdd_eq_ok_iff.mpr ⟨hbytes, rfl⟩, ?_⟩
  exact Except.bind_eq_ok_iff.mpr ⟨_, U64.checkedAdd_eq_ok_iff.mpr ⟨hrecords, rfl⟩, rfl⟩

theorem foldlM_entryStep {paths : ArchivePaths} {items : List (SegmentEntry × Bool)}
    (totals : Totals) (hvalid : ∀ item ∈ items, EntryValid paths item.2 item.1)
    (hnodup : (items.map fun item => item.1.key).Nodup)
    (hfresh : ∀ item ∈ items, item.1.key ∉ totals.seen)
    (hbytes : totals.bytes + (items.map (·.1.bytes)).sum < U64.limit)
    (hrecords : totals.records + (items.map (·.1.records)).sum < U64.limit) :
    ∃ final, items.foldlM (entryStep paths) totals = .ok final ∧
      final.bytes = totals.bytes + (items.map (·.1.bytes)).sum ∧
      final.records = totals.records + (items.map (·.1.records)).sum := by
  induction items generalizing totals with
  | nil => exact ⟨totals, rfl, by simp, by simp⟩
  | cons item rest ih =>
      simp only [List.map_cons, List.sum_cons] at hbytes hrecords ⊢
      rw [List.map_cons, List.nodup_cons] at hnodup
      have hstep := entryStep_ok (hvalid item List.mem_cons_self)
        (hfresh item List.mem_cons_self) (by omega) (by omega)
      obtain ⟨final, hrun, hfinalBytes, hfinalRecords⟩ := ih
        ⟨item.1.key :: totals.seen, totals.bytes + item.1.bytes,
          totals.records + item.1.records⟩
        (fun other hother => hvalid other (List.mem_cons_of_mem _ hother)) hnodup.2
        (by
          intro other hother hmem
          rcases List.mem_cons.mp hmem with heq | hseen
          · exact hnodup.1 (heq ▸ List.mem_map_of_mem hother)
          · exact hfresh other (List.mem_cons_of_mem _ hother) hseen)
        (by simp only; omega) (by simp only; omega)
      refine ⟨final, ?_, ?_, ?_⟩
      · rw [List.foldlM_cons, hstep]
        exact hrun
      · rw [hfinalBytes]
        simp only
        omega
      · rw [hfinalRecords]
        simp only
        omega

section Built

variable {sha256 : Bytes → String} {json : Bytes → Option Json}

theorem LocalSegment.entry_valid {segment : LocalSegment} {normalized archiveId : String}
    {paths : ArchivePaths} (hfacts : SegmentFacts sha256 json segment)
    (hdigest : ∀ bytes, isHexDigest (sha256 bytes) = true)
    (hpaths : PathsOf normalized archiveId paths) (hsafe : SafeKey paths.manifest) :
    EntryValid paths (segment.records == 0) (segment.entry paths) := by
  have hhex : isHexDigest segment.sha256 = true := hfacts.sha256 ▸ hdigest segment.content
  have hname := digest_safe hhex
  have hbase : SafeKey (rawBase normalized) := by
    rw [hpaths.manifest, safeKey_append, safeKey_append] at hsafe
    exact hsafe.1.1
  have hobjects : SafeKey "objects" := ⟨by decide, by decide, by decide⟩
  have hkey : SafeKey (paths.objectKey segment.sha256) := by
    rw [ArchivePaths.objectKey, hpaths.objects _ hname.slash, safeKey_append, safeKey_append]
    exact ⟨⟨hbase, hobjects⟩, hname.safeKey⟩
  have hle := hfacts.records_le
  refine ⟨validateComponent_iff.mp hfacts.shard, rfl, hkey, hhex, rfl, ?_, ?_, ?_⟩
  · intro hrecords
    have hne : segment.records ≠ 0 := by simpa using hrecords
    change segment.bytes ≠ 0
    omega
  · intro hrecords
    change segment.records ≠ 0
    simpa using hrecords
  · intro hrecords
    change segment.records = 0
    simpa using hrecords

/-- The built manifest lists the segments with records, then those without. -/
structure Built (archiveId : String) (paths : ArchivePaths) (segments : List LocalSegment)
    (completeSource : Bool) (manifest : RawArchiveManifest) : Prop where
  schemaVersion : manifest.schemaVersion = rawArchiveSchemaVersion
  archiveId : manifest.archiveId = archiveId
  createdAtUtc : manifest.createdAtUtc = ((segments.head?).map (·.createdAt)).getD ""
  format : manifest.format = rawArchiveFormat
  completeness : manifest.completeness = completenessOf completeSource
  segmentCount : manifest.segmentCount = manifest.segments.length
  dataEntries : manifest.segments =
    (segments.filter fun segment => 0 < segment.records).map (·.entry paths)
  emptyEntries : manifest.emptySegments =
    (segments.filter fun segment => segment.records == 0).map (·.entry paths)
  nonempty : manifest.segments ≠ []
  totalRecords : manifest.totalRecords = (manifest.segments.map (·.records)).sum % U64.limit
  totalBytes : manifest.totalBytes = (segments.map (·.bytes)).sum % U64.limit

theorem buildManifest_ok {archiveId : String} {paths : ArchivePaths}
    {segments : List LocalSegment} {completeSource : Bool} {manifest : RawArchiveManifest}
    (h : buildManifest archiveId paths segments completeSource = .ok manifest) :
    Built archiveId paths segments completeSource manifest := by
  simp only [buildManifest] at h
  split at h
  · cases h
  rename_i hnonempty
  cases h
  refine ⟨rfl, rfl, rfl, rfl, rfl, rfl, rfl, rfl, ?_, rfl, rfl⟩
  simpa [List.isEmpty_iff] using hnonempty

variable {archiveId : String} {paths : ArchivePaths} {segments : List LocalSegment}
variable {completeSource : Bool} {manifest : RawArchiveManifest}

/-- The entries, each with whether it is listed as empty. -/
def RawArchiveManifest.described (manifest : RawArchiveManifest) :
    List (SegmentEntry × Bool) :=
  manifest.segments.map (·, false) ++ manifest.emptySegments.map (·, true)

def LocalSegment.described (paths : ArchivePaths) (segment : LocalSegment) :
    SegmentEntry × Bool :=
  (segment.entry paths, segment.records == 0)

theorem Built.described_perm (h : Built archiveId paths segments completeSource manifest) :
    manifest.described.Perm (segments.map (LocalSegment.described paths)) := by
  have hdata : manifest.segments.map (·, false) =
      (segments.filter fun segment => 0 < segment.records).map
        (LocalSegment.described paths) := by
    rw [h.dataEntries, List.map_map]
    apply List.map_congr_left
    intro segment hsegment
    have hpositive : 0 < segment.records := by simpa using (List.mem_filter.mp hsegment).2
    have hne : (segment.records == 0) = false := by
      rw [beq_eq_false_iff_ne]
      omega
    simp [LocalSegment.described, hne]
  have hempty : manifest.emptySegments.map (·, true) =
      (segments.filter fun segment => !decide (0 < segment.records)).map
        (LocalSegment.described paths) := by
    have hfilter : (segments.filter fun segment => segment.records == 0) =
        segments.filter fun segment => !decide (0 < segment.records) := by
      apply List.filter_congr
      intro segment _
      cases segment.records <;> simp
    rw [h.emptyEntries, hfilter, List.map_map]
    apply List.map_congr_left
    intro segment hsegment
    have hzero : segment.records = 0 := by simpa using (List.mem_filter.mp hsegment).2
    simp [LocalSegment.described, hzero]
  rw [RawArchiveManifest.described, hdata, hempty, ← List.map_append]
  exact (List.filter_append_perm _ segments).map _

theorem Discovered.keys_ordered {allowGaps : Bool}
    (h : Discovered sha256 json allowGaps segments) :
    (segments.map LocalSegment.key).Pairwise KeyBefore :=
  List.pairwise_map.mpr h.ordered

theorem Built.keys_perm (h : Built archiveId paths segments completeSource manifest) :
    (manifest.described.map fun item => item.1.key).Perm (segments.map LocalSegment.key) := by
  have hmap := h.described_perm.map fun item => item.1.key
  rw [List.map_map] at hmap
  exact hmap

theorem described_keys (manifest : RawArchiveManifest) :
    (manifest.described.map fun item => item.1.key) =
      manifest.segments.map SegmentEntry.key ++ manifest.emptySegments.map SegmentEntry.key := by
  rw [RawArchiveManifest.described, List.map_append, List.map_map, List.map_map]
  rfl

/-- Every descriptor of the built manifest comes from a segment. -/
theorem Built.described_valid (h : Built archiveId paths segments completeSource manifest)
    (hvalid : ∀ segment ∈ segments,
      EntryValid paths (segment.records == 0) (segment.entry paths)) :
    ∀ item ∈ manifest.described, EntryValid paths item.2 item.1 := by
  intro item hitem
  obtain ⟨segment, hsegment, rfl⟩ := List.mem_map.mp (h.described_perm.subset hitem)
  exact hvalid segment hsegment

theorem Built.validateSequence (h : Built archiveId paths segments completeSource manifest)
    {allowGaps : Bool} (hcomplete : completeSource = !allowGaps)
    (hsegments : Discovered sha256 json allowGaps segments)
    (hvalid : ∀ segment ∈ segments,
      EntryValid paths (segment.records == 0) (segment.entry paths)) :
    validateManifestSequence manifest = .ok () := by
  have hnodup : (manifest.described.map fun item => item.1.key).Nodup := by
    refine h.keys_perm.nodup_iff.mpr ?_
    exact hsegments.keys_ordered.imp KeyBefore.ne
  rw [described_keys, List.nodup_append] at hnodup
  have hdescribed := h.described_valid hvalid
  have hpositive : ∀ item ∈ manifest.described, item.1.segmentId ≠ 0 := by
    intro item hitem
    obtain ⟨segment, hsegment, rfl⟩ := List.mem_map.mp (h.described_perm.subset hitem)
    exact hsegments.positive segment hsegment
  have hdataMem : ∀ entry ∈ manifest.segments, (entry, false) ∈ manifest.described :=
    fun entry hentry => List.mem_append_left _ (List.mem_map_of_mem hentry)
  have hemptyMem : ∀ entry ∈ manifest.emptySegments, (entry, true) ∈ manifest.described :=
    fun entry hentry => List.mem_append_right _ (List.mem_map_of_mem hentry)
  obtain ⟨data, hdataRun, hdataSeen⟩ := foldlM_sequenceStep dataRules ⟨none, []⟩
    (by
      intro entry hentry
      exact ⟨(hdescribed _ (hdataMem entry hentry)).shard, hpositive _ (hdataMem entry hentry), rfl⟩)
    (by
      rw [h.dataEntries, List.map_map]
      exact hsegments.keys_ordered.sublist (List.filter_sublist.map LocalSegment.key))
    (by simp) (by simp)
  obtain ⟨walk, hemptyRun, hemptySeen⟩ := foldlM_sequenceStep emptyRules ⟨none, data.seen⟩
    (by
      intro entry hentry
      have hentryValid := hdescribed _ (hemptyMem entry hentry)
      refine ⟨hentryValid.shard, hpositive _ (hemptyMem entry hentry), ?_⟩
      have hcreatedAt : Text.isBlank entry.createdAt = false := by
        rw [h.emptyEntries] at hentry
        obtain ⟨segment, hsegment, rfl⟩ := List.mem_map.mp hentry
        exact (hsegments.facts (List.mem_filter.mp hsegment).1).createdAt
      refine Except.bind_eq_ok_iff.mpr
        ⟨(), refuseIf_eq_ok.mpr (bne_eq_false_iff_eq.mpr hentryValid.sourcePath), ?_⟩
      refine Except.bind_eq_ok_iff.mpr
        ⟨(), refuseIf_eq_ok.mpr (bne_eq_false_iff_eq.mpr (hentryValid.noRecords rfl)), ?_⟩
      refine Except.bind_eq_ok_iff.mpr
        ⟨(), refuseIf_eq_ok.mpr (by simp [hentryValid.sha256]), ?_⟩
      exact refuseIf_eq_ok.mpr hcreatedAt)
    (by
      rw [h.emptyEntries, List.map_map]
      exact hsegments.keys_ordered.sublist (List.filter_sublist.map LocalSegment.key))
    (by simp)
    (by
      intro entry hentry hmem
      rw [hdataSeen, List.append_nil, List.mem_reverse] at hmem
      exact hnodup.2.2 _ hmem _ (List.mem_map_of_mem hentry) rfl)
  have hcompleteness : validCompleteness manifest.completeness = true := by
    rw [h.completeness]
    cases completeSource <;> decide
  refine Except.bind_eq_ok_iff.mpr ⟨(), refuseIf_eq_ok.mpr (by simp [hcompleteness]), ?_⟩
  refine Except.bind_eq_ok_iff.mpr ⟨data, hdataRun, ?_⟩
  refine Except.bind_eq_ok_iff.mpr ⟨walk, hemptyRun, ?_⟩
  split
  · rename_i hcompleteText
    have hgaps : allowGaps = false := by
      rw [h.completeness, hcomplete] at hcompleteText
      cases allowGaps with
      | false => rfl
      | true => exact absurd hcompleteText (by decide)
    obtain ⟨last, hlast⟩ := hsegments.gapless hgaps
    refine checkComplete_ok ?_ hsegments.keys_ordered hlast
    have hseen : walk.seen = (manifest.described.map fun item => item.1.key).reverse := by
      rw [hemptySeen, hdataSeen, described_keys, List.append_nil, List.reverse_append]
    rw [hseen]
    exact (List.reverse_perm _).trans h.keys_perm
  · rfl

/-- What the archiver builds passes the reader's check of the manifest. -/
theorem Built.validate (h : Built archiveId paths segments completeSource manifest)
    {allowGaps : Bool} (hcomplete : completeSource = !allowGaps)
    (hsegments : Discovered sha256 json allowGaps segments)
    (hvalid : ∀ segment ∈ segments,
      EntryValid paths (segment.records == 0) (segment.entry paths))
    (hfits : (segments.map (·.bytes)).sum < U64.limit) {checkpoint : RawArchiveCheckpoint}
    (hmatches : matchesCheckpoint manifest checkpoint = true) :
    validateManifest checkpoint paths manifest = .ok () := by
  have hbytes : (manifest.described.map (·.1.bytes)).sum = (segments.map (·.bytes)).sum := by
    have hmap := (h.described_perm.map (·.1.bytes)).sum_eq
    rw [List.map_map] at hmap
    exact hmap
  have hrecords : (manifest.described.map (·.1.records)).sum =
      (segments.map (·.records)).sum := by
    have hmap := (h.described_perm.map (·.1.records)).sum_eq
    rw [List.map_map] at hmap
    exact hmap
  have hle : (segments.map (·.records)).sum ≤ (segments.map (·.bytes)).sum :=
    List.sum_le_sum fun segment hsegment => (hsegments.facts hsegment).records_le
  have hdata : (manifest.described.map (·.1.records)).sum =
      (manifest.segments.map (·.records)).sum := by
    have hzero : (manifest.emptySegments.map (·.records)).sum = 0 := by
      rw [List.sum_eq_zero_iff]
      intro records hmem
      obtain ⟨entry, hentry, rfl⟩ := List.mem_map.mp hmem
      have hmemDescribed : (entry, true) ∈ manifest.described :=
        List.mem_append_right _ (List.mem_map_of_mem hentry)
      exact (h.described_valid hvalid _ hmemDescribed).noRecords rfl
    simp only [RawArchiveManifest.described, List.map_append, List.map_map, List.sum_append]
    change (manifest.segments.map (·.records)).sum + (manifest.emptySegments.map (·.records)).sum
      = _
    rw [hzero, Nat.add_zero]
  have hpositive : (manifest.segments.map (·.records)).sum ≠ 0 := by
    intro hzero
    obtain ⟨entry, rest, hentries⟩ := List.exists_cons_of_ne_nil h.nonempty
    have hmem : entry ∈ manifest.segments := hentries ▸ List.mem_cons_self
    have hmemDescribed : (entry, false) ∈ manifest.described :=
      List.mem_append_left _ (List.mem_map_of_mem hmem)
    apply (h.described_valid hvalid _ hmemDescribed).records rfl
    exact List.sum_eq_zero_iff.mp hzero _ (List.mem_map_of_mem hmem)
  obtain ⟨totals, hrun, htotalBytes, htotalRecords⟩ := foldlM_entryStep
    ⟨[], 0, 0⟩ (h.described_valid hvalid)
    (h.keys_perm.nodup_iff.mpr (hsegments.keys_ordered.imp KeyBefore.ne)) (by simp)
    (by rw [hbytes]; simpa using hfits) (by rw [hrecords]; simp only; omega)
  refine Except.bind_eq_ok_iff.mpr ⟨(), refuseIf_eq_ok.mpr (by simp [hmatches]), ?_⟩
  refine Except.bind_eq_ok_iff.mpr ⟨(), h.validateSequence hcomplete hsegments hvalid, ?_⟩
  refine Except.bind_eq_ok_iff.mpr ⟨totals, hrun, refuseIf_eq_ok.mpr ?_⟩
  have hmanifestBytes : manifest.totalBytes = totals.bytes := by
    rw [h.totalBytes, htotalBytes, hbytes, Nat.mod_eq_of_lt hfits]
    exact (Nat.zero_add _).symm
  have hmanifestRecords : manifest.totalRecords = totals.records := by
    rw [h.totalRecords, htotalRecords, ← hdata, Nat.mod_eq_of_lt (by omega)]
    exact (Nat.zero_add _).symm
  have hrecordsNe : totals.records ≠ 0 := by
    simp only [Nat.zero_add] at htotalRecords
    omega
  have hbytesNe : totals.bytes ≠ 0 := by
    simp only [Nat.zero_add] at htotalBytes htotalRecords
    omega
  simp [hmanifestBytes, hmanifestRecords, hrecordsNe, hbytesNe]

end Built

end ChipTrace
