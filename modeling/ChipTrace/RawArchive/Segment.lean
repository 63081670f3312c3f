/-
Sealed segments: the lines of a segment file, the three readers that count its
records, and the discovery of the segments of a file tree.
-/
import ChipTrace.Lib.Checked
import ChipTrace.Lib.Decimal
import ChipTrace.RawArchive.Types
import Mathlib.Data.List.Lex

namespace ChipTrace

/-! The lines of a segment. -/

def stripLineEnding (line : Bytes) : Bytes :=
  line.rdropWhile fun byte => byte == 10 || byte == 13

/-- The lines that carry something other than white space. -/
def recordLines (content : Bytes) : List Bytes :=
  ((content.splitOn 10).map stripLineEnding).filter fun line => !line.all isAsciiWhitespace

/-- A reader of the records of a segment. -/
structure RecordReader where
  accepts : Json → Bool
  invalidJson : String
  lacksCaptureId : String

def RecordReader.readLine (reader : RecordReader) (json : Bytes → Option Json) (line : Bytes) :
    Except String Json :=
  match json line with
  | none => .error reader.invalidJson
  | some value => if reader.accepts value then .ok value else .error reader.lacksCaptureId

def RecordReader.read (reader : RecordReader) (json : Bytes → Option Json) (content : Bytes) :
    Except String (List Json) :=
  (recordLines content).mapM (reader.readLine json)

def captureIdOf (value : Json) : Option String := (value.get? "captureId").bind Json.asStr

/-- The check of `read_segment` and of `verify_remote_segment_records`. -/
def hasCaptureId (value : Json) : Bool := value.isObject && (captureIdOf value).isSome

/-- The check of `local_segment_records`. -/
def hasNonBlankCaptureId (value : Json) : Bool :=
  value.isObject && (captureIdOf value).any fun id => !Text.isBlank id

def segmentReader : RecordReader where
  accepts := hasCaptureId
  invalidJson := "invalid JSON in segment record"
  lacksCaptureId := "raw segment record lacks an object captureId"

def remoteReader : RecordReader where
  accepts := hasCaptureId
  invalidJson := "invalid JSON in remote raw object"
  lacksCaptureId := "remote raw object contains a record without captureId"

def localReader : RecordReader where
  accepts := hasNonBlankCaptureId
  invalidJson := "invalid JSON in restored segment"
  lacksCaptureId := "restored segment contains a record without captureId"

def localSegmentRecords (json : Bytes → Option Json) (content : Bytes) : Except String Nat :=
  (localReader.read json content).map List.length

/-! A file tree: files by their path, and the directories that hold none. -/

abbrev FilePath := List String

structure FileTree where
  files : Table FilePath Bytes
  dirs : List FilePath

def FileTree.isFile (tree : FileTree) (path : FilePath) : Bool := (tree.files.get? path).isSome

def FileTree.below (tree : FileTree) (path : FilePath) : List (FilePath × Bytes) :=
  tree.files.entries.filter fun entry => path.isPrefixOf entry.1 && entry.1 != path

def FileTree.isDir (tree : FileTree) (path : FilePath) : Bool :=
  tree.dirs.contains path || !(tree.below path).isEmpty

def fileName (path : FilePath) : String := path.getLast?.getD ""

def isSealedSegment (path : FilePath) : Bool :=
  Text.endsWith (fileName path) ".sealed.ndjson" && Text.startsWith (fileName path) "segment-"

def isOpenSegment (path : FilePath) : Bool :=
  Text.endsWith (fileName path) ".open.ndjson" && Text.startsWith (fileName path) "segment-"

/-! One segment. -/

structure LocalSegment where
  sourcePath : FilePath
  shard : String
  segmentId : Nat
  bytes : Nat
  records : Nat
  sha256 : String
  createdAt : String
  sealedAt : Option String
  /-- What the file at the source path holds. -/
  content : Bytes
  deriving DecidableEq

/-- The number in `segment-<number>.sealed.ndjson`. -/
def segmentIdOf (name : String) : Option Nat := do
  let rest ← Text.stripPrefix? name "segment-"
  if Text.endsWith rest ".sealed.ndjson" then
    let id ← Decimal.parseUnsigned (rest.toList.take (rest.length - ".sealed.ndjson".length))
    if id < U64.limit then some id else none
  else none

/-- The nearest component that names a shard. -/
def shardOf (path : FilePath) : String :=
  ((path.reverse).find? fun component => Text.startsWith component "shard-").getD "shard-00000"

def nonBlankTime (value : Option Json) : Option String :=
  (value.bind Json.asStr).filter fun time => !Text.isBlank time

def observedTimes (record : Json) : List String :=
  ["receivedAt", "startedAt", "finishedAt"].filterMap (fun field =>
    nonBlankTime (record.get? field)) ++
  (nonBlankTime ((record.get? "lifecycleEvent").bind (·.get? "occurred_at"))).toList

section Discovery

variable (sha256 : Bytes → String) (json : Bytes → Option Json)

def readSegment (file : FilePath × Bytes) : Except String LocalSegment := do
  let some segmentId := segmentIdOf (fileName file.1)
    | .error s!"invalid sealed segment filename {fileName file.1}"
  let shard := shardOf file.1
  validateComponent "segment shard" shard
  let records ← segmentReader.read json file.2
  let times := records.flatMap observedTimes
  pure {
    sourcePath := file.1
    shard
    segmentId
    bytes := file.2.length
    records := records.length
    sha256 := sha256 file.2
    createdAt := times.min?.getD "unknown"
    sealedAt := times.max?
    content := file.2
  }

/-- The sealed segments below one input, added to those found so far. -/
def collectInput (tree : FileTree) (found : Table FilePath Bytes) (input : FilePath) :
    Except String (Table FilePath Bytes) :=
  match tree.files.get? input with
  | some content =>
      if isSealedSegment input then .ok (found.insert input content)
      else .error "raw archive input is not a sealed NDJSON segment"
  | none =>
      if tree.isDir input then
        (tree.below input).foldlM (fun found (entry : FilePath × Bytes) =>
          if isSealedSegment entry.1 then .ok (found.insert entry.1 entry.2)
          else if isOpenSegment entry.1 && entry.2.length != 0 then
            .error "raw archive found a non-empty open WAL segment"
          else .ok found) found
      else .error "raw archive input does not exist"

def segmentBefore (left right : LocalSegment) : Bool :=
  left.shard < right.shard ||
    (left.shard == right.shard && left.segmentId ≤ right.segmentId)

/-- A shard starts at 1, and each later segment follows the one before it. -/
def gapStep (previous : Table String Nat) (segment : LocalSegment) :
    Except String (Table String Nat) :=
  match previous.get? segment.shard with
  | some last =>
      if segment.segmentId ≠ U64.saturatingAdd last 1 then
        .error s!"raw segment sequence gap in {segment.shard}"
      else .ok (previous.insert segment.shard segment.segmentId)
  | none =>
      if segment.segmentId ≠ 1 then
        .error s!"raw archive for {segment.shard} starts at a later segment"
      else .ok (previous.insert segment.shard segment.segmentId)

def checkGaps (segments : List LocalSegment) : Except String (Table String Nat) :=
  segments.foldlM gapStep Table.empty

def checkSequence (allowGaps : Bool) (segments : List LocalSegment) :
    Except String (Table String Nat) :=
  if allowGaps then .ok Table.empty else checkGaps segments

/-- No segment is there twice, and no identifier is zero. -/
def duplicateStep (seen : List (String × Nat)) (segment : LocalSegment) :
    Except String (List (String × Nat)) :=
  if seen.contains (segment.shard, segment.segmentId) then
    .error s!"duplicate raw segment {segment.shard}"
  else if segment.segmentId = 0 then .error "raw segment IDs must be positive"
  else .ok ((segment.shard, segment.segmentId) :: seen)

def checkDuplicates (segments : List LocalSegment) : Except String (List (String × Nat)) :=
  segments.foldlM duplicateStep []

def discoverSegments (tree : FileTree) (inputs : List FilePath) (allowGaps : Bool) :
    Except String (List LocalSegment) := do
  let found ← inputs.foldlM (collectInput tree) Table.empty
  let read ← found.entries.mapM (readSegment sha256 json)
  let segments := read.mergeSort segmentBefore
  let _ ← checkSequence allowGaps segments
  let _ ← checkDuplicates segments
  pure segments

end Discovery

/-! What the discovery promises of the segments it returns. -/

/-- Strictly before, in order of shard and number. -/
def LocalSegment.Before (left right : LocalSegment) : Prop :=
  left.shard < right.shard ∨ (left.shard = right.shard ∧ left.segmentId < right.segmentId)

structure Discovered (sha256 : Bytes → String) (json : Bytes → Option Json)
    (allowGaps : Bool) (segments : List LocalSegment) : Prop where
  read : ∀ segment ∈ segments,
    readSegment sha256 json (segment.sourcePath, segment.content) = .ok segment
  ordered : segments.Pairwise LocalSegment.Before
  positive : ∀ segment ∈ segments, segment.segmentId ≠ 0
  gapless : allowGaps = false → ∃ last, checkGaps segments = .ok last

section Discovered

variable {sha256 : Bytes → String} {json : Bytes → Option Json}

/-- What a segment that was read records of its file. -/
structure SegmentFacts (sha256 : Bytes → String) (json : Bytes → Option Json)
    (segment : LocalSegment) : Prop where
  shard : validateComponent "segment shard" segment.shard = .ok ()
  bytes : segment.bytes = segment.content.length
  sha256 : segment.sha256 = sha256 segment.content
  createdAt : Text.isBlank segment.createdAt = false
  records : ∃ records, segmentReader.read json segment.content = .ok records ∧
    segment.records = records.length ∧
    segment.createdAt = (records.flatMap observedTimes).min?.getD "unknown" ∧
    segment.sealedAt = (records.flatMap observedTimes).max?
  id : segmentIdOf (fileName segment.sourcePath) = some segment.segmentId
  shardOf : segment.shard = shardOf segment.sourcePath

theorem nonBlankTime_not_blank {value : Option Json} {time : String}
    (h : nonBlankTime value = some time) : Text.isBlank time = false := by
  rw [nonBlankTime, Option.filter_eq_some_iff] at h
  simpa using h.2

theorem observedTimes_not_blank {record : Json} {time : String}
    (h : time ∈ observedTimes record) : Text.isBlank time = false := by
  rw [observedTimes, List.mem_append, List.mem_filterMap, Option.mem_toList] at h
  rcases h with ⟨field, _, hfield⟩ | hevent
  · exact nonBlankTime_not_blank hfield
  · exact nonBlankTime_not_blank hevent

theorem isBlank_unknown : Text.isBlank "unknown" = false := by decide +kernel

theorem readSegment_ok {file : FilePath × Bytes} {segment : LocalSegment}
    (h : readSegment sha256 json file = .ok segment) :
    segment.sourcePath = file.1 ∧ segment.content = file.2 ∧
      SegmentFacts sha256 json segment := by
  rw [readSegment] at h
  cases hid : segmentIdOf (fileName file.1) with
  | none =>
      rw [hid] at h
      cases h
  | some segmentId =>
      rw [hid] at h
      obtain ⟨_, hshard, h⟩ := Except.bind_eq_ok_iff.mp h
      obtain ⟨records, hrecords, h⟩ := Except.bind_eq_ok_iff.mp h
      cases h
      refine ⟨rfl, rfl, hshard, rfl, rfl, ?_, ⟨records, hrecords, rfl, rfl, rfl⟩, hid, rfl⟩
      cases hmin : (records.flatMap observedTimes).min? with
      | none => exact isBlank_unknown
      | some time =>
          have hmem := List.min?_mem hmin
          obtain ⟨record, _, htime⟩ := List.mem_flatMap.mp hmem
          exact observedTimes_not_blank htime

theorem Discovered.facts {allowGaps : Bool} {segments : List LocalSegment}
    (h : Discovered sha256 json allowGaps segments) {segment : LocalSegment}
    (hmem : segment ∈ segments) : SegmentFacts sha256 json segment :=
  (readSegment_ok (h.read segment hmem)).2.2

theorem segmentBefore_iff {left right : LocalSegment} :
    segmentBefore left right = true ↔ left.shard < right.shard ∨
      (left.shard = right.shard ∧ left.segmentId ≤ right.segmentId) := by
  simp [segmentBefore]

theorem segmentBefore_trans (a b c : LocalSegment) (hab : segmentBefore a b = true)
    (hbc : segmentBefore b c = true) : segmentBefore a c = true := by
  rw [segmentBefore_iff] at hab hbc ⊢
  rcases hab with hab | ⟨hab, habId⟩ <;> rcases hbc with hbc | ⟨hbc, hbcId⟩
  · exact Or.inl (lt_trans hab hbc)
  · exact Or.inl (hbc ▸ hab)
  · exact Or.inl (hab ▸ hbc)
  · exact Or.inr ⟨hab.trans hbc, habId.trans hbcId⟩

theorem segmentBefore_total (a b : LocalSegment) :
    (segmentBefore a b || segmentBefore b a) = true := by
  rw [Bool.or_eq_true, segmentBefore_iff, segmentBefore_iff]
  rcases lt_trichotomy a.shard b.shard with hlt | heq | hgt
  · exact Or.inl (Or.inl hlt)
  · rcases le_total a.segmentId b.segmentId with hle | hle
    · exact Or.inl (Or.inr ⟨heq, hle⟩)
    · exact Or.inr (Or.inr ⟨heq.symm, hle⟩)
  · exact Or.inr (Or.inl hgt)

/-- The walk that looks for duplicates remembers every segment. -/
theorem checkDuplicates_ok {segments : List LocalSegment} {start seen : List (String × Nat)}
    (h : segments.foldlM duplicateStep start = .ok seen) :
    (∀ segment ∈ segments, segment.segmentId ≠ 0 ∧ (segment.shard, segment.segmentId) ∉ start) ∧
      (segments.map fun segment => (segment.shard, segment.segmentId)).Nodup := by
  induction segments generalizing start with
  | nil => simp
  | cons segment rest ih =>
      rw [List.foldlM_cons, Except.bind_eq_ok_iff] at h
      obtain ⟨mid, hmid, hrest⟩ := h
      unfold duplicateStep at hmid
      split at hmid
      · cases hmid
      rename_i hfresh
      split at hmid
      · cases hmid
      rename_i hpositive
      cases hmid
      obtain ⟨hall, hnodup⟩ := ih hrest
      have hnotin : (segment.shard, segment.segmentId) ∉ start := by
        simpa using hfresh
      refine ⟨?_, ?_⟩
      · intro other hother
        rcases List.mem_cons.mp hother with rfl | hlater
        · exact ⟨hpositive, hnotin⟩
        · obtain ⟨hpos, hnot⟩ := hall other hlater
          exact ⟨hpos, fun hstart => hnot (List.mem_cons_of_mem _ hstart)⟩
      · rw [List.map_cons, List.nodup_cons]
        refine ⟨?_, hnodup⟩
        intro hmem
        obtain ⟨other, hother, heq⟩ := List.mem_map.mp hmem
        exact (hall other hother).2 (heq ▸ List.mem_cons_self)

theorem forall₂_mem_right {A B : Type*} {P : A → B → Prop} {left : List A} {right : List B}
    (h : List.Forall₂ P left right) : ∀ b ∈ right, ∃ a ∈ left, P a b := by
  induction h with
  | nil => simp
  | @cons a b left right hhead _ ih =>
      intro other hother
      rcases List.mem_cons.mp hother with rfl | hrest
      · exact ⟨a, List.mem_cons_self, hhead⟩
      · obtain ⟨found, hfound, hfact⟩ := ih other hrest
        exact ⟨found, List.mem_cons_of_mem a hfound, hfact⟩

theorem discoverSegments_ok {tree : FileTree} {inputs : List FilePath} {allowGaps : Bool}
    {segments : List LocalSegment}
    (h : discoverSegments sha256 json tree inputs allowGaps = .ok segments) :
    Discovered sha256 json allowGaps segments := by
  rw [discoverSegments] at h
  obtain ⟨found, _, h⟩ := Except.bind_eq_ok_iff.mp h
  obtain ⟨read, hread, h⟩ := Except.bind_eq_ok_iff.mp h
  obtain ⟨_, hgaps, h⟩ := Except.bind_eq_ok_iff.mp h
  obtain ⟨seen, hseen, h⟩ := Except.bind_eq_ok_iff.mp h
  cases h
  rw [List.mapM_eq_ok_iff] at hread
  obtain ⟨hpositive, hnodup⟩ := checkDuplicates_ok hseen
  refine ⟨?_, ?_, fun segment hmem => (hpositive segment hmem).1, ?_⟩
  · intro segment hmem
    have hmem : segment ∈ read := List.mem_mergeSort.mp hmem
    obtain ⟨file, _, hfile⟩ := forall₂_mem_right hread segment hmem
    obtain ⟨hpath, hcontent, _⟩ := readSegment_ok hfile
    rw [hpath, hcontent]
    exact hfile
  · have hsorted := List.pairwise_mergeSort segmentBefore_trans segmentBefore_total read
    rw [List.nodup_iff_pairwise_ne, List.pairwise_map] at hnodup
    refine hsorted.imp₂ ?_ hnodup
    intro left right hbefore hne
    rcases segmentBefore_iff.mp hbefore with hlt | ⟨heq, hle⟩
    · exact Or.inl hlt
    · have hid : left.segmentId ≠ right.segmentId := by
        intro hid
        exact hne (Prod.ext heq hid)
      exact Or.inr ⟨heq, lt_of_le_of_ne hle hid⟩
  · rintro rfl
    exact ⟨_, hgaps⟩

end Discovered

end ChipTrace
