/-
When the names of the outbox's files are told apart, by each other and by the listings.
-/
import ChipTrace.Gateway.Names

namespace ChipTrace.Gateway

def Kind.isTemporary : Kind → Bool
  | .temporary _ => true
  | _ => false

def Kind.isErrorNote : Kind → Bool
  | .errorNote _ => true
  | _ => false

/-- The files that the pending directory holds. -/
def Kind.inPending : Kind → Bool
  | .file .record | .temporary .record => true
  | _ => false

/-- The files that the directory of open captures holds. -/
def Kind.inOpen : Kind → Bool
  | .file .openMetadata | .file .request | .file .response | .temporary .openMetadata => true
  | _ => false

/-- What a file of the failed directory should be counted as. -/
def Kind.failedClass : Kind → Option FailedClass
  | .file .record | .file .openMetadata | .recoveryCopy => some .failed
  | .errorNote _ => some .auxiliary
  | _ => none

section Endings

theorem getLast?_of_endsWith {name : Name} {suffix : String} {c : Char}
    (hlast : suffix.toList.getLast? = some c) (hends : endsWith name suffix = true) :
    name.getLast? = some c := by
  obtain ⟨before, rfl⟩ := endsWith_iff.mp hends
  rw [List.getLast?_append, hlast]
  rfl

/-- A name does not end in two texts of different last characters. -/
theorem endsWith_unique {name : Name} {suffix other : String} {c d : Char} (hne : c ≠ d)
    (hc : suffix.toList.getLast? = some c) (hd : other.toList.getLast? = some d)
    (hends : endsWith name suffix = true) : endsWith name other = false := by
  rw [Bool.eq_false_iff]
  intro hother
  have hsame := (getLast?_of_endsWith hc hends).symm.trans (getLast?_of_endsWith hd hother)
  exact hne (Option.some.inj hsame)

end Endings

section Names

variable {sha256 : Bytes → Digest} {stamps : Set Stamp} {id : CaptureId} {name : Name}

/-- The text that `.json` is put behind in the name of a recovery copy. -/
def copyStem (sha256 : Bytes → Digest) (id : CaptureId) (stamp : Stamp) (readable : Bool) : Name :=
  shown sha256 (recoveryId sha256 id stamp readable) ++ ".json.recovery-".toList ++
    recoveryDigest sha256 id stamp

theorem recoveryCopyName_eq (id : CaptureId) (stamp : Stamp) (readable : Bool) :
    recoveryCopyName sha256 id stamp readable =
      copyStem sha256 id stamp readable ++ ".json".toList := by
  have hsplit : ".json.recovery-".toList = ".json".toList ++ ".recovery-".toList := by decide
  rw [recoveryCopyName, copyStem, captureFileName_shown, hsplit]
  simp only [List.append_assoc]

/-- A recovery copy does not end in a text whose last character is no hex digit. -/
theorem not_suffix_copyStem {suffix : Name} {c : Char} (hlast : suffix.getLast? = some c)
    (hdigit : Decimal.isDigit c = false) (hletter : c ∉ "abcdef".toList) (id : CaptureId)
    (stamp : Stamp) (readable : Bool) : ¬ suffix <:+ copyStem sha256 id stamp readable := by
  rintro ⟨before, hbefore⟩
  obtain ⟨front, d, hd, hhex⟩ := recoveryDigest_last sha256 id stamp
  have hcopy : (copyStem sha256 id stamp readable).getLast? = some d := by
    rw [copyStem, hd, ← List.append_assoc, List.getLast?_append]
    rfl
  rw [← hbefore, List.getLast?_append, hlast] at hcopy
  obtain rfl : c = d := Option.some.inj hcopy
  rcases hhex with hhex | hhex
  · rw [hdigit] at hhex
    exact Bool.false_ne_true hhex
  · exact hletter hhex

theorem HasName.endsWith_tmp {kind : Kind} (hname : HasName sha256 stamps id kind name) :
    endsWith name ".tmp" = kind.isTemporary := by
  cases hname with
  | file file =>
      rw [fileName_eq]
      cases file with
      | record | openMetadata | request | response => exact endsWith_append (by decide)
  | errorNote file => exact endsWith_append (by decide)
  | recoveryCopy stamp hstamp readable =>
      rw [recoveryCopyName_eq]
      exact endsWith_append (by decide)
  | temporary written stamp hstamp => exact Gateway.endsWith_tmp _ stamp

theorem openMetadata_not_error (base : Name) :
    endsWith (base ++ extension .openMetadata) ".error.json" = false := by
  have hsplit : ".error.json".toList = ".error".toList ++ ".json".toList := by decide
  have hopen : extension .openMetadata = ".open".toList ++ ".json".toList := by decide
  rw [Bool.eq_false_iff, Ne, endsWith_iff, hsplit, hopen, ← List.append_assoc,
    suffix_append_right_iff]
  intro hsuffix
  have hother : endsWith (base ++ ".open".toList) ".open" = true :=
    endsWith_iff.mpr (List.suffix_append _ _)
  have hnot : endsWith (base ++ ".open".toList) ".error" = false :=
    endsWith_unique (by decide : 'n' ≠ 'r') rfl rfl hother
  exact Bool.eq_false_iff.mp hnot (endsWith_iff.mpr hsuffix)

/-- Only error notes end in `.error.json`, unless a capture is shown with `.error` at its end. -/
theorem HasName.endsWith_error {kind : Kind} (hname : HasName sha256 stamps id kind name)
    (hending : ¬ ".error".toList <:+ shown sha256 id.text) :
    endsWith name ".error.json" = kind.isErrorNote := by
  have hsplit : ".error.json".toList = ".error".toList ++ ".json".toList := by decide
  cases hname with
  | file file =>
      rw [fileName_eq, stem_eq]
      cases file with
      | record =>
          have hkind : (Kind.file .record).isErrorNote = false := rfl
          have hrecord : extension .record = ".json".toList := rfl
          rw [hkind, Bool.eq_false_iff, Ne, endsWith_iff, hsplit, hrecord]
          intro hsuffix
          exact hending (suffix_append_right_iff.mp hsuffix)
      | openMetadata =>
          exact openMetadata_not_error _
      | request | response => exact endsWith_append (by decide)
  | errorNote file => exact endsWith_iff.mpr (List.suffix_append _ _)
  | recoveryCopy stamp hstamp readable =>
      have hkind : Kind.recoveryCopy.isErrorNote = false := rfl
      rw [hkind, Bool.eq_false_iff, recoveryCopyName_eq, Ne, endsWith_iff, hsplit,
        suffix_append_right_iff]
      exact not_suffix_copyStem (c := 'r') rfl (by decide) (by decide) id stamp readable
  | temporary written stamp hstamp =>
      exact endsWith_unique (by decide : 'p' ≠ 'n') rfl rfl (Gateway.endsWith_tmp _ stamp)

end Names

section Unambiguous

variable (sha256 : Bytes → Digest) (stamps : Set Stamp) (ids : Set CaptureId)

/-- No two files of captures share a name, every name is short enough for a directory, and every
listing takes a file for what it was written as. -/
structure Unambiguous : Prop where
  different : ∀ id ∈ ids, ∀ other ∈ ids, ∀ kind otherKind name,
    HasName sha256 stamps id kind name → HasName sha256 stamps other otherKind name →
      id = other ∧ kind = otherKind
  short : ∀ id ∈ ids, ∀ kind name, HasName sha256 stamps id kind name →
    Text.byteLength name ≤ 255
  drained : ∀ id ∈ ids, ∀ opened : List CaptureId, (∀ other ∈ opened, other ∈ ids) →
    (drainLists (opened.map fun other => fileName sha256 other .openMetadata)
      (fileName sha256 id .record) = true ↔ id ∉ opened)
  pending : ∀ id ∈ ids, ∀ kind name, HasName sha256 stamps id kind name →
    kind.inPending = true →
      (lists ".json" false name = true ↔ kind = .file .record) ∧
      (lists ".tmp" false name = true ↔ kind = .temporary .record)
  opened : ∀ id ∈ ids, ∀ kind name, HasName sha256 stamps id kind name → kind.inOpen = true →
    ∀ includeErrorMarkers,
      (lists ".open.json" includeErrorMarkers name = true ↔ kind = .file .openMetadata)
  failed : ∀ id ∈ ids, ∀ kind name, HasName sha256 stamps id kind name →
    failedClass name = kind.failedClass

/-- No capture is shown with the ending of another kind of file, or as another capture is, no two
temporaries have the same digest, and there is room for every ending. -/
structure Apart : Prop where
  errorEnding : ∀ id ∈ ids, ¬ ".error".toList <:+ shown sha256 id.text
  openEnding : ∀ id ∈ ids, ∀ other ∈ ids,
    shown sha256 id.text ≠ shown sha256 other.text ++ ".open".toList
  copyEnding : ∀ id ∈ ids, ∀ other ∈ ids, ∀ stamp ∈ stamps, ∀ readable,
    shown sha256 id.text ≠ copyStem sha256 other stamp readable
  shownApart : ∀ id ∈ ids, ∀ other ∈ ids,
    shown sha256 id.text = shown sha256 other.text → id = other
  digestsApart : ∀ id ∈ ids, ∀ other ∈ ids, ∀ stamp ∈ stamps, ∀ otherStamp ∈ stamps,
    recoveryDigest sha256 id stamp = recoveryDigest sha256 other otherStamp → id = other
  room : ∀ id ∈ ids, Text.byteLength (shown sha256 id.text) + 24 ≤ 255 ∧
    ∀ stamp ∈ stamps,
      Text.byteLength (shown sha256 id.text) + 24 + Text.byteLength stamp.text ≤ 255

end Unambiguous

section Different

variable {sha256 : Bytes → Digest} {stamps : Set Stamp} {ids : Set CaptureId}
  {id other : CaptureId}

theorem five_le_extension (file : CaptureFile) : 5 ≤ (extension file).length := by
  cases file with
  | record | openMetadata | request | response => decide

theorem shown_of_record_eq_open
    (heq : shown sha256 id.text ++ extension .record =
      shown sha256 other.text ++ extension .openMetadata) :
    shown sha256 id.text = shown sha256 other.text ++ ".open".toList := by
  have hopen : extension .openMetadata = ".open".toList ++ ".json".toList := by decide
  rw [hopen, ← List.append_assoc] at heq
  exact List.append_cancel_right heq

theorem Apart.fileName_inj (hapart : Apart sha256 stamps ids) (hid : id ∈ ids)
    (hother : other ∈ ids) {file otherFile : CaptureFile}
    (heq : fileName sha256 id file = fileName sha256 other otherFile) :
    id = other ∧ file = otherFile := by
  rw [fileName_eq, fileName_eq, stem_eq, stem_eq] at heq
  have hfive := congrArg lastFive heq
  rw [lastFive_append (five_le_extension _), lastFive_append (five_le_extension _)] at hfive
  have hfile : file = otherFile := by
    cases file with
    | record =>
        cases otherFile with
        | record => rfl
        | openMetadata =>
            exact absurd (shown_of_record_eq_open heq) (hapart.openEnding id hid other hother)
        | request | response => exact absurd hfive (by decide)
    | openMetadata =>
        cases otherFile with
        | record =>
            exact absurd (shown_of_record_eq_open heq.symm)
              (hapart.openEnding other hother id hid)
        | openMetadata => rfl
        | request | response => exact absurd hfive (by decide)
    | request =>
        cases otherFile with
        | request => rfl
        | record | openMetadata | response => exact absurd hfive (by decide)
    | response =>
        cases otherFile with
        | response => rfl
        | record | openMetadata | request => exact absurd hfive (by decide)
  subst hfile
  exact ⟨hapart.shownApart id hid other hother (List.append_cancel_right heq), rfl⟩

theorem Apart.fileName_ne_recoveryCopyName (hapart : Apart sha256 stamps ids) (hid : id ∈ ids)
    (hother : other ∈ ids) (file : CaptureFile) {stamp : Stamp} (hstamp : stamp ∈ stamps)
    (readable : Bool) :
    fileName sha256 id file ≠ recoveryCopyName sha256 other stamp readable := by
  intro heq
  rw [fileName_eq, stem_eq, recoveryCopyName_eq] at heq
  have hfive := congrArg lastFive heq
  rw [lastFive_append (five_le_extension _), lastFive_append (by decide)] at hfive
  cases file with
  | record =>
      exact hapart.copyEnding id hid other hother stamp hstamp readable
        (List.append_cancel_right heq)
  | openMetadata =>
      have hopen : extension .openMetadata = ".open".toList ++ ".json".toList := by decide
      rw [hopen, ← List.append_assoc] at heq
      have hsuffix := List.append_cancel_right heq
      have hends : ".open".toList <:+ copyStem sha256 other stamp readable := by
        rw [← hsuffix]
        exact List.suffix_append _ _
      exact not_suffix_copyStem (c := 'n') rfl (by decide) (by decide) other stamp readable hends
  | request | response => exact absurd hfive (by decide)

theorem Apart.recoveryCopyName_inj (hapart : Apart sha256 stamps ids) (hid : id ∈ ids)
    (hother : other ∈ ids) {stamp otherStamp : Stamp} (hstamp : stamp ∈ stamps)
    (hotherStamp : otherStamp ∈ stamps) {readable otherReadable : Bool}
    (heq : recoveryCopyName sha256 id stamp readable =
      recoveryCopyName sha256 other otherStamp otherReadable) :
    id = other := by
  rw [recoveryCopyName_eq, recoveryCopyName_eq] at heq
  have hstem := List.append_cancel_right heq
  have hlength : (recoveryDigest sha256 id stamp).length =
      (recoveryDigest sha256 other otherStamp).length := by
    rw [length_recoveryDigest, length_recoveryDigest]
  exact hapart.digestsApart id hid other hother stamp hstamp otherStamp hotherStamp
    (List.append_inj' hstem hlength).2

def Written.kind : Written → Kind
  | .record => .file .record
  | .openMetadata => .file .openMetadata
  | .errorNote file => .errorNote file

theorem Written.kind_injective {written other : Written} (heq : written.kind = other.kind) :
    written = other := by
  cases written with
  | record | openMetadata => cases other with
    | record | openMetadata => first | rfl | cases heq
    | errorNote file => cases heq
  | errorNote file => cases other with
    | record | openMetadata => cases heq
    | errorNote otherFile =>
        obtain rfl : file = otherFile := Kind.errorNote.inj heq
        rfl

theorem hasName_writtenName (id : CaptureId) (written : Written) :
    HasName sha256 stamps id written.kind (writtenName sha256 id written) := by
  cases written with
  | record => exact .file .record
  | openMetadata => exact .file .openMetadata
  | errorNote file => exact .errorNote file

/-- Files that are no temporaries have different names. -/
theorem Apart.lasting_inj (hapart : Apart sha256 stamps ids) (hid : id ∈ ids)
    (hother : other ∈ ids) {kind otherKind : Kind} {name otherName : Name}
    (hname : HasName sha256 stamps id kind name)
    (hotherName : HasName sha256 stamps other otherKind otherName)
    (hlasting : kind.isTemporary = false) (heq : name = otherName) :
    id = other ∧ kind = otherKind := by
  have htemporary : kind.isTemporary = otherKind.isTemporary := by
    rw [← hname.endsWith_tmp, ← hotherName.endsWith_tmp, heq]
  have hnote : kind.isErrorNote = otherKind.isErrorNote := by
    rw [← hname.endsWith_error (hapart.errorEnding id hid),
      ← hotherName.endsWith_error (hapart.errorEnding other hother), heq]
  cases hname with
  | temporary written stamp hstamp => cases hlasting
  | file file =>
      cases hotherName with
      | temporary written stamp hstamp => cases htemporary
      | errorNote otherFile => cases hnote
      | file otherFile =>
          obtain ⟨hsame, hfile⟩ := hapart.fileName_inj hid hother heq
          exact ⟨hsame, congrArg Kind.file hfile⟩
      | recoveryCopy stamp hstamp readable =>
          exact absurd heq
            (hapart.fileName_ne_recoveryCopyName hid hother file hstamp readable)
  | errorNote file =>
      cases hotherName with
      | temporary written stamp hstamp => cases htemporary
      | file otherFile => cases hnote
      | recoveryCopy stamp hstamp readable => cases hnote
      | errorNote otherFile =>
          obtain ⟨hsame, hfile⟩ := hapart.fileName_inj hid hother (List.append_cancel_right heq)
          exact ⟨hsame, congrArg Kind.errorNote hfile⟩
  | recoveryCopy stamp hstamp readable =>
      cases hotherName with
      | temporary written otherStamp hotherStamp => cases htemporary
      | errorNote otherFile => cases hnote
      | file otherFile =>
          exact absurd heq.symm
            (hapart.fileName_ne_recoveryCopyName hother hid otherFile hstamp readable)
      | recoveryCopy otherStamp hotherStamp otherReadable =>
          exact ⟨hapart.recoveryCopyName_inj hid hother hstamp hotherStamp heq, rfl⟩

theorem Apart.name_inj (hapart : Apart sha256 stamps ids) (hid : id ∈ ids)
    (hother : other ∈ ids) {kind otherKind : Kind} {name otherName : Name}
    (hname : HasName sha256 stamps id kind name)
    (hotherName : HasName sha256 stamps other otherKind otherName) (heq : name = otherName) :
    id = other ∧ kind = otherKind := by
  by_cases hlasting : kind.isTemporary = false
  · exact hapart.lasting_inj hid hother hname hotherName hlasting heq
  · have htemporary : kind.isTemporary = otherKind.isTemporary := by
      rw [← hname.endsWith_tmp, ← hotherName.endsWith_tmp, heq]
    cases hname with
    | file file => exact absurd rfl hlasting
    | errorNote file => exact absurd rfl hlasting
    | recoveryCopy stamp hstamp readable => exact absurd rfl hlasting
    | temporary written stamp hstamp =>
        cases hotherName with
        | file otherFile => cases htemporary
        | errorNote otherFile => cases htemporary
        | recoveryCopy otherStamp hotherStamp readable => cases htemporary
        | temporary otherWritten otherStamp hotherStamp =>
            have hwritten := append_stamp_inj heq
            have hkind : written.kind.isTemporary = false := by
              cases written with
              | record | openMetadata | errorNote => rfl
            obtain ⟨hsame, hkinds⟩ := hapart.lasting_inj hid hother
              (hasName_writtenName id written) (hasName_writtenName other otherWritten) hkind
              hwritten
            exact ⟨hsame, congrArg Kind.temporary (Written.kind_injective hkinds)⟩

end Different

section Room

variable {sha256 : Bytes → Digest} {stamps : Set Stamp} {ids : Set CaptureId} {id : CaptureId}

theorem utf8Size_hex {c : Char} (hhex : Decimal.isDigit c = true ∨ c ∈ "abcdef".toList) :
    c.utf8Size = 1 := by
  rcases hhex with hdigit | hletter
  · rw [Decimal.isDigit, Decimal.digitValue?] at hdigit
    split at hdigit
    · next hrange =>
        have hle : c.val ≤ '9'.val := hrange.2
        have hnine : '9'.val ≤ 127 := by decide
        exact Char.utf8Size_eq_one_iff.mpr (UInt32.le_trans hle hnine)
    · cases hdigit
  · have hletters : ("abcdef".toList.all fun d => d.utf8Size == 1) = true := by decide
    exact eq_of_beq (List.all_eq_true.mp hletters c hletter)

theorem byteLength_hex {text : Name}
    (hhex : ∀ c ∈ text, Decimal.isDigit c = true ∨ c ∈ "abcdef".toList) :
    Text.byteLength text = text.length := by
  induction text with
  | nil => rfl
  | cons c rest ih =>
      have hc := utf8Size_hex (hhex c List.mem_cons_self)
      have hrest := ih fun d hd => hhex d (List.mem_cons_of_mem c hd)
      rw [Text.byteLength, List.map_cons, List.sum_cons, hc, ← Text.byteLength, hrest,
        List.length_cons, Nat.add_comm]

theorem length_le_byteLength (text : Name) : text.length ≤ Text.byteLength text := by
  induction text with
  | nil => exact Nat.zero_le _
  | cons c rest ih =>
      have hc : 0 < c.utf8Size := c.utf8Size_pos
      rw [Text.byteLength, List.map_cons, List.sum_cons, ← Text.byteLength, List.length_cons]
      omega

/-- The stamp takes more room than the digest of a recovery copy. -/
theorem seventeen_le_stamp (stamp : Stamp) : 17 ≤ Text.byteLength stamp.text := by
  obtain ⟨c, pidRest, hpid, -⟩ := Decimal.digits_head stamp.pid
  obtain ⟨d, nowRest, hnow, -⟩ := Decimal.digits_head stamp.now
  have hlength := stamp.length_eq
  have hle := length_le_byteLength stamp.text
  have htmp : ".tmp".toList.length = 4 := rfl
  have htext : 17 ≤ stamp.text.length := by
    rw [Stamp.text, hpid, hnow]
    simp only [List.length_cons, List.length_append, hlength, htmp]
    omega
  omega

theorem byteLength_recoveryDigest (id : CaptureId) (stamp : Stamp) :
    Text.byteLength (recoveryDigest sha256 id stamp) = 16 := by
  have hhex : ∀ c ∈ recoveryDigest sha256 id stamp,
      Decimal.isDigit c = true ∨ c ∈ "abcdef".toList :=
    fun c hc => Digest.hex _ c (List.mem_of_mem_take hc)
  rw [byteLength_hex hhex, length_recoveryDigest]

theorem recoveryId_invented (id : CaptureId) (stamp : Stamp) :
    recoveryId sha256 id stamp false =
      String.ofList ("cap-invalid-".toList ++ recoveryDigest sha256 id stamp) := rfl

theorem byteLength_extension (file : CaptureFile) :
    Text.byteLength (extension file) ≤ 13 := by
  cases file with
  | record | openMetadata | request | response => decide

theorem byteLength_writtenName (sha256 : Bytes → Digest) (id : CaptureId) (written : Written) :
    Text.byteLength (writtenName sha256 id written) ≤
      Text.byteLength (shown sha256 id.text) + 24 := by
  have hnote : Text.byteLength ".error.json".toList = 11 := by decide
  cases written with
  | record =>
      have hle := byteLength_extension .record
      rw [writtenName, fileName_eq, stem_eq, Text.byteLength_append]
      omega
  | openMetadata =>
      have hle := byteLength_extension .openMetadata
      rw [writtenName, fileName_eq, stem_eq, Text.byteLength_append]
      omega
  | errorNote file =>
      have hle := byteLength_extension file
      rw [writtenName, errorNoteName, fileName_eq, stem_eq, Text.byteLength_append,
        Text.byteLength_append, hnote]
      omega

/-- A recovery copy is named by the capture, or by an invented id that is short. -/
theorem byteLength_recoveryCopyName (sha256 : Bytes → Digest) (id : CaptureId) (stamp : Stamp)
    (readable : Bool) :
    Text.byteLength (recoveryCopyName sha256 id stamp readable) ≤
      max (Text.byteLength (shown sha256 id.text) + 36) 64 := by
  have hmiddle : Text.byteLength ".json.recovery-".toList = 15 := by decide
  have hjson : Text.byteLength ".json".toList = 5 := by decide
  rw [recoveryCopyName_eq, copyStem]
  simp only [Text.byteLength_append, byteLength_recoveryDigest, hmiddle, hjson]
  cases readable with
  | true =>
      have hid : recoveryId sha256 id stamp true = id.text := rfl
      rw [hid]
      omega
  | false =>
      have hinvalid : Text.byteLength "cap-invalid-".toList = 12 := by decide
      have hinvented : Text.byteLength (recoveryId sha256 id stamp false).toList = 28 := by
        rw [recoveryId_invented, String.toList_ofList, Text.byteLength_append,
          byteLength_recoveryDigest, hinvalid]
      have hshown : shown sha256 (recoveryId sha256 id stamp false) =
          (recoveryId sha256 id stamp false).toList := by
        rw [shown, if_pos (by omega)]
      rw [hshown, hinvented]
      omega

theorem Apart.short (hapart : Apart sha256 stamps ids) (hid : id ∈ ids) {kind : Kind}
    {name : Name} (hname : HasName sha256 stamps id kind name) : Text.byteLength name ≤ 255 := by
  obtain ⟨hlasting, hstamps⟩ := hapart.room id hid
  cases hname with
  | file file =>
      have hle := byteLength_extension file
      rw [fileName_eq, stem_eq, Text.byteLength_append]
      omega
  | errorNote file =>
      have hle := byteLength_writtenName sha256 id (.errorNote file)
      rw [writtenName] at hle
      omega
  | recoveryCopy stamp hstamp readable =>
      have hle := byteLength_recoveryCopyName sha256 id stamp readable
      have hroom := hstamps stamp hstamp
      have hstampLength := seventeen_le_stamp stamp
      omega
  | temporary written stamp hstamp =>
      have hle := byteLength_writtenName sha256 id written
      have hroom := hstamps stamp hstamp
      rw [temporaryName, Text.byteLength_append]
      omega

end Room

section Listed

variable {sha256 : Bytes → Digest} {stamps : Set Stamp} {ids : Set CaptureId} {id : CaptureId}

theorem endsWith_record_json (id : CaptureId) :
    endsWith (fileName sha256 id .record) ".json" = true := by
  rw [fileName_eq]
  exact endsWith_iff.mpr (List.suffix_append _ _)

theorem openName_of_record (id : CaptureId) :
    stripJson (fileName sha256 id .record) ++ ".open.json".toList =
      fileName sha256 id .openMetadata := rfl

theorem cleanupPending_iff (hapart : Apart sha256 stamps ids) (hid : id ∈ ids)
    {opened : List CaptureId} (hopened : ∀ other ∈ opened, other ∈ ids) :
    cleanupPending (opened.map fun other => fileName sha256 other .openMetadata)
      (fileName sha256 id .record) = true ↔ id ∈ opened := by
  rw [cleanupPending, if_pos (endsWith_record_json id), openName_of_record, List.contains_iff_mem,
    List.mem_map]
  constructor
  · rintro ⟨other, hmem, hname⟩
    have hsame := (hapart.fileName_inj (hopened other hmem) hid hname).1
    exact hsame ▸ hmem
  · intro hmem
    exact ⟨id, hmem, rfl⟩

theorem drainLists_iff (hapart : Apart sha256 stamps ids) (hid : id ∈ ids)
    {opened : List CaptureId} (hopened : ∀ other ∈ opened, other ∈ ids) :
    drainLists (opened.map fun other => fileName sha256 other .openMetadata)
      (fileName sha256 id .record) = true ↔ id ∉ opened := by
  have hname : HasName sha256 stamps id (.file .record) (fileName sha256 id .record) :=
    .file .record
  have hnote : endsWith (fileName sha256 id .record) ".error.json" = false :=
    hname.endsWith_error (hapart.errorEnding id hid)
  have hpending := cleanupPending_iff hapart hid hopened
  rw [← hpending, drainLists, lists, hnote, endsWith_record_json]
  simp

/-- What is pending is a record, or a temporary of one. -/
theorem Apart.pending (hapart : Apart sha256 stamps ids) (hid : id ∈ ids) {kind : Kind}
    {name : Name} (hname : HasName sha256 stamps id kind name) (hkind : kind.inPending = true) :
    (lists ".json" false name = true ↔ kind = .file .record) ∧
      (lists ".tmp" false name = true ↔ kind = .temporary .record) := by
  have hnote := hname.endsWith_error (hapart.errorEnding id hid)
  have htmp := hname.endsWith_tmp
  cases hname with
  | file file =>
      cases file with
      | record =>
          rw [lists, lists, hnote, htmp, endsWith_record_json]
          simp [Kind.isErrorNote, Kind.isTemporary]
      | openMetadata | request | response => cases hkind
  | errorNote file => cases hkind
  | recoveryCopy stamp hstamp readable => cases hkind
  | temporary written stamp hstamp =>
      cases written with
      | record =>
          have hjson : endsWith (temporaryName sha256 id .record stamp) ".json" = false :=
            endsWith_unique (by decide : 'p' ≠ 'n') rfl rfl htmp
          rw [lists, lists, hnote, htmp, hjson]
          simp [Kind.isErrorNote, Kind.isTemporary]
      | openMetadata | errorNote file => cases hkind

/-- Of what belongs to an open capture, only its metadata ends in `.open.json`. -/
theorem HasName.opened {kind : Kind} {name : Name} (hname : HasName sha256 stamps id kind name)
    (hkind : kind.inOpen = true) (includeErrorMarkers : Bool) :
    lists ".open.json" includeErrorMarkers name = true ↔ kind = .file .openMetadata := by
  cases hname with
  | errorNote file => cases hkind
  | recoveryCopy stamp hstamp readable => cases hkind
  | file file =>
      rw [fileName_eq]
      cases file with
      | record => cases hkind
      | openMetadata =>
          have hopen : endsWith (stem sha256 id ++ extension .openMetadata) ".open.json" = true :=
            endsWith_append (by decide)
          rw [lists, hopen, openMetadata_not_error]
          simp
      | request =>
          have hopen : endsWith (stem sha256 id ++ extension .request) ".open.json" = false :=
            endsWith_append (by decide)
          rw [lists, hopen]
          simp
      | response =>
          have hopen : endsWith (stem sha256 id ++ extension .response) ".open.json" = false :=
            endsWith_append (by decide)
          rw [lists, hopen]
          simp
  | temporary written stamp hstamp =>
      have hopen : endsWith (temporaryName sha256 id written stamp) ".open.json" = false :=
        endsWith_unique (by decide : 'p' ≠ 'n') rfl rfl (Gateway.endsWith_tmp _ stamp)
      rw [lists, hopen]
      simp

theorem HasName.failedClass_eq {kind : Kind} {name : Name}
    (hname : HasName sha256 stamps id kind name)
    (hending : ¬ ".error".toList <:+ shown sha256 id.text) :
    failedClass name = kind.failedClass := by
  have hnote := hname.endsWith_error hending
  rw [failedClass, lists, hnote, Bool.true_or, Bool.true_and]
  cases hname with
  | file file =>
      rw [fileName_eq]
      cases file with
      | record =>
          have hjson : endsWith (stem sha256 id ++ extension .record) ".json" = true :=
            endsWith_append (by decide)
          rw [if_pos hjson]
          rfl
      | openMetadata =>
          have hjson : endsWith (stem sha256 id ++ extension .openMetadata) ".json" = true :=
            endsWith_append (by decide)
          rw [if_pos hjson]
          rfl
      | request =>
          have hjson : endsWith (stem sha256 id ++ extension .request) ".json" = false :=
            endsWith_append (by decide)
          rw [hjson]
          rfl
      | response =>
          have hjson : endsWith (stem sha256 id ++ extension .response) ".json" = false :=
            endsWith_append (by decide)
          rw [hjson]
          rfl
  | errorNote file =>
      have hjson : endsWith (errorNoteName sha256 id file) ".json" = true :=
        endsWith_append (by decide)
      rw [if_pos hjson]
      rfl
  | recoveryCopy stamp hstamp readable =>
      have hjson : endsWith (recoveryCopyName sha256 id stamp readable) ".json" = true := by
        rw [recoveryCopyName_eq]
        exact endsWith_append (by decide)
      rw [if_pos hjson]
      rfl
  | temporary written stamp hstamp =>
      have hjson : endsWith (temporaryName sha256 id written stamp) ".json" = false :=
        endsWith_unique (by decide : 'p' ≠ 'n') rfl rfl (Gateway.endsWith_tmp _ stamp)
      rw [hjson]
      rfl

end Listed

section Main

variable {sha256 : Bytes → Digest} {stamps : Set Stamp} {ids : Set CaptureId}

theorem Apart.unambiguous (hapart : Apart sha256 stamps ids) :
    Unambiguous sha256 stamps ids where
  different := fun _ hid _ hother _ _ _ hname hotherName =>
    hapart.name_inj hid hother hname hotherName rfl
  short := fun _ hid _ _ hname => hapart.short hid hname
  drained := fun _ hid _ hopened => drainLists_iff hapart hid hopened
  pending := fun _ hid _ _ hname hkind => hapart.pending hid hname hkind
  opened := fun _ _ _ _ hname hkind markers => hname.opened hkind markers
  failed := fun id hid _ _ hname => hname.failedClass_eq (hapart.errorEnding id hid)

theorem Unambiguous.errorEnding (hclear : Unambiguous sha256 stamps ids) {id : CaptureId}
    (hid : id ∈ ids) : ¬ ".error".toList <:+ shown sha256 id.text := by
  intro hsuffix
  have hsplit : ".error.json".toList = ".error".toList ++ ".json".toList := by decide
  have hnote : endsWith (fileName sha256 id .record) ".error.json" = true := by
    rw [fileName_eq, stem_eq, endsWith_iff, hsplit]
    exact suffix_append_right_iff.mpr hsuffix
  have hdrained := (hclear.drained id hid [] (by simp)).mpr List.not_mem_nil
  rw [drainLists, lists, hnote] at hdrained
  cases hdrained

theorem Unambiguous.record_ne (hclear : Unambiguous sha256 stamps ids) {id other : CaptureId}
    (hid : id ∈ ids) (hother : other ∈ ids) {kind : Kind} {before : Name}
    (hname : HasName sha256 stamps other kind (before ++ ".json".toList))
    (hkind : kind ≠ .file .record) : shown sha256 id.text ≠ before := by
  intro heq
  have hstem : fileName sha256 id .record = before ++ ".json".toList := by
    rw [fileName_eq, stem_eq, heq]
    rfl
  have hrecord : HasName sha256 stamps id (.file .record) (before ++ ".json".toList) := by
    rw [← hstem]
    exact HasName.file .record
  exact hkind (hclear.different id hid other hother _ _ _ hrecord hname).2.symm

theorem Unambiguous.apart (hclear : Unambiguous sha256 stamps ids) : Apart sha256 stamps ids where
  errorEnding := fun id hid => hclear.errorEnding hid
  openEnding := fun id hid other hother => by
    have hopen : HasName sha256 stamps other (.file .openMetadata)
        ((shown sha256 other.text ++ ".open".toList) ++ ".json".toList) := by
      rw [List.append_assoc, ← stem_eq]
      exact HasName.file .openMetadata
    exact hclear.record_ne hid hother hopen (by decide)
  copyEnding := fun id hid other hother stamp hstamp readable => by
    have hcopy : HasName sha256 stamps other .recoveryCopy
        (copyStem sha256 other stamp readable ++ ".json".toList) := by
      rw [← recoveryCopyName_eq]
      exact HasName.recoveryCopy stamp hstamp readable
    exact hclear.record_ne hid hother hcopy (by decide)
  shownApart := fun id hid other hother heq => by
    have hname : fileName sha256 id .record = fileName sha256 other .record := by
      rw [fileName_eq, fileName_eq, stem_eq, stem_eq, heq]
    have hotherName : HasName sha256 stamps other (.file .record) (fileName sha256 id .record) := by
      rw [hname]
      exact HasName.file .record
    exact (hclear.different id hid other hother _ _ _ (HasName.file .record) hotherName).1
  digestsApart := fun id hid other hother stamp hstamp otherStamp hotherStamp heq => by
    have hname : recoveryCopyName sha256 id stamp false =
        recoveryCopyName sha256 other otherStamp false := by
      rw [recoveryCopyName, recoveryCopyName, recoveryId_invented, recoveryId_invented, heq]
    have hotherName : HasName sha256 stamps other .recoveryCopy
        (recoveryCopyName sha256 id stamp false) := by
      rw [hname]
      exact HasName.recoveryCopy otherStamp hotherStamp false
    exact (hclear.different id hid other hother _ _ _ (HasName.recoveryCopy stamp hstamp false)
      hotherName).1
  room := fun id hid => by
    have hnoteLength : Text.byteLength (errorNoteName sha256 id .response) =
        Text.byteLength (shown sha256 id.text) + 24 := by
      have hresponse : Text.byteLength (extension .response) = 13 := by decide
      have hnote : Text.byteLength ".error.json".toList = 11 := by decide
      rw [errorNoteName, fileName_eq, stem_eq, Text.byteLength_append, Text.byteLength_append,
        hresponse, hnote]
    constructor
    · rw [← hnoteLength]
      exact hclear.short id hid _ _ (.errorNote .response)
    · intro stamp hstamp
      rw [← hnoteLength, ← Text.byteLength_append]
      exact hclear.short id hid _ _ (.temporary (.errorNote .response) stamp hstamp)

/-- The names are told apart exactly when no id is shown with another kind's ending or as another
id, no two temporaries have the same digest, and every ending fits. -/
theorem unambiguous_iff (sha256 : Bytes → Digest) (stamps : Set Stamp) (ids : Set CaptureId) :
    Unambiguous sha256 stamps ids ↔ Apart sha256 stamps ids :=
  ⟨Unambiguous.apart, Apart.unambiguous⟩

/-- A record whose capture id ends in `.error` is not delivered. -/
theorem not_unambiguous_error :
    ¬ ∀ (sha256 : Bytes → Digest) (stamps : Set Stamp) (ids : Set CaptureId),
      Unambiguous sha256 stamps ids := by
  intro hall
  have hzeros : ∀ c ∈ List.replicate 64 '0', Decimal.isDigit c = true ∨ c ∈ "abcdef".toList := by
    intro c hc
    rw [List.eq_of_mem_replicate hc]
    exact Or.inl (by decide)
  have hclear := hall (fun _ => ⟨List.replicate 64 '0', List.length_replicate, hzeros⟩) ∅
    {⟨"cap-a.error", by decide⟩}
  apply hclear.errorEnding (Set.mem_singleton _)
  rw [shown, if_pos (by decide : Text.byteLength "cap-a.error".toList ≤ 235)]
  decide

end Main

end ChipTrace.Gateway
