/-
The names that the gateway's outbox gives the files of a capture, and how its listings tell what a
file is.
-/
import ChipTrace.Capture.Envelope
import ChipTrace.Lib.Decimal
import ChipTrace.Lib.Lines

namespace ChipTrace.Gateway

abbrev Name := List Char

/-- The hex text of a SHA-256. -/
structure Digest where
  text : List Char
  length_eq : text.length = 64
  hex : ∀ c ∈ text, Decimal.isDigit c = true ∨ c ∈ "abcdef".toList

def validCaptureId (text : String) : Bool :=
  isCaptureId text && decide ((textBytes text).length ≤ 256)

structure CaptureId where
  text : String
  valid : validCaptureId text = true

/-- What makes a temporary name of its own: the process, the time and four random bytes in hex. -/
structure Stamp where
  pid : Nat
  now : Nat
  random : List Char
  length_eq : random.length = 8
  hex : ∀ c ∈ random, Decimal.isDigit c = true ∨ c ∈ "abcdef".toList

def Stamp.text (stamp : Stamp) : Name :=
  '.' :: Decimal.digits stamp.pid ++ '.' :: Decimal.digits stamp.now ++ '.' :: stamp.random ++
    ".tmp".toList

/-- The files of a capture. -/
inductive CaptureFile
  | record
  | openMetadata
  | request
  | response
  deriving DecidableEq

/-- The files that are written under a temporary name first. -/
inductive Written
  | record
  | openMetadata
  | errorNote (file : CaptureFile)
  deriving DecidableEq

inductive Kind
  | file (file : CaptureFile)
  | errorNote (file : CaptureFile)
  | recoveryCopy
  | temporary (written : Written)
  deriving DecidableEq

section Names

def endsWith (name : Name) (suffix : String) : Bool := suffix.toList.isSuffixOf name

/-- A name without `.json` at its end. -/
def stripJson (name : Name) : Name :=
  if endsWith name ".json" then name.take (name.length - 5) else name

variable (sha256 : Bytes → Digest)

def captureFileName (id : String) : Name :=
  let plain := id.toList ++ ".json".toList
  if Text.byteLength plain ≤ 240 then plain
  else id.toList.take 80 ++ '-' :: (sha256 (textBytes id)).text ++ ".json".toList

def stem (id : CaptureId) : Name := stripJson (captureFileName sha256 id.text)

/-- The names in `openCapturePaths`, and that of the record. -/
def fileName (id : CaptureId) : CaptureFile → Name
  | .record => captureFileName sha256 id.text
  | .openMetadata => stem sha256 id ++ ".open.json".toList
  | .request => stem sha256 id ++ ".request.bin".toList
  | .response => stem sha256 id ++ ".response.bin".toList

def errorNoteName (id : CaptureId) (file : CaptureFile) : Name :=
  fileName sha256 id file ++ ".error.json".toList

def writtenName (id : CaptureId) : Written → Name
  | .record => fileName sha256 id .record
  | .openMetadata => fileName sha256 id .openMetadata
  | .errorNote file => errorNoteName sha256 id file

def temporaryName (id : CaptureId) (written : Written) (stamp : Stamp) : Name :=
  writtenName sha256 id written ++ stamp.text

/-- The digest of the temporary name that a record could not be recovered from. -/
def recoveryDigest (id : CaptureId) (stamp : Stamp) : Name :=
  (sha256 (Bytes.encode (temporaryName sha256 id .record stamp))).text.take 16

/-- A temporary that cannot be read is kept under a capture id made from its name. -/
def recoveryId (id : CaptureId) (stamp : Stamp) (readable : Bool) : String :=
  if readable then id.text
  else String.ofList ("cap-invalid-".toList ++ recoveryDigest sha256 id stamp)

def recoveryCopyName (id : CaptureId) (stamp : Stamp) (readable : Bool) : Name :=
  captureFileName sha256 (recoveryId sha256 id stamp readable) ++ ".recovery-".toList ++
    recoveryDigest sha256 id stamp ++ ".json".toList

/-- The names of a kind that a capture can have, with the stamps that temporaries are written
under. -/
inductive HasName (stamps : Set Stamp) (id : CaptureId) : Kind → Name → Prop
  | file (file : CaptureFile) : HasName stamps id (.file file) (fileName sha256 id file)
  | errorNote (file : CaptureFile) :
      HasName stamps id (.errorNote file) (errorNoteName sha256 id file)
  | recoveryCopy (stamp : Stamp) (hstamp : stamp ∈ stamps) (readable : Bool) :
      HasName stamps id .recoveryCopy (recoveryCopyName sha256 id stamp readable)
  | temporary (written : Written) (stamp : Stamp) (hstamp : stamp ∈ stamps) :
      HasName stamps id (.temporary written) (temporaryName sha256 id written stamp)

end Names

section Listings

/-- The filter of the listings: a suffix, and error notes only where they are asked for. -/
def lists (suffix : String) (includeErrorMarkers : Bool) (name : Name) : Bool :=
  (includeErrorMarkers || !endsWith name ".error.json") && endsWith name suffix

/-- The drain skips a record whose open metadata is still there. -/
def cleanupPending (openNames : List Name) (name : Name) : Bool :=
  openNames.contains (if endsWith name ".json" then
    stripJson name ++ ".open.json".toList else name)

def drainLists (openNames : List Name) (name : Name) : Bool :=
  lists ".json" false name && !cleanupPending openNames name

/-- What the statistics count a file of the failed directory as. -/
inductive FailedClass
  | failed
  | auxiliary
  deriving DecidableEq

def failedClass (name : Name) : Option FailedClass :=
  if lists ".json" true name then
    some (if endsWith name ".error.json" then .auxiliary else .failed)
  else none

end Listings

section Endings

theorem endsWith_iff {name : Name} {suffix : String} :
    endsWith name suffix = true ↔ suffix.toList <:+ name := List.isSuffixOf_iff_suffix

/-- A suffix that is no longer than the end of a name is looked for in that end. -/
theorem endsWith_append {base ending : Name} {suffix : String}
    (hle : suffix.toList.length ≤ ending.length) :
    endsWith (base ++ ending) suffix = endsWith ending suffix := by
  rw [Bool.eq_iff_iff, endsWith_iff, endsWith_iff]
  constructor
  · intro hsuffix
    exact List.suffix_of_suffix_length_le hsuffix (List.suffix_append base ending) hle
  · intro hsuffix
    exact hsuffix.trans (List.suffix_append base ending)

theorem suffix_append_right_iff {first last ending : Name} :
    first ++ ending <:+ last ++ ending ↔ first <:+ last := by
  constructor
  · rintro ⟨before, hbefore⟩
    rw [← List.append_assoc] at hbefore
    exact ⟨before, List.append_cancel_right hbefore⟩
  · rintro ⟨before, rfl⟩
    exact ⟨before, by rw [List.append_assoc]⟩

/-- Texts that end alike have the same last character. -/
theorem last_eq_of_append {first last : Name} {c d : Char} {ending : Name}
    (heq : first ++ c :: ending = last ++ d :: ending) : c = d := by
  have hcons : (first ++ [c]) ++ ending = (last ++ [d]) ++ ending := by
    simpa using heq
  exact List.singleton_inj.mp (List.append_inj' (List.append_cancel_right hcons) rfl).2

/-- The last five characters of a name. -/
def lastFive (name : Name) : Name := name.drop (name.length - 5)

theorem lastFive_append {base ending : Name} (hle : 5 ≤ ending.length) :
    lastFive (base ++ ending) = lastFive ending := by
  rw [lastFive, lastFive, List.length_append, List.drop_append]
  have hbase : base.drop (base.length + ending.length - 5) = [] :=
    List.drop_eq_nil_of_le (by omega)
  rw [hbase, List.nil_append]
  congr 1
  omega

/-- The text before the last dot and the text behind it. -/
theorem append_dot_inj {first last before behind : Name} (hbefore : '.' ∉ before)
    (hbehind : '.' ∉ behind) (heq : first ++ '.' :: before = last ++ '.' :: behind) :
    first = last ∧ before = behind := by
  rcases List.append_eq_append_iff.mp heq with ⟨more, hlast, hmore⟩ | ⟨more, hfirst, hmore⟩
  · cases more with
    | nil =>
        rw [List.append_nil] at hlast
        exact ⟨hlast.symm, (List.cons.inj hmore).2⟩
    | cons c rest =>
        refine absurd ?_ hbefore
        rw [(List.cons.inj hmore).2]
        exact List.mem_append_right _ List.mem_cons_self
  · cases more with
    | nil =>
        rw [List.append_nil] at hfirst
        exact ⟨hfirst, (List.cons.inj hmore).2.symm⟩
    | cons c rest =>
        refine absurd ?_ hbehind
        rw [(List.cons.inj hmore).2]
        exact List.mem_append_right _ List.mem_cons_self

end Endings

section Parts

variable {sha256 : Bytes → Digest} {id other : CaptureId}

theorem stripJson_append (base : Name) : stripJson (base ++ ".json".toList) = base := by
  have hends : endsWith (base ++ ".json".toList) ".json" = true :=
    endsWith_iff.mpr (List.suffix_append _ _)
  have hlength : ".json".toList.length = 5 := rfl
  rw [stripJson, if_pos hends, List.length_append, hlength, Nat.add_sub_cancel, List.take_left]

/-- What a capture's files are called by: its id, cut and hashed when it is too long. -/
def shown (sha256 : Bytes → Digest) (id : String) : Name :=
  if Text.byteLength id.toList ≤ 235 then id.toList
  else id.toList.take 80 ++ '-' :: (sha256 (textBytes id)).text

theorem captureFileName_shown (sha256 : Bytes → Digest) (id : String) :
    captureFileName sha256 id = shown sha256 id ++ ".json".toList := by
  have hjson : Text.byteLength ".json".toList = 5 := by decide
  rw [captureFileName, shown]
  simp only [Text.byteLength_append, hjson]
  by_cases hle : Text.byteLength id.toList ≤ 235
  · rw [if_pos hle, if_pos (by omega)]
  · rw [if_neg hle, if_neg (by omega), List.append_assoc]

theorem stem_eq (id : CaptureId) : stem sha256 id = shown sha256 id.text := by
  rw [stem, captureFileName_shown, stripJson_append]

/-- A record is the stem of its capture with `.json` behind it. -/
theorem captureFileName_eq (sha256 : Bytes → Digest) (id : CaptureId) :
    captureFileName sha256 id.text = stem sha256 id ++ ".json".toList := by
  rw [stem, captureFileName_shown, stripJson_append]

def extension : CaptureFile → Name
  | .record => ".json".toList
  | .openMetadata => ".open.json".toList
  | .request => ".request.bin".toList
  | .response => ".response.bin".toList

theorem fileName_eq (id : CaptureId) (file : CaptureFile) :
    fileName sha256 id file = stem sha256 id ++ extension file := by
  cases file with
  | record => exact captureFileName_eq sha256 id
  | openMetadata | request | response => rfl

theorem digit_ne_dot {c : Char} (hc : Decimal.isDigit c = true) : c ≠ '.' := by
  rintro rfl
  revert hc
  decide

theorem dot_not_mem_digits (n : Nat) : '.' ∉ Decimal.digits n := fun hmem =>
  digit_ne_dot (Decimal.digits_isDigit n _ hmem) rfl

/-- A temporary name, with its fields set apart. -/
theorem append_stamp (name : Name) (stamp : Stamp) :
    name ++ stamp.text =
      ((name ++ '.' :: Decimal.digits stamp.pid) ++ '.' :: Decimal.digits stamp.now) ++
        ('.' :: stamp.random ++ ".tmp".toList) := by
  simp [Stamp.text]

/-- A temporary name tells what it is a temporary of. -/
theorem append_stamp_inj {first last : Name} {stamp otherStamp : Stamp}
    (heq : first ++ stamp.text = last ++ otherStamp.text) : first = last := by
  rw [append_stamp, append_stamp] at heq
  have hlength : ('.' :: stamp.random ++ ".tmp".toList).length =
      ('.' :: otherStamp.random ++ ".tmp".toList).length := by
    simp only [List.length_append, List.length_cons, stamp.length_eq, otherStamp.length_eq]
  have htimes := (List.append_inj' heq hlength).1
  have hpids := (append_dot_inj (dot_not_mem_digits _) (dot_not_mem_digits _) htimes).1
  exact (append_dot_inj (dot_not_mem_digits _) (dot_not_mem_digits _) hpids).1

theorem endsWith_tmp (name : Name) (stamp : Stamp) :
    endsWith (name ++ stamp.text) ".tmp" = true := by
  rw [append_stamp, ← List.append_assoc]
  exact endsWith_iff.mpr (List.suffix_append _ _)

/-- The last character of a recovery digest is a hex digit. -/
theorem recoveryDigest_last (sha256 : Bytes → Digest) (id : CaptureId) (stamp : Stamp) :
    ∃ before c, recoveryDigest sha256 id stamp = before ++ [c] ∧
      (Decimal.isDigit c = true ∨ c ∈ "abcdef".toList) := by
  have hlength : (recoveryDigest sha256 id stamp).length = 16 := by
    rw [recoveryDigest, List.length_take, Digest.length_eq]
    rfl
  have hne : recoveryDigest sha256 id stamp ≠ [] := fun hnil => by
    rw [hnil] at hlength
    cases hlength
  refine ⟨_, _, (List.dropLast_concat_getLast hne).symm, ?_⟩
  exact Digest.hex _ _ (List.mem_of_mem_take (List.getLast_mem hne))

theorem length_recoveryDigest (id : CaptureId) (stamp : Stamp) :
    (recoveryDigest sha256 id stamp).length = 16 := by
  rw [recoveryDigest, List.length_take, Digest.length_eq]
  rfl

end Parts

end ChipTrace.Gateway
