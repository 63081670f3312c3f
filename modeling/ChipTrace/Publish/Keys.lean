/-
What a plan of a publication knows: its artifact passed its checks, its keys lie below
the prefix, and a key says which artifact and which file it is for.
-/
import ChipTrace.Publish.Publisher
import ChipTrace.RawArchive.Validation

namespace ChipTrace

namespace Publish

/-! Texts below a prefix. -/

/-- A text that does not start with a slash. -/
def Relative (text : String) : Prop := text.toList.head? ≠ some '/'

instance decidableRelative (text : String) : Decidable (Relative text) :=
  inferInstanceAs (Decidable (_ ≠ _))

def below (base name : String) : String := if base = "" then name else base ++ "/" ++ name

theorem Relative.trimStart {text : String} (h : Relative text) : trimStartSlashes text = text := by
  have hdrop : text.toList.dropWhile (· == '/') = text.toList := by
    apply List.dropWhile_eq_self_iff.mpr
    intro hpos hslash
    rw [beq_iff_eq] at hslash
    apply h
    rw [List.head?_eq_getElem?, List.getElem?_eq_getElem hpos, hslash]
  rw [trimStartSlashes, hdrop, String.ofList_toList]

theorem Relative.append {text : String} (hne : text ≠ "") (h : Relative text) (rest : String) :
    Relative (text ++ rest) := by
  have hchars : text.toList ≠ [] := fun hnil => hne (String.toList_eq_nil_iff.mp hnil)
  rw [Relative, String.toList_append, List.head?_append_of_ne_nil _ hchars]
  exact h

theorem joinKey_below {base name : String} (hbase : Trimmed base) (hname : Relative name) :
    joinKey base name = below base name := by
  rw [joinKey, below, hname.trimStart, hbase.eq]

theorem append_slash_ne (base name : String) : base ++ "/" ++ name ≠ "" := by
  intro hnil
  have htext := congrArg String.toList hnil
  simp at htext

theorem below_of_ne {base : String} (hne : base ≠ "") (name : String) :
    below base name = base ++ "/" ++ name := if_neg hne

theorem below_ne (base : String) {name : String} (hne : name ≠ "") : below base name ≠ "" := by
  rw [below]
  split
  · exact hne
  · exact append_slash_ne base name

theorem append_left_injective {base left right : String} (h : base ++ left = base ++ right) :
    left = right := by
  have htexts := congrArg String.toList h
  simp only [String.toList_append] at htexts
  exact String.toList_inj.mp (List.append_cancel_left htexts)

theorem below_injective {base left right : String} (h : below base left = below base right) :
    left = right := by
  by_cases hbase : base = ""
  · simpa [below, hbase] using h
  · rw [below_of_ne hbase, below_of_ne hbase] at h
    exact append_left_injective h

theorem below_below {base first : String} (hne : first ≠ "") (second : String) :
    below (below base first) second = below base (first ++ "/" ++ second) := by
  rw [below_of_ne (below_ne base hne)]
  by_cases hbase : base = ""
  · rw [below, if_pos hbase, below, if_pos hbase]
  · rw [below_of_ne hbase, below_of_ne hbase]
    simp only [String.append_assoc]

theorem trimmed_below {base name : String} (hbase : Trimmed base) (hname : Trimmed name)
    (hne : name ≠ "") : Trimmed (below base name) := by
  rw [below]
  split
  · exact hname
  rename_i hbaseNe
  have htext : (base ++ "/" ++ name).toList = base.toList ++ '/' :: name.toList := by
    simp [String.toList_append]
  have hbaseChars : base.toList ≠ [] := fun h => hbaseNe (String.toList_eq_nil_iff.mp h)
  have hnameChars : name.toList ≠ [] := fun h => hne (String.toList_eq_nil_iff.mp h)
  constructor
  · rw [htext, List.head?_append_of_ne_nil _ hbaseChars]
    exact hbase.head
  · rw [htext, List.getLast?_append_cons, List.getLast?_cons_of_ne_nil hnameChars]
    exact hname.last

/-! The names of an artifact's directory and of its COMMIT. -/

theorem digest_component {digest : String} (h : isSha256 digest = true) :
    SafeComponent digest := by
  rw [isSha256, Bool.and_eq_true, beq_iff_eq, List.all_eq_true] at h
  have hplain : ∀ c ∈ digest.toList, c ≠ '/' ∧ c ≠ '\\' ∧ isControl c = false := by
    intro c hc
    apply isHexDigit_plain
    have hdigit := h.2 c hc
    simp only [isHexDigit, Bool.or_eq_true] at hdigit ⊢
    exact Or.inl hdigit
  have hne : digest ≠ "" := by
    rintro rfl
    exact absurd h.1 (by decide)
  refine ⟨hne, ?_, ?_, ?_, ?_⟩
  · rw [isDotComponent, Bool.or_eq_false_iff, beq_eq_false_iff_ne, beq_eq_false_iff_ne]
    constructor
    · rintro rfl
      exact absurd h.1 (by decide)
    · rintro rfl
      exact absurd h.1 (by decide)
  · exact fun hslash => (hplain _ hslash).1 rfl
  · exact fun hback => (hplain _ hback).2.1 rfl
  · rw [List.any_eq_false]
    intro c hc
    rw [(hplain c hc).2.2]
    exact Bool.false_ne_true

theorem objectNamespace_plain (kind : ArtifactKind) : '/' ∉ kind.objectNamespace.toList := by
  cases kind <;> decide

theorem objectNamespace_injective {left right : ArtifactKind}
    (h : left.objectNamespace = right.objectNamespace) : left = right := by
  cases left <;> cases right <;> first | rfl | exact absurd h (by decide)

theorem staging_relative : Relative ".staging/" := by decide

theorem stagingName_relative (kind : ArtifactKind) (id digest : String) :
    Relative (stagingName kind id digest) := by
  simp only [stagingName, String.append_assoc]
  exact staging_relative.append (by decide) _

theorem stagingName_ne (kind : ArtifactKind) (id digest : String) :
    stagingName kind id digest ≠ "" := by
  intro hnil
  have htext := congrArg String.toList hnil
  simp [stagingName] at htext

theorem trimmed_stagingName (kind : ArtifactKind) (id : String) {digest : String}
    (hdigest : SafeComponent digest) : Trimmed (stagingName kind id digest) := by
  have hne : digest.toList ≠ [] := fun h => hdigest.nonempty (String.toList_eq_nil_iff.mp h)
  refine ⟨stagingName_relative kind id digest, ?_⟩
  rw [stagingName, String.toList_append, List.getLast?_append_of_ne_nil _ hne]
  intro hlast
  exact hdigest.slash (List.mem_of_getLast? hlast)

theorem commitName_relative (kind : ArtifactKind) (id : String) :
    Relative (kind.objectNamespace ++ "/" ++ id ++ "/COMMIT.json") := by
  have hrelative : Relative kind.objectNamespace := by cases kind <;> decide
  have hne : kind.objectNamespace ≠ "" := by cases kind <;> decide
  simp only [String.append_assoc]
  exact hrelative.append hne _

theorem keyComponents_stagingName (kind : ArtifactKind) {id digest : String}
    (hid : SafeComponent id) (hdigest : SafeComponent digest) :
    keyComponents (stagingName kind id digest) =
      [".staging", kind.objectNamespace, id, digest] := by
  have hsplit : stagingName kind id digest =
      ".staging" ++ "/" ++ kind.objectNamespace ++ "/" ++ id ++ "/" ++ digest := rfl
  rw [hsplit, keyComponents_append, keyComponents_append, keyComponents_append,
    keyComponents_single (by decide), keyComponents_single (objectNamespace_plain kind),
    keyComponents_single hid.slash, keyComponents_single hdigest.slash]
  rfl

theorem keyComponents_commitName (kind : ArtifactKind) {id : String} (hid : SafeComponent id) :
    keyComponents (kind.objectNamespace ++ "/" ++ id ++ "/COMMIT.json") =
      [kind.objectNamespace, id, "COMMIT.json"] := by
  have hsplit : kind.objectNamespace ++ "/" ++ id ++ "/COMMIT.json" =
      kind.objectNamespace ++ "/" ++ id ++ "/" ++ "COMMIT.json" := by
    simp only [String.append_assoc]
    rfl
  rw [hsplit, keyComponents_append, keyComponents_append,
    keyComponents_single (objectNamespace_plain kind), keyComponents_single hid.slash,
    keyComponents_single (by decide)]
  rfl

/-- Where a file of an artifact lies below the prefix. -/
def fileName (kind : ArtifactKind) (id digest name : String) : String :=
  stagingName kind id digest ++ "/" ++ name

theorem fileName_injective {kind otherKind : ArtifactKind}
    {id otherId digest otherDigest name otherName : String} (hid : SafeComponent id)
    (hotherId : SafeComponent otherId) (hdigest : SafeComponent digest)
    (hotherDigest : SafeComponent otherDigest)
    (h : fileName kind id digest name = fileName otherKind otherId otherDigest otherName) :
    (kind = otherKind ∧ id = otherId ∧ digest = otherDigest) ∧ name = otherName := by
  have hcomponents := congrArg keyComponents h
  rw [fileName, fileName, keyComponents_append, keyComponents_append,
    keyComponents_stagingName kind hid hdigest,
    keyComponents_stagingName otherKind hotherId hotherDigest] at hcomponents
  simp only [List.cons_append, List.nil_append, List.cons.injEq, true_and] at hcomponents
  obtain ⟨hnamespace, hsameId, hsameDigest, _⟩ := hcomponents
  have hkind := objectNamespace_injective hnamespace
  subst hkind hsameId hsameDigest
  exact ⟨⟨rfl, rfl, rfl⟩, append_left_injective h⟩

theorem commitName_injective {kind otherKind : ArtifactKind} {id otherId : String}
    (hid : SafeComponent id) (hotherId : SafeComponent otherId)
    (h : kind.objectNamespace ++ "/" ++ id ++ "/COMMIT.json" =
      otherKind.objectNamespace ++ "/" ++ otherId ++ "/COMMIT.json") :
    kind = otherKind ∧ id = otherId := by
  have hcomponents := congrArg keyComponents h
  rw [keyComponents_commitName kind hid, keyComponents_commitName otherKind hotherId]
    at hcomponents
  simp only [List.cons.injEq, and_true] at hcomponents
  exact ⟨objectNamespace_injective hcomponents.1, hcomponents.2⟩

theorem commitName_ne_fileName (kind otherKind : ArtifactKind) {id otherId digest : String}
    (name : String) (hid : SafeComponent id) (hotherId : SafeComponent otherId)
    (hdigest : SafeComponent digest) :
    kind.objectNamespace ++ "/" ++ id ++ "/COMMIT.json" ≠
      fileName otherKind otherId digest name := by
  intro h
  have hcomponents := congrArg keyComponents h
  rw [keyComponents_commitName kind hid, fileName, keyComponents_append,
    keyComponents_stagingName otherKind hotherId hdigest] at hcomponents
  simp only [List.cons_append, List.cons.injEq] at hcomponents
  cases kind <;> exact absurd hcomponents.1 (by decide)

end Publish

end ChipTrace
