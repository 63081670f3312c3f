/-
Keys of the object store.  A key is a text of components between slashes; an
archive's manifest, checkpoint and content-addressed objects lie below a prefix.
-/
import ChipTrace.Lib.Result
import ChipTrace.Lib.Text

namespace ChipTrace

/-- A check that fails with a text. -/
def refuseIf (refused : Bool) (text : String) : Except String Unit :=
  if refused then .error text else .ok ()

@[simp] theorem refuseIf_eq_ok {refused : Bool} {text : String} {unit : Unit} :
    refuseIf refused text = .ok unit ↔ refused = false := by
  cases refused <;> simp [refuseIf]

/-- The control characters of Unicode. -/
def isControl (c : Char) : Bool := c.toNat < 0x20 || (0x7F ≤ c.toNat && c.toNat ≤ 0x9F)

def trimStartSlashes (text : String) : String :=
  String.ofList (text.toList.dropWhile (· == '/'))

def trimSlashes (text : String) : String :=
  String.ofList ((text.toList.dropWhile (· == '/')).rdropWhile (· == '/'))

/-- The texts between the slashes. -/
def keyComponents (key : String) : List String :=
  (key.toList.splitOn '/').map String.ofList

def isDotComponent (component : String) : Bool := component == "." || component == ".."

def normalizePrefix (value : String) : Except String String :=
  let trimmed := trimSlashes value
  if trimmed = "" then .ok ""
  else if (keyComponents trimmed).any fun component =>
      component == "" || isDotComponent component || component.toList.any isControl then
    .error "object prefix contains an empty, dot, or control-character component"
  else .ok trimmed

def joinKey (base suffix : String) : String :=
  if base = "" then trimStartSlashes suffix
  else trimSlashes base ++ "/" ++ trimStartSlashes suffix

def validateKey (key : String) : Except String Unit :=
  refuseIf (key == "" || Text.startsWith key "/" || key.toList.contains '\\' ||
      key.toList.any isControl ||
      (keyComponents key).any fun component => component == "" || isDotComponent component)
    s!"unsafe object key: {key}"

def validateComponent (name value : String) : Except String Unit :=
  refuseIf (value == "" || isDotComponent value || value.toList.contains '/' ||
      value.toList.contains '\\' || value.toList.any isControl)
    s!"{name} must be a single safe object-key component"

/-- A relative path that no component leads out of its root. -/
def ensureSafeRelativePath (name : String) : Except String Unit :=
  refuseIf (name == "" || Text.startsWith name "/" || (keyComponents name).contains ".." ||
      (keyComponents name).head? == some ".")
    s!"unsafe relative path in manifest: {name}"

structure ArchivePaths where
  objectBase : String
  manifest : String
  checkpoint : String
  deriving DecidableEq

def archivePaths (keyPrefix archiveId : String) : Except String ArchivePaths := do
  let normalized ← normalizePrefix keyPrefix
  let rawBase := joinKey normalized "raw"
  let base := joinKey rawBase archiveId
  pure {
    objectBase := joinKey rawBase "objects"
    manifest := joinKey base "manifest.json"
    checkpoint := joinKey base "CHECKPOINT.json"
  }

/-- The key of the object with a digest. -/
def ArchivePaths.objectKey (paths : ArchivePaths) (sha256 : String) : String :=
  joinKey paths.objectBase (sha256 ++ ".ndjson")

/-! What a key says about itself: its last component. -/

def keyName (key : String) : String := ((keyComponents key).getLast?).getD ""

theorem keyComponents_append (base name : String) :
    keyComponents (base ++ "/" ++ name) = keyComponents base ++ keyComponents name := by
  have htext : (base ++ "/" ++ name).toList = base.toList ++ '/' :: name.toList := by
    simp [String.toList_append]
  rw [keyComponents, htext, List.splitOn_append_cons_self, List.map_append]
  rfl

theorem keyComponents_single {name : String} (hname : '/' ∉ name.toList) :
    keyComponents name = [name] := by
  rw [keyComponents, List.splitOn_eq_singleton hname, List.map_singleton, String.ofList_toList]

theorem trimStartSlashes_eq {text : String} (htext : '/' ∉ text.toList) :
    trimStartSlashes text = text := by
  have hdrop : text.toList.dropWhile (· == '/') = text.toList := by
    apply List.dropWhile_eq_self_iff.mpr
    intro hpos
    simp only [beq_iff_eq]
    intro hhead
    exact htext (hhead ▸ List.getElem_mem hpos)
  rw [trimStartSlashes, hdrop, String.ofList_toList]

theorem keyName_append (base : String) {name : String} (hname : '/' ∉ name.toList) :
    keyName (base ++ "/" ++ name) = name := by
  rw [keyName, keyComponents_append, keyComponents_single hname]
  simp

/-- The last component of a joined key is what was joined. -/
theorem keyName_joinKey (base : String) {name : String} (hname : '/' ∉ name.toList) :
    keyName (joinKey base name) = name := by
  rw [joinKey, trimStartSlashes_eq hname]
  split
  · rw [keyName, keyComponents_single hname]
    rfl
  · exact keyName_append _ hname

theorem joinKey_injective (base : String) {left right : String}
    (hleft : '/' ∉ left.toList) (hright : '/' ∉ right.toList)
    (h : joinKey base left = joinKey base right) : left = right := by
  have hname : keyName (joinKey base left) = keyName (joinKey base right) := by rw [h]
  rw [keyName_joinKey base hleft, keyName_joinKey base hright] at hname
  exact hname

/-! Components and keys that pass their checks. -/

/-- What `validate_component` asks of a text, whatever it is the name of. -/
structure SafeComponent (value : String) : Prop where
  nonempty : value ≠ ""
  notDot : isDotComponent value = false
  slash : '/' ∉ value.toList
  backslash : '\\' ∉ value.toList
  control : value.toList.any isControl = false

theorem validateComponent_iff {name value : String} {unit : Unit} :
    validateComponent name value = .ok unit ↔ SafeComponent value := by
  rw [validateComponent, refuseIf_eq_ok]
  simp only [Bool.or_eq_false_iff, beq_eq_false_iff_ne, List.contains_eq_mem,
    decide_eq_false_iff_not]
  constructor
  · rintro ⟨⟨⟨⟨hempty, hdot⟩, hslash⟩, hback⟩, hcontrol⟩
    exact ⟨hempty, hdot, hslash, hback, hcontrol⟩
  · rintro ⟨hempty, hdot, hslash, hback, hcontrol⟩
    exact ⟨⟨⟨⟨hempty, hdot⟩, hslash⟩, hback⟩, hcontrol⟩

/-- What `validate_key` asks of a key. -/
structure SafeKey (key : String) : Prop where
  backslash : '\\' ∉ key.toList
  control : key.toList.any isControl = false
  components : ∀ component ∈ keyComponents key,
    component ≠ "" ∧ isDotComponent component = false

theorem keyComponents_of_slash {key : String} (h : Text.startsWith key "/" = true) :
    "" ∈ keyComponents key := by
  obtain ⟨rest, hrest⟩ := List.isPrefixOf_iff_prefix.mp h
  have hsplit : key.toList.splitOn '/' = [] :: rest.splitOn '/' := by
    rw [← hrest]
    have happend := List.splitOn_append_cons_self (a := '/') [] rest
    simpa using happend
  rw [keyComponents, hsplit]
  exact List.mem_cons_self

theorem validateKey_iff {key : String} {unit : Unit} :
    validateKey key = .ok unit ↔ SafeKey key := by
  rw [validateKey, refuseIf_eq_ok]
  simp only [Bool.or_eq_false_iff, beq_eq_false_iff_ne, List.contains_eq_mem,
    decide_eq_false_iff_not]
  constructor
  · rintro ⟨⟨⟨_, hback⟩, hcontrol⟩, hcomponents⟩
    refine ⟨hback, hcontrol, ?_⟩
    simpa [List.any_eq_false] using hcomponents
  · rintro ⟨hback, hcontrol, hcomponents⟩
    refine ⟨⟨⟨⟨?_, ?_⟩, hback⟩, hcontrol⟩, ?_⟩
    · rintro rfl
      exact (hcomponents "" (by decide)).1 rfl
    · rw [Bool.eq_false_iff]
      intro hstart
      exact (hcomponents "" (keyComponents_of_slash hstart)).1 rfl
    · simpa [List.any_eq_false] using hcomponents

theorem safeKey_append {base name : String} :
    SafeKey (base ++ "/" ++ name) ↔ SafeKey base ∧ SafeKey name := by
  have htext : (base ++ "/" ++ name).toList = base.toList ++ '/' :: name.toList := by
    simp [String.toList_append]
  have hslash : isControl '/' = false := by decide
  constructor
  · rintro ⟨hback, hcontrol, hcomponents⟩
    rw [htext] at hback hcontrol
    rw [keyComponents_append] at hcomponents
    simp only [List.mem_append, List.mem_cons, not_or] at hback
    simp only [List.any_append, List.any_cons, Bool.or_eq_false_iff] at hcontrol
    exact ⟨⟨hback.1, hcontrol.1, fun c hc => hcomponents c (List.mem_append_left _ hc)⟩,
      ⟨hback.2.2, hcontrol.2.2, fun c hc => hcomponents c (List.mem_append_right _ hc)⟩⟩
  · rintro ⟨hbase, hname⟩
    refine ⟨?_, ?_, ?_⟩
    · rw [htext]
      simp [hbase.backslash, hname.backslash]
    · rw [htext]
      simp [List.any_append, hbase.control, hname.control, hslash]
    · rw [keyComponents_append]
      intro c hc
      rcases List.mem_append.mp hc with hc | hc
      · exact hbase.components c hc
      · exact hname.components c hc

theorem SafeComponent.safeKey {value : String} (h : SafeComponent value) : SafeKey value := by
  refine ⟨h.backslash, h.control, ?_⟩
  rw [keyComponents_single h.slash]
  simpa using ⟨h.nonempty, h.notDot⟩

/-! Trimmed prefixes, and the keys of an archive spelled out. -/

/-- A text that neither starts nor ends with a slash. -/
structure Trimmed (text : String) : Prop where
  head : text.toList.head? ≠ some '/'
  last : text.toList.getLast? ≠ some '/'

theorem Trimmed.eq {text : String} (h : Trimmed text) : trimSlashes text = text := by
  have hdrop : text.toList.dropWhile (· == '/') = text.toList := by
    apply List.dropWhile_eq_self_iff.mpr
    intro hpos hslash
    rw [beq_iff_eq] at hslash
    exact h.head (by rw [List.head?_eq_getElem?, List.getElem?_eq_getElem hpos, hslash])
  have hrdrop : text.toList.rdropWhile (· == '/') = text.toList := by
    apply List.rdropWhile_eq_self_iff.mpr
    intro hne hslash
    rw [beq_iff_eq] at hslash
    exact h.last (by rw [List.getLast?_eq_getLast_of_ne_nil hne, hslash])
  rw [trimSlashes, hdrop, hrdrop, String.ofList_toList]

theorem trimmed_trimSlashes (text : String) : Trimmed (trimSlashes text) := by
  have htext : (trimSlashes text).toList =
      (text.toList.dropWhile (· == '/')).rdropWhile (· == '/') := String.toList_ofList
  constructor
  · rw [htext]
    intro hhead
    obtain ⟨rest, hrest⟩ := List.rdropWhile_prefix (· == '/') (text.toList.dropWhile (· == '/'))
    have hfirst : (text.toList.dropWhile (· == '/')).head? = some '/' := by
      rw [← hrest, List.head?_append, hhead]
      rfl
    have hnot := List.head?_dropWhile_not (· == '/') text.toList
    rw [hfirst] at hnot
    simp at hnot
  · rw [htext]
    intro hlast
    have hne : (text.toList.dropWhile (· == '/')).rdropWhile (· == '/') ≠ [] := by
      intro hnil
      rw [hnil] at hlast
      cases hlast
    have hnot := List.rdropWhile_last_not (· == '/') _ hne
    rw [List.getLast?_eq_getLast_of_ne_nil hne, Option.some.injEq] at hlast
    exact hnot (by rw [hlast]; rfl)

theorem Trimmed.append {base name : String} (hbase : Trimmed base) (hne : base ≠ "")
    (hname : '/' ∉ name.toList) (hnonempty : name ≠ "") : Trimmed (base ++ "/" ++ name) := by
  have htext : (base ++ "/" ++ name).toList = base.toList ++ '/' :: name.toList := by
    simp [String.toList_append]
  have hbaseNe : base.toList ≠ [] := fun h => hne (String.toList_eq_nil_iff.mp h)
  have hnameNe : name.toList ≠ [] := fun h => hnonempty (String.toList_eq_nil_iff.mp h)
  constructor
  · rw [htext, List.head?_append_of_ne_nil _ hbaseNe]
    exact hbase.head
  · rw [htext, List.getLast?_append_cons, List.getLast?_cons_of_ne_nil hnameNe]
    intro hlast
    exact hname (List.mem_of_getLast? hlast)

theorem normalizePrefix_ok {value normalized : String}
    (h : normalizePrefix value = .ok normalized) :
    Trimmed normalized ∧ normalizePrefix normalized = .ok normalized := by
  have hvalue : normalized = trimSlashes value := by
    simp only [normalizePrefix] at h
    split at h
    · rename_i hempty
      cases h
      exact hempty.symm
    · split at h
      · cases h
      · cases h
        rfl
  have htrimmed : Trimmed normalized := hvalue ▸ trimmed_trimSlashes value
  refine ⟨htrimmed, ?_⟩
  have hagain : normalizePrefix normalized = normalizePrefix value := by
    rw [normalizePrefix, normalizePrefix, htrimmed.eq, ← hvalue]
  rw [hagain, h]

/-- The part of the keys that all archives below a prefix share. -/
def rawBase (normalized : String) : String :=
  if normalized = "" then "raw" else normalized ++ "/" ++ "raw"

theorem joinKey_of_trimmed {base name : String} (hbase : Trimmed base) (hne : base ≠ "")
    (hname : '/' ∉ name.toList) : joinKey base name = base ++ "/" ++ name := by
  rw [joinKey, if_neg hne, hbase.eq, trimStartSlashes_eq hname]

theorem rawBase_trimmed {normalized : String} (h : Trimmed normalized) :
    Trimmed (rawBase normalized) ∧ rawBase normalized ≠ "" := by
  unfold rawBase
  split
  · exact ⟨⟨by decide, by decide⟩, by decide⟩
  · rename_i hne
    refine ⟨h.append hne (by decide) (by decide), ?_⟩
    intro hnil
    have htext := congrArg String.toList hnil
    simp at htext

theorem joinKey_raw {normalized : String} (h : Trimmed normalized) :
    joinKey normalized "raw" = rawBase normalized := by
  unfold rawBase
  split
  · rename_i hempty
    subst hempty
    decide
  · rename_i hne
    exact joinKey_of_trimmed h hne (by decide)

/-- The keys of an archive below a normalized prefix. -/
structure PathsOf (normalized archiveId : String) (paths : ArchivePaths) : Prop where
  manifest : paths.manifest = rawBase normalized ++ "/" ++ archiveId ++ "/" ++ "manifest.json"
  checkpoint : paths.checkpoint =
    rawBase normalized ++ "/" ++ archiveId ++ "/" ++ "CHECKPOINT.json"
  objects : ∀ name, '/' ∉ name.toList →
    joinKey paths.objectBase name = rawBase normalized ++ "/" ++ "objects" ++ "/" ++ name

theorem archivePaths_ok {keyPrefix archiveId : String} {paths : ArchivePaths}
    (hid : SafeComponent archiveId) (h : archivePaths keyPrefix archiveId = .ok paths) :
    ∃ normalized, Trimmed normalized ∧ PathsOf normalized archiveId paths ∧
      archivePaths normalized archiveId = .ok paths := by
  obtain ⟨normalized, hnormalized, hpaths⟩ := Except.bind_eq_ok_iff.mp h
  obtain ⟨htrimmed, hagain⟩ := normalizePrefix_ok hnormalized
  obtain ⟨hraw, hrawNe⟩ := rawBase_trimmed htrimmed
  have hbase : joinKey (rawBase normalized) archiveId =
      rawBase normalized ++ "/" ++ archiveId := joinKey_of_trimmed hraw hrawNe hid.slash
  have hobjects : joinKey (rawBase normalized) "objects" =
      rawBase normalized ++ "/" ++ "objects" := joinKey_of_trimmed hraw hrawNe (by decide)
  have hne : ∀ name : String, rawBase normalized ++ "/" ++ name ≠ "" := by
    intro name hnil
    have htext := congrArg String.toList hnil
    simp at htext
  have hbaseTrimmed := hraw.append hrawNe hid.slash hid.nonempty
  have hobjectsTrimmed := hraw.append hrawNe (by decide : '/' ∉ "objects".toList) (by decide)
  refine ⟨normalized, htrimmed, ?_, ?_⟩
  · cases hpaths
    rw [joinKey_raw htrimmed, hbase, hobjects]
    refine ⟨?_, ?_, ?_⟩
    · exact joinKey_of_trimmed hbaseTrimmed (hne archiveId) (by decide)
    · exact joinKey_of_trimmed hbaseTrimmed (hne archiveId) (by decide)
    · intro name hname
      exact joinKey_of_trimmed hobjectsTrimmed (hne "objects") hname
  · rw [archivePaths, hagain]
    exact hpaths

theorem append_slash_injective {left right name : String}
    (h : left ++ "/" ++ name = right ++ "/" ++ name) : left = right := by
  have htexts := congrArg String.toList h
  simp only [String.toList_append, List.append_assoc] at htexts
  exact String.toList_inj.mp (List.append_cancel_right htexts)

/-- The key of the manifest determines the archive and the keys of its objects. -/
theorem PathsOf.eq_of_manifest {left right leftId rightId : String}
    {leftPaths rightPaths : ArchivePaths} (hleft : PathsOf left leftId leftPaths)
    (hright : PathsOf right rightId rightPaths) (hleftId : SafeComponent leftId)
    (hrightId : SafeComponent rightId) (h : leftPaths.manifest = rightPaths.manifest) :
    leftId = rightId ∧ ∀ name, '/' ∉ name.toList →
      joinKey leftPaths.objectBase name = joinKey rightPaths.objectBase name := by
  rw [hleft.manifest, hright.manifest] at h
  have hbase := append_slash_injective h
  have hname := congrArg keyName hbase
  rw [keyName_append _ hleftId.slash, keyName_append _ hrightId.slash] at hname
  rw [hname] at hbase
  refine ⟨hname, fun name hplain => ?_⟩
  rw [hleft.objects name hplain, hright.objects name hplain, append_slash_injective hbase]

/-- The key of the checkpoint determines the archive and the key of its manifest. -/
theorem PathsOf.eq_of_checkpoint {left right leftId rightId : String}
    {leftPaths rightPaths : ArchivePaths} (hleft : PathsOf left leftId leftPaths)
    (hright : PathsOf right rightId rightPaths) (hleftId : SafeComponent leftId)
    (hrightId : SafeComponent rightId) (h : leftPaths.checkpoint = rightPaths.checkpoint) :
    leftId = rightId ∧ leftPaths.manifest = rightPaths.manifest := by
  rw [hleft.checkpoint, hright.checkpoint] at h
  have hbase := append_slash_injective h
  have hname := congrArg keyName hbase
  rw [keyName_append _ hleftId.slash, keyName_append _ hrightId.slash] at hname
  exact ⟨hname, by rw [hleft.manifest, hright.manifest, hbase]⟩

end ChipTrace
