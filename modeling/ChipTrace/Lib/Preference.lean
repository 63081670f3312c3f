/-
Choosing one value for each key by priority: candidates come one after the other,
a higher priority replaces a lower one, and two values of the priority that is
held are refused.  What an accepted run holds depends on the candidates alone;
whether it is accepted depends on their order unless all values of one priority agree.
-/
import ChipTrace.Lib.OrdMap
import ChipTrace.Lib.Result
import Mathlib.Data.List.Perm.Basic

universe u v w

structure Candidate (K : Type u) (V : Type v) where
  key : K
  priority : Nat
  value : V
  deriving DecidableEq

namespace Preference

variable {K : Type u} {V : Type v} {ε : Type w} [LinearOrder K] [DecidableEq V]
variable (conflict : K → ε)

/-- Hold a candidate against the one that was chosen for its key so far. -/
def choose (chosen : Table K (Nat × V)) (candidate : Candidate K V) :
    Except ε (Table K (Nat × V)) :=
  match chosen.get? candidate.key with
  | some (priority, value) =>
      if candidate.priority < priority then .ok chosen
      else if priority = candidate.priority ∧ value ≠ candidate.value then
        .error (conflict candidate.key)
      else .ok (chosen.insert candidate.key (candidate.priority, candidate.value))
  | none => .ok (chosen.insert candidate.key (candidate.priority, candidate.value))

/-- All candidates of the key with the greatest priority, which is this one, have this value. -/
structure Highest (candidates : List (Candidate K V)) (key : K) (priority : Nat) (value : V) :
    Prop where
  mem : ⟨key, priority, value⟩ ∈ candidates
  le : ∀ other ∈ candidates, other.key = key → other.priority ≤ priority
  eq : ∀ other ∈ candidates, other.key = key → other.priority = priority → other.value = value

/-- The table holds the highest candidate of every key that has a candidate. -/
def Settles (candidates : List (Candidate K V)) (chosen : Table K (Nat × V)) : Prop :=
  (∀ key priority value, chosen.get? key = some (priority, value) →
      Highest candidates key priority value) ∧
    ∀ candidate ∈ candidates, (chosen.get? candidate.key).isSome

/-- Candidates of one key and one priority have one value. -/
def Agreeing (candidates : List (Candidate K V)) : Prop :=
  ∀ first ∈ candidates, ∀ second ∈ candidates, first.key = second.key →
    first.priority = second.priority → first.value = second.value

variable {conflict} {candidates : List (Candidate K V)}

omit [DecidableEq V] in
theorem Highest.unique {key : K} {first second : Nat × V}
    (hfirst : Highest candidates key first.1 first.2)
    (hsecond : Highest candidates key second.1 second.2) : first = second := by
  have hpriority : first.1 = second.1 := Nat.le_antisymm
    (hsecond.le _ hfirst.mem rfl) (hfirst.le _ hsecond.mem rfl)
  exact Prod.ext hpriority (hsecond.eq _ hfirst.mem rfl hpriority)

omit [DecidableEq V] in
/-- One table at most settles the candidates. -/
theorem Settles.unique {first second : Table K (Nat × V)} (hfirst : Settles candidates first)
    (hsecond : Settles candidates second) : first = second := by
  have hhalf : ∀ left right : Table K (Nat × V), Settles candidates left →
      Settles candidates right → ∀ key entry, left.get? key = some entry →
        right.get? key = some entry := by
    intro left right hleft hright key entry hget
    have htop := hleft.1 key entry.1 entry.2 hget
    obtain ⟨other, hother⟩ := Option.isSome_iff_exists.mp (hright.2 _ htop.mem)
    rw [hother, (hright.1 key other.1 other.2 hother).unique htop]
  apply Table.ext_get?
  intro key
  apply Option.ext
  exact fun entry => ⟨hhalf first second hfirst hsecond key entry,
    hhalf second first hsecond hfirst key entry⟩

omit [DecidableEq V] in
theorem settles_of_perm {others : List (Candidate K V)} (hperm : others.Perm candidates)
    {chosen : Table K (Nat × V)} (h : Settles candidates chosen) : Settles others chosen := by
  refine ⟨fun key priority value hget => ?_, fun candidate hmem => h.2 _ (hperm.mem_iff.mp hmem)⟩
  obtain ⟨hmem, hle, heq⟩ := h.1 key priority value hget
  exact ⟨hperm.mem_iff.mpr hmem, fun other hother => hle other (hperm.mem_iff.mp hother),
    fun other hother => heq other (hperm.mem_iff.mp hother)⟩

omit [DecidableEq V] in
theorem settles_nil : Settles ([] : List (Candidate K V)) Table.empty :=
  ⟨fun _ _ _ hget => (Option.some_ne_none _ hget.symm).elim,
    fun _ hmem => (List.not_mem_nil hmem).elim⟩

/-- What a step that is not refused does to a settled table. -/
theorem Settles.choose {chosen next : Table K (Nat × V)} {candidate : Candidate K V}
    (h : Settles candidates chosen)
    (hnext : Preference.choose conflict chosen candidate = .ok next) :
    Settles (candidates ++ [candidate]) next := by
  have hold : ∀ key priority value, key ≠ candidate.key →
      chosen.get? key = some (priority, value) →
      Highest (candidates ++ [candidate]) key priority value := by
    intro key priority value hne hget
    obtain ⟨hmem, hle, heq⟩ := h.1 key priority value hget
    refine ⟨List.mem_append_left _ hmem, ?_, ?_⟩
    · intro other hother hkey
      rcases List.mem_append.mp hother with hother | hother
      · exact hle other hother hkey
      · exact absurd (List.mem_singleton.mp hother ▸ hkey).symm hne
    · intro other hother hkey
      rcases List.mem_append.mp hother with hother | hother
      · exact heq other hother hkey
      · exact absurd (List.mem_singleton.mp hother ▸ hkey).symm hne
  have hinsert : (∀ other ∈ candidates, other.key = candidate.key →
        other.priority ≤ candidate.priority ∧
          (other.priority = candidate.priority → other.value = candidate.value)) →
      Settles (candidates ++ [candidate])
        (chosen.insert candidate.key (candidate.priority, candidate.value)) := by
    intro hbelow
    have hall : ∀ other ∈ candidates ++ [candidate], other.key = candidate.key →
        other.priority ≤ candidate.priority ∧
          (other.priority = candidate.priority → other.value = candidate.value) := by
      intro other hother hkey
      rcases List.mem_append.mp hother with hother | hother
      · exact hbelow other hother hkey
      · rw [List.mem_singleton.mp hother]
        exact ⟨Nat.le_refl _, fun _ => rfl⟩
    refine ⟨?_, ?_⟩
    · intro key priority value hget
      rw [Table.get?_insert] at hget
      split_ifs at hget with hkey
      · cases hget
        subst hkey
        exact ⟨List.mem_append_right _ (List.mem_singleton_self _),
          fun other hother heq => (hall other hother heq).1,
          fun other hother heq => (hall other hother heq).2⟩
      · exact hold key priority value hkey hget
    · intro other hother
      rw [Table.get?_insert]
      split_ifs with hkey
      · rfl
      · rcases List.mem_append.mp hother with hother | hother
        · exact h.2 other hother
        · exact absurd (congrArg Candidate.key (List.mem_singleton.mp hother)) hkey
  rw [Preference.choose] at hnext
  split at hnext
  · rename_i priority value hget
    obtain ⟨hmem, hle, heq⟩ := h.1 _ _ _ hget
    split_ifs at hnext with hlower hconflict
    · cases hnext
      refine ⟨?_, ?_⟩
      · intro key priority' value' hget'
        by_cases hkey : key = candidate.key
        · subst hkey
          rw [hget] at hget'
          cases hget'
          refine ⟨List.mem_append_left _ hmem, ?_, ?_⟩
          · intro other hother hsame
            rcases List.mem_append.mp hother with hother | hother
            · exact hle other hother hsame
            · rw [List.mem_singleton.mp hother]
              exact Nat.le_of_lt hlower
          · intro other hother hsame hpriority
            rcases List.mem_append.mp hother with hother | hother
            · exact heq other hother hsame hpriority
            · rw [List.mem_singleton.mp hother] at hpriority
              exact absurd hpriority (Nat.ne_of_lt hlower)
        · exact hold key priority' value' hkey hget'
      · intro other hother
        rcases List.mem_append.mp hother with hother | hother
        · exact h.2 other hother
        · rw [List.mem_singleton.mp hother, hget]
          rfl
    · cases hnext
      apply hinsert
      intro other hother hkey
      have hother_le := hle other hother hkey
      have hle_candidate := Nat.le_of_not_lt hlower
      refine ⟨Nat.le_trans hother_le hle_candidate, fun hsame => ?_⟩
      have hpriority : priority = candidate.priority :=
        Nat.le_antisymm hle_candidate (hsame ▸ hother_le)
      rw [not_and_not_right] at hconflict
      exact (heq other hother hkey (hsame.trans hpriority.symm)).trans (hconflict hpriority)
  · rename_i hget
    cases hnext
    apply hinsert
    intro other hother hkey
    have hsome := h.2 other hother
    rw [hkey, hget] at hsome
    cases hsome

/-- An accepted run settles its candidates. -/
theorem settles_of_foldlM {first rest : List (Candidate K V)} {start finish : Table K (Nat × V)}
    (hstart : Settles first start)
    (hrun : rest.foldlM (Preference.choose conflict) start = .ok finish) :
    Settles (first ++ rest) finish := by
  induction rest generalizing first start with
  | nil =>
      cases hrun
      rwa [List.append_nil]
  | cons candidate rest ih =>
      rw [List.foldlM_cons, Except.bind_eq_ok_iff] at hrun
      obtain ⟨mid, hmid, hrest⟩ := hrun
      have hsettled := ih (hstart.choose hmid) hrest
      rwa [List.append_assoc, List.singleton_append] at hsettled

/-- Candidates that agree are accepted in any order. -/
theorem foldlM_of_agreeing {first rest : List (Candidate K V)} {start : Table K (Nat × V)}
    (hagreeing : Agreeing (first ++ rest)) (hstart : Settles first start) :
    ∃ finish, rest.foldlM (Preference.choose conflict) start = .ok finish := by
  induction rest generalizing first start with
  | nil => exact ⟨start, rfl⟩
  | cons candidate rest ih =>
      have hnext : ∃ next, Preference.choose conflict start candidate = .ok next := by
        rw [Preference.choose]
        split
        · rename_i priority value hget
          have hmem := (hstart.1 _ _ _ hget).mem
          split_ifs with hlower hconflict
          · exact ⟨_, rfl⟩
          · exact absurd (hagreeing _ (List.mem_append_left _ hmem) candidate
              (List.mem_append_right _ List.mem_cons_self) rfl hconflict.1) hconflict.2
          · exact ⟨_, rfl⟩
        · exact ⟨_, rfl⟩
      obtain ⟨next, hnext⟩ := hnext
      have hmore : Agreeing ((first ++ [candidate]) ++ rest) := by
        rwa [List.append_assoc, List.singleton_append]
      obtain ⟨finish, hfinish⟩ := ih hmore (hstart.choose hnext)
      exact ⟨finish, by rw [List.foldlM_cons, hnext, Except.ok_bind, hfinish]⟩

section Items

variable {A : Type u} (conflict) (read : A → Except ε (Option (Candidate K V)))

/-- One round over items that are read as candidates, as nothing, or refused. -/
def chooseItem (chosen : Table K (Nat × V)) (item : A) : Except ε (Table K (Nat × V)) := do
  match ← read item with
  | some candidate => choose conflict chosen candidate
  | none => .ok chosen

/-- The candidates that the items are read as. -/
def candidatesOf (items : List A) : List (Candidate K V) :=
  items.filterMap fun item => (read item).toOption.bind id

/-- No item is refused. -/
def Readable (items : List A) : Prop := ∀ item ∈ items, ∃ candidate?, read item = .ok candidate?

variable {conflict read} {items : List A}

theorem toOption_bind_id {candidate : Candidate K V} {item : A} :
    (read item).toOption.bind id = some candidate ↔ read item = .ok (some candidate) := by
  cases read item with
  | error error => exact iff_of_false (fun h => by cases h) fun h => by cases h
  | ok candidate? => exact ⟨congrArg Except.ok, Except.ok.inj⟩

theorem mem_candidatesOf {candidate : Candidate K V} :
    candidate ∈ candidatesOf read items ↔ ∃ item ∈ items, read item = .ok (some candidate) := by
  simp only [candidatesOf, List.mem_filterMap, toOption_bind_id]

theorem foldlM_chooseItem_eq_ok_iff {start finish : Table K (Nat × V)} :
    items.foldlM (chooseItem conflict read) start = .ok finish ↔
      Readable read items ∧
        (candidatesOf read items).foldlM (choose conflict) start = .ok finish := by
  induction items generalizing start with
  | nil => simp [Readable, candidatesOf]
  | cons item rest ih =>
      rw [List.foldlM_cons, Except.bind_eq_ok_iff, Readable, List.forall_mem_cons, candidatesOf,
        List.filterMap_cons]
      cases hread : read item with
      | error error =>
          refine iff_of_false ?_ fun h => ?_
          · rintro ⟨mid, hmid, _⟩
            rw [chooseItem, hread] at hmid
            cases hmid
          · obtain ⟨_, hok⟩ := h.1.1
            cases hok
      | ok candidate? =>
          have hhead : ∃ given, (Except.ok candidate? : Except ε _) = .ok given := ⟨_, rfl⟩
          rw [and_iff_right hhead]
          cases candidate? with
          | none =>
              constructor
              · rintro ⟨mid, hmid, hrest⟩
                rw [chooseItem, hread] at hmid
                cases hmid
                exact ih.mp hrest
              · intro h
                exact ⟨start, by rw [chooseItem, hread, Except.ok_bind], ih.mpr h⟩
          | some candidate =>
              change _ ↔ Readable read rest ∧
                (candidate :: candidatesOf read rest).foldlM (choose conflict) start = .ok finish
              rw [List.foldlM_cons, Except.bind_eq_ok_iff]
              constructor
              · rintro ⟨mid, hmid, hrest⟩
                rw [chooseItem, hread, Except.ok_bind] at hmid
                exact ⟨(ih.mp hrest).1, mid, hmid, (ih.mp hrest).2⟩
              · rintro ⟨hreadable, mid, hmid, hrest⟩
                refine ⟨mid, ?_, ih.mpr ⟨hreadable, hrest⟩⟩
                rw [chooseItem, hread, Except.ok_bind]
                exact hmid

/-- An accepted run over items settles the candidates they are read as. -/
theorem settles_of_items {finish : Table K (Nat × V)}
    (hrun : items.foldlM (chooseItem conflict read) Table.empty = .ok finish) :
    Settles (candidatesOf read items) finish := by
  have hfold := (foldlM_chooseItem_eq_ok_iff.mp hrun).2
  exact settles_of_foldlM settles_nil hfold

/-- Where the candidates agree, a run over the items in any order holds what settles them. -/
theorem foldlM_items_iff_of_agreeing {others : List A} (hperm : others.Perm items)
    (hagreeing : Agreeing (candidatesOf read items)) {finish : Table K (Nat × V)} :
    others.foldlM (chooseItem conflict read) Table.empty = .ok finish ↔
      Readable read items ∧ Settles (candidatesOf read items) finish := by
  have hcandidates : (candidatesOf read others).Perm (candidatesOf read items) :=
    hperm.filterMap _
  constructor
  · intro hrun
    refine ⟨fun item hitem => ?_, settles_of_perm hcandidates.symm (settles_of_items hrun)⟩
    exact (foldlM_chooseItem_eq_ok_iff.mp hrun).1 item (hperm.mem_iff.mpr hitem)
  · rintro ⟨hreadable, hsettles⟩
    have hother : Agreeing ([] ++ candidatesOf read others) := fun first hfirst second hsecond =>
      hagreeing first (hcandidates.mem_iff.mp hfirst) second (hcandidates.mem_iff.mp hsecond)
    obtain ⟨found, hfound⟩ := @foldlM_of_agreeing K V ε _ _ conflict _ _ _ hother settles_nil
    have hsame : found = finish :=
      (settles_of_foldlM settles_nil hfound).unique (settles_of_perm hcandidates hsettles)
    rw [foldlM_chooseItem_eq_ok_iff, hfound, hsame]
    exact ⟨fun item hitem => hreadable item (hperm.mem_iff.mp hitem), rfl⟩

theorem exists_front_of_mem {first second : A} (hne : first ≠ second) (hfirst : first ∈ items)
    (hsecond : second ∈ items) : ∃ rest, items.Perm (first :: second :: rest) := by
  obtain ⟨before, after, rfl⟩ := List.append_of_mem hfirst
  have hrest : second ∈ before ++ after := by
    rcases List.mem_append.mp hsecond with h | h
    · exact List.mem_append_left _ h
    · rcases List.mem_cons.mp h with h | h
      · exact absurd h.symm hne
      · exact List.mem_append_right _ h
  obtain ⟨left, right, hsplit⟩ := List.append_of_mem hrest
  refine ⟨left ++ right, List.perm_middle.trans ?_⟩
  rw [hsplit]
  exact (List.perm_middle).cons first

/-- Where candidates of one priority disagree, some order of the items is refused. -/
theorem exists_refused_order (hdisagree : ¬ Agreeing (candidatesOf read items)) :
    ∃ others : List A, others.Perm items ∧ ∀ finish,
      others.foldlM (chooseItem conflict read) Table.empty ≠ .ok finish := by
  simp only [Agreeing, not_forall] at hdisagree
  obtain ⟨one, hone, two, htwo, hkey, hpriority, hvalue⟩ := hdisagree
  obtain ⟨first, hfirst, hreadFirst⟩ := mem_candidatesOf.mp hone
  obtain ⟨second, hsecond, hreadSecond⟩ := mem_candidatesOf.mp htwo
  have hne : first ≠ second := by
    rintro rfl
    rw [hreadFirst] at hreadSecond
    exact hvalue (congrArg Candidate.value (Option.some.inj (Except.ok.inj hreadSecond)))
  obtain ⟨rest, hperm⟩ := exists_front_of_mem hne hfirst hsecond
  refine ⟨_, hperm.symm, fun finish hrun => ?_⟩
  have hfold := (foldlM_chooseItem_eq_ok_iff.mp hrun).2
  simp only [candidatesOf, List.filterMap_cons, toOption_bind_id.mpr hreadFirst,
    toOption_bind_id.mpr hreadSecond, List.foldlM_cons] at hfold
  obtain ⟨mid, hmid, hrest⟩ := Except.bind_eq_ok_iff.mp hfold
  obtain ⟨next, hnext, _⟩ := Except.bind_eq_ok_iff.mp hrest
  rw [choose, Table.get?_empty] at hmid
  cases hmid
  rw [choose, ← hkey, Table.get?_insert_self] at hnext
  simp only [hpriority, Nat.lt_irrefl, if_false, true_and, ne_eq, hvalue, not_false_eq_true,
    if_true] at hnext
  cases hnext

end Items

end Preference
