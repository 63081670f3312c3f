/-
Each request is settled once: the components of the settlement are the classes of sharing a
correlation key, and without a conflict the order of the captures does not matter.
-/
import ChipTrace.Sessions.Settlement
import Mathlib.Data.Finset.Lattice.Fold
import Mathlib.Order.Lattice.Nat

namespace ChipTrace.Assemble

/-- The captures at two positions have a correlation key in common. -/
def SharesKey (captures : List ParsedCapture) (i j : Nat) : Prop :=
  ∃ a b, captures[i]? = some a ∧ captures[j]? = some b ∧
    ∃ key ∈ (usageCorrelationKeys a).keys, key ∈ (usageCorrelationKeys b).keys

section Components

variable (captures : List ParsedCapture)

/-- The claims in the order in which they are made. -/
def keyItems : List (Nat × String) :=
  (captures.map usageCorrelationKeys).zipIdx.flatMap fun item =>
    item.1.keys.map fun key => (item.2, key)

theorem claimKeys_eq :
    claimKeys captures = (keyItems captures).foldl Claims.claim (Claims.start captures.length) := by
  rw [claimKeys, keyItems, List.foldl_flatMap]
  simp only [List.foldl_map]

theorem mem_keyItems {index : Nat} {key : String} :
    (index, key) ∈ keyItems captures ↔
      ∃ capture, captures[index]? = some capture ∧ key ∈ (usageCorrelationKeys capture).keys := by
  rw [keyItems, List.mem_flatMap]
  constructor
  · rintro ⟨⟨keys, place⟩, hitem, hkey⟩
    rw [List.mem_zipIdx_iff_getElem?, List.getElem?_map] at hitem
    obtain ⟨other, hother, heq⟩ := List.mem_map.mp hkey
    obtain ⟨rfl, rfl⟩ := Prod.mk.inj heq
    obtain ⟨capture, hcapture, rfl⟩ := Option.map_eq_some_iff.mp hitem
    exact ⟨capture, hcapture, hother⟩
  · rintro ⟨capture, hcapture, hkey⟩
    refine ⟨(usageCorrelationKeys capture, index), ?_, List.mem_map_of_mem hkey⟩
    rw [List.mem_zipIdx_iff_getElem?, List.getElem?_map, hcapture]
    rfl

theorem shares_keyItems : Claims.Shares (keyItems captures) = SharesKey captures := by
  funext i j
  rw [eq_iff_iff]
  constructor
  · rintro ⟨key, hi, hj⟩
    obtain ⟨a, ha, hkey⟩ := (mem_keyItems captures).mp hi
    obtain ⟨b, hb, hkey'⟩ := (mem_keyItems captures).mp hj
    exact ⟨a, b, ha, hb, key, hkey, hkey'⟩
  · rintro ⟨a, b, ha, hb, key, hkey, hkey'⟩
    exact ⟨key, (mem_keyItems captures).mpr ⟨a, ha, hkey⟩,
      (mem_keyItems captures).mpr ⟨b, hb, hkey'⟩⟩

/-- The components are the classes of the captures under sharing a key. -/
theorem components_usage :
    Components captures.length (SharesKey captures) (usageComponents captures) := by
  apply Forest.components_group
  intro i j
  rw [claimKeys_eq, ← shares_keyItems]
  apply Claims.same_claims_iff
  intro item hitem
  obtain ⟨capture, hcapture, _⟩ := (mem_keyItems captures).mp hitem
  exact (List.getElem?_eq_some_iff.mp hcapture).1

end Components

section Order

variable {sha256 : Bytes → String} {captures reordered : List ParsedCapture}
  {rename : Equiv.Perm Nat}

theorem total_reconcileSessionUsage (captures : List ParsedCapture) (field : UsageField) :
    (reconcileSessionUsage sha256 captures).total.get field =
      min ((usageComponents captures).map fun indices =>
        (settledUsage (membersAt sha256 captures indices)).get field).sum (U64.limit - 1) := by
  have hzero : ({} : SessionUsage).total.get field = 0 := by cases field <;> rfl
  rw [reconcileSessionUsage_eq, total_foldl_settleComponent _ _ _ (by rw [hzero]; decide), hzero,
    U64.foldl_saturatingAdd _ (by decide), U64.saturatingAdd, Nat.zero_add, List.map_map]
  rfl

theorem conflicts_reconcileSessionUsage (captures : List ParsedCapture) :
    (reconcileSessionUsage sha256 captures).conflicts = Table.empty ↔
      ∀ indices ∈ usageComponents captures, Harmonious (membersAt sha256 captures indices) := by
  rw [reconcileSessionUsage_eq, conflicts_foldl_settleComponent]
  simp

/-- What the capture at a position reports for a field. -/
def valueAt (sha256 : Bytes → String) (captures : List ParsedCapture) (field : UsageField)
    (index : Nat) : Nat :=
  match captures[index]? with
  | some capture =>
      let observation := reconcileCaptureUsageObservation sha256 capture
      if observation.present.get field then observation.values.get field else 0
  | none => 0

theorem mem_membersAt {indices : List Nat} {member : Observed} :
    member ∈ membersAt sha256 captures indices ↔
      ∃ index ∈ indices, ∃ capture, captures[index]? = some capture ∧
        observe sha256 capture = member := by
  rw [membersAt, List.mem_filterMap]
  simp only [Option.map_eq_some_iff]

/-- Members that agree settle on what any of them reports. -/
theorem settledValue_eq_sup {indices : List Nat} {field : UsageField}
    (hagree : Agree field (membersAt sha256 captures indices)) :
    settledValue (membersAt sha256 captures indices) field =
      indices.toFinset.sup (valueAt sha256 captures field) := by
  have hvalue : ∀ index ∈ indices, ∀ capture, captures[index]? = some capture →
      (observe sha256 capture).observation.present.get field = true →
        valueAt sha256 captures field index =
          (observe sha256 capture).observation.values.get field := by
    intro index _ capture hcapture hpresent
    rw [valueAt, hcapture]
    exact if_pos hpresent
  rw [settledValue]
  cases hfind : (membersAt sha256 captures indices).find? fun member =>
      member.observation.present.get field with
  | none =>
      symm
      rw [Option.map_none, Option.getD_none, ← Nat.le_zero]
      apply Finset.sup_le
      intro index hindex
      rw [valueAt]
      cases hcapture : captures[index]? with
      | none => exact le_rfl
      | some capture =>
          have habsent := List.find?_eq_none.mp hfind (observe sha256 capture)
            (mem_membersAt.mpr ⟨index, List.mem_toFinset.mp hindex, capture, hcapture, rfl⟩)
          exact (if_neg habsent).le
  | some member =>
      have hmember := List.mem_of_find?_eq_some hfind
      have hpresent := List.find?_some hfind
      rw [Option.map_some, Option.getD_some]
      apply le_antisymm
      · obtain ⟨index, hindex, capture, hcapture, rfl⟩ := mem_membersAt.mp hmember
        rw [← hvalue index hindex capture hcapture hpresent]
        exact Finset.le_sup (List.mem_toFinset.mpr hindex)
      · apply Finset.sup_le
        intro index hindex
        have hindex := List.mem_toFinset.mp hindex
        cases hcapture : captures[index]? with
        | none =>
            rw [valueAt, hcapture]
            exact Nat.zero_le _
        | some capture =>
            by_cases hother : (observe sha256 capture).observation.present.get field = true
            · rw [hvalue index hindex capture hcapture hother]
              exact (hagree _ (mem_membersAt.mpr ⟨index, hindex, capture, hcapture, rfl⟩) _
                hmember hother hpresent).le
            · rw [valueAt, hcapture]
              exact (if_neg hother).trans_le (Nat.zero_le _)

/-- The usage of a class of captures that agree. -/
def classUsage (sha256 : Bytes → String) (captures : List ParsedCapture)
    (members : Finset Nat) : Usage :=
  raisedTotal (Usage.ofFields fun field => members.sup (valueAt sha256 captures field))

theorem settledUsage_eq_classUsage {indices : List Nat}
    (h : Harmonious (membersAt sha256 captures indices)) :
    settledUsage (membersAt sha256 captures indices) =
      classUsage sha256 captures indices.toFinset := by
  rw [settledUsage, classUsage]
  congr 2
  funext field
  exact settledValue_eq_sup (h.agree field)

/-- Without conflicts the total is a sum over the classes. -/
theorem total_of_harmonious
    (h : (reconcileSessionUsage sha256 captures).conflicts = Table.empty) (field : UsageField) :
    (reconcileSessionUsage sha256 captures).total.get field =
      min (∑ members ∈ classes captures.length (SharesKey captures),
        (classUsage sha256 captures members).get field) (U64.limit - 1) := by
  rw [conflicts_reconcileSessionUsage] at h
  rw [total_reconcileSessionUsage, ← (components_usage captures).sum_eq fun members =>
    (classUsage sha256 captures members).get field]
  congr 2
  apply List.map_congr_left
  intro indices hindices
  rw [settledUsage_eq_classUsage (h indices hindices)]

section Renamed

variable (hrename : ∀ i, reordered[rename i]? = captures[i]?)

include hrename

theorem sharesKey_rename (i j : Nat) :
    SharesKey captures i j ↔ SharesKey reordered (rename i) (rename j) := by
  rw [SharesKey, SharesKey, hrename, hrename]

theorem lt_length_rename (hlength : reordered.length = captures.length) (i : Nat) :
    i < captures.length ↔ rename i < captures.length := by
  have hsome : ∀ (items : List ParsedCapture) (k : Nat),
      k < items.length ↔ items[k]?.isSome = true := fun items k => by simp
  rw [hsome, ← hlength, hsome, hrename]

theorem classUsage_rename (members : Finset Nat) :
    classUsage sha256 reordered (members.image rename) =
      classUsage sha256 captures members := by
  have hvalue : ∀ field, valueAt sha256 reordered field ∘ rename =
      valueAt sha256 captures field := by
    intro field
    funext index
    rw [Function.comp_apply, valueAt, valueAt, hrename]
  rw [classUsage, classUsage]
  congr 2
  funext field
  rw [Finset.sup_image, hvalue]

/-- Components of the reordered captures are in harmony when those of the captures are. -/
theorem conflicts_rename (hlength : reordered.length = captures.length)
    (h : (reconcileSessionUsage sha256 captures).conflicts = Table.empty) :
    (reconcileSessionUsage sha256 reordered).conflicts = Table.empty := by
  rw [conflicts_reconcileSessionUsage] at h ⊢
  intro indices hindices
  have hcomponents := components_usage captures
  have hrenamed := components_usage reordered
  obtain ⟨i', hi'⟩ := List.exists_mem_of_ne_nil indices (hrenamed.filled indices hindices)
  obtain ⟨i, rfl⟩ := rename.surjective i'
  have hlt : i < captures.length := by
    rw [lt_length_rename hrename hlength, ← hlength]
    exact hrenamed.lt hindices hi'
  obtain ⟨original, horiginal, hi⟩ := List.mem_flatten.mp
    (hcomponents.perm.mem_iff.mpr (List.mem_range.mpr hlt))
  apply (h original horiginal).of_subset
  intro member hmember
  obtain ⟨j', hj', capture, hcapture, rfl⟩ := mem_membersAt.mp hmember
  obtain ⟨j, rfl⟩ := rename.surjective j'
  rw [hrename] at hcapture
  have hltj : j < captures.length := (List.getElem?_eq_some_iff.mp hcapture).1
  have hrel : Relation.EqvGen (SharesKey captures) i j := by
    rw [eqvGen_rename_iff (sharesKey_rename hrename)]
    exact (hrenamed.connected indices hindices _ hi' _ (hrenamed.lt hindices hj')).mp hj'
  exact mem_membersAt.mpr
    ⟨j, (hcomponents.connected original horiginal i hi j hltj).mpr hrel, capture, hcapture, rfl⟩

end Renamed

end Order

/-- Each request is settled once: the components hold every capture once and connect exactly
the captures that are linked by keys, the total is the sum of what the components settle on, as
far as it can be represented, and without a conflict no order of the captures changes it. -/
theorem reconcileSessionUsage_settles (sha256 : Bytes → String) (captures : List ParsedCapture) :
    Components captures.length (SharesKey captures) (usageComponents captures) ∧
      (∀ field, (reconcileSessionUsage sha256 captures).total.get field =
        min ((usageComponents captures).map fun indices =>
          (settledUsage (membersAt sha256 captures indices)).get field).sum (U64.limit - 1)) ∧
      ((reconcileSessionUsage sha256 captures).conflicts = Table.empty →
        ∀ reordered : List ParsedCapture, captures.Perm reordered →
          (reconcileSessionUsage sha256 reordered).conflicts = Table.empty ∧
            (reconcileSessionUsage sha256 reordered).total =
              (reconcileSessionUsage sha256 captures).total) := by
  refine ⟨components_usage captures, total_reconcileSessionUsage captures, ?_⟩
  intro hquiet reordered hperm
  obtain ⟨rename, hrename⟩ := exists_rename_of_perm hperm
  have hlength : reordered.length = captures.length := hperm.length_eq.symm
  have hconflicts := conflicts_rename hrename hlength hquiet
  refine ⟨hconflicts, Usage.ext_get fun field => ?_⟩
  rw [total_of_harmonious hconflicts, total_of_harmonious hquiet, hlength]
  congr 1
  apply sum_classes_rename (sharesKey_rename hrename) (lt_length_rename hrename hlength)
  intro members
  rw [classUsage_rename hrename]

namespace Samples

/-- A capture that reports its input. -/
def reporting (captureId : String) (input : Nat) : ParsedCapture where
  captureId := captureId
  usage := { values := { inputTokens := input }, present := { inputTokens := true } }

/-- The first and the last capture share no key; the one between them links both. -/
def chain : List ParsedCapture :=
  [{ reporting "a" 7 with upstreamRequestId := some "u" },
    { reporting "b" 7 with responseId := some "r" },
    { reporting "c" 7 with upstreamRequestId := some "u", responseId := some "r" }]

end Samples

/-- Three captures of one request are counted once, in every order. -/
theorem reconcileSessionUsage_chain :
    ∀ reordered : List ParsedCapture, Samples.chain.Perm reordered →
      (reconcileSessionUsage (fun _ => "") reordered).total =
        { inputTokens := 7, totalTokens := 7 } := by
  intro reordered hperm
  have hsettles := (reconcileSessionUsage_settles (fun _ => "") Samples.chain).2.2
    (by decide +kernel) reordered hperm
  rw [hsettles.2]
  decide +kernel

/-- The total is not always the sum: it stays at the greatest number that can be represented. -/
theorem not_total_eq_sum :
    ¬ ∀ (captures : List ParsedCapture) (field : UsageField),
      (reconcileSessionUsage (fun _ => "") captures).total.get field =
        ((usageComponents captures).map fun indices =>
          (settledUsage (membersAt (fun _ => "") captures indices)).get field).sum := by
  intro h
  have hsum := h [Samples.reporting "a" (2 ^ 64 - 1), Samples.reporting "b" (2 ^ 64 - 1)]
    .inputTokens
  revert hsum
  decide +kernel

end ChipTrace.Assemble
