/-
JSON values with integer numbers.  An object is its key-sorted field list, as
in a map that orders its keys; well-formed values are sorted at every level.
-/
import ChipTrace.Lib.OrdMap
import ChipTrace.Lib.Result
import Mathlib.Algebra.Group.Int.Defs
import Mathlib.Data.List.Perm.Subperm
import Mathlib.Data.String.Basic

inductive Json where
  | null
  | bool (value : Bool)
  | num (value : Int)
  | str (value : String)
  | arr (items : List Json)
  | obj (fields : List (String × Json))

namespace Json

section DecidableEq

mutual

private def decEqValue : (left right : Json) → Decidable (left = right)
  | .null, .null => .isTrue rfl
  | .bool a, .bool b => decidable_of_iff (a = b) (by simp)
  | .num a, .num b => decidable_of_iff (a = b) (by simp)
  | .str a, .str b => decidable_of_iff (a = b) (by simp)
  | .arr a, .arr b =>
      have := decEqItems a b
      decidable_of_iff (a = b) (by simp)
  | .obj a, .obj b =>
      have := decEqFields a b
      decidable_of_iff (a = b) (by simp)
  | .null, .bool _ | .null, .num _ | .null, .str _ | .null, .arr _ | .null, .obj _
  | .bool _, .null | .bool _, .num _ | .bool _, .str _ | .bool _, .arr _ | .bool _, .obj _
  | .num _, .null | .num _, .bool _ | .num _, .str _ | .num _, .arr _ | .num _, .obj _
  | .str _, .null | .str _, .bool _ | .str _, .num _ | .str _, .arr _ | .str _, .obj _
  | .arr _, .null | .arr _, .bool _ | .arr _, .num _ | .arr _, .str _ | .arr _, .obj _
  | .obj _, .null | .obj _, .bool _ | .obj _, .num _ | .obj _, .str _ | .obj _, .arr _ =>
      .isFalse (by simp)

private def decEqItems : (left right : List Json) → Decidable (left = right)
  | [], [] => .isTrue rfl
  | a :: as, b :: bs =>
      have := decEqValue a b
      have := decEqItems as bs
      decidable_of_iff (a = b ∧ as = bs) (by simp)
  | [], _ :: _ => .isFalse (by simp)
  | _ :: _, [] => .isFalse (by simp)

private def decEqFields : (left right : List (String × Json)) → Decidable (left = right)
  | [], [] => .isTrue rfl
  | (k, a) :: as, (k', b) :: bs =>
      have := decEqValue a b
      have := decEqFields as bs
      decidable_of_iff (k = k' ∧ a = b ∧ as = bs) (by simp [and_assoc])
  | [], _ :: _ => .isFalse (by simp)
  | _ :: _, [] => .isFalse (by simp)

end

instance : DecidableEq Json := decEqValue

end DecidableEq

instance : Inhabited Json := ⟨.null⟩

mutual

/-- How many arrays and objects are nested around the innermost value. -/
def depth : Json → Nat
  | .arr items => depthItems items + 1
  | .obj fields => depthFields fields + 1
  | _ => 0

def depthItems : List Json → Nat
  | [] => 0
  | item :: rest => max (depth item) (depthItems rest)

def depthFields : List (String × Json) → Nat
  | [] => 0
  | (_, value) :: rest => max (depth value) (depthFields rest)

end

mutual

/-- Objects are sorted by key at every level. -/
def WellFormed : Json → Prop
  | .arr items => WellFormedItems items
  | .obj fields => OrdMap.Sorted fields ∧ WellFormedFields fields
  | _ => True

def WellFormedItems : List Json → Prop
  | [] => True
  | item :: rest => WellFormed item ∧ WellFormedItems rest

def WellFormedFields : List (String × Json) → Prop
  | [] => True
  | (_, value) :: rest => WellFormed value ∧ WellFormedFields rest

end

theorem wellFormedItems_iff {items : List Json} :
    WellFormedItems items ↔ ∀ item ∈ items, item.WellFormed := by
  induction items with
  | nil => simp [WellFormedItems]
  | cons item rest ih => simp [WellFormedItems, ih]

theorem wellFormedFields_iff {fields : List (String × Json)} :
    WellFormedFields fields ↔ ∀ field ∈ fields, field.2.WellFormed := by
  induction fields with
  | nil => simp [WellFormedFields]
  | cons field rest ih =>
      obtain ⟨key, value⟩ := field
      simp [WellFormedFields, ih]

theorem depthItems_le_iff {items : List Json} {bound : Nat} :
    depthItems items ≤ bound ↔ ∀ item ∈ items, item.depth ≤ bound := by
  induction items with
  | nil => simp [depthItems]
  | cons item rest ih => simp [depthItems, ih]

theorem depthFields_le_iff {fields : List (String × Json)} {bound : Nat} :
    depthFields fields ≤ bound ↔ ∀ field ∈ fields, field.2.depth ≤ bound := by
  induction fields with
  | nil => simp [depthFields]
  | cons field rest ih =>
      obtain ⟨key, value⟩ := field
      simp [depthFields, ih]

section Access

/-- The field of an object; nothing in any other value. -/
def get? (value : Json) (key : String) : Option Json :=
  match value with
  | .obj fields => OrdMap.lookup key fields
  | _ => none

def asStr : Json → Option String
  | .str value => some value
  | _ => none

def asBool : Json → Option Bool
  | .bool value => some value
  | _ => none

/-- An integer that fits 64 bits without a sign. -/
def asU64 : Json → Option Nat
  | .num value => if 0 ≤ value ∧ value < 2 ^ 64 then some value.toNat else none
  | _ => none

/-- An integer that fits 64 bits with a sign. -/
def asI64 : Json → Option Int
  | .num value => if -2 ^ 63 ≤ value ∧ value < 2 ^ 63 then some value else none
  | _ => none

def asArray : Json → Option (List Json)
  | .arr items => some items
  | _ => none

def asObject : Json → Option (List (String × Json))
  | .obj fields => some fields
  | _ => none

def isNull (value : Json) : Bool := value == .null

def isObject (value : Json) : Bool := value.asObject.isSome

def isString (value : Json) : Bool := value.asStr.isSome

def isBoolean (value : Json) : Bool := value.asBool.isSome

/-- Build an object from fields in any order; a later field replaces an earlier
one of the same name. -/
def mkFields (fields : List (String × Json)) : List (String × Json) :=
  fields.foldl (fun built field => OrdMap.insert field.1 field.2 built) []

def mkObj (fields : List (String × Json)) : Json := .obj (mkFields fields)

end Access

theorem asObject_eq_some {value : Json} {fields : List (String × Json)} :
    value.asObject = some fields ↔ value = .obj fields := by
  cases value <;> simp [asObject]

/-- The fields of a built object are those it was built from. -/
theorem get?_mkObj {fields : List (String × Json)} (hnodup : (fields.map Prod.fst).Nodup)
    (key : String) : (mkObj fields).get? key = OrdMap.lookup key fields := by
  have hfold : ∀ (todo built : List (String × Json)), (todo.map Prod.fst).Nodup →
      OrdMap.lookup key (todo.foldl (fun built field => OrdMap.insert field.1 field.2 built)
        built) = (OrdMap.lookup key todo).or (OrdMap.lookup key built) := by
    intro todo
    induction todo with
    | nil => exact fun built _ => rfl
    | cons field rest ih =>
        intro built hdistinct
        obtain ⟨hhead, hrest⟩ := List.nodup_cons.mp hdistinct
        rw [List.foldl_cons, ih _ hrest, OrdMap.lookup_insert, OrdMap.lookup]
        by_cases hkey : key = field.1
        · subst hkey
          rw [if_pos rfl, if_pos rfl, OrdMap.lookup_eq_none_of_not_mem hhead]
          rfl
        · rw [if_neg hkey, if_neg hkey]
  rw [mkObj, get?, mkFields, hfold fields [] hnodup]
  exact Option.or_none

theorem sorted_mkFields (fields : List (String × Json)) : OrdMap.Sorted (mkFields fields) := by
  refine foldl_preserves _ OrdMap.Sorted fields (fun field _ built hbuilt => ?_) []
    OrdMap.sorted_nil
  exact OrdMap.sorted_insert field.1 field.2 hbuilt

/-- The sorted fields of a built object. -/
theorem mkObj_eq {fields sorted : List (String × Json)} (hnodup : (fields.map Prod.fst).Nodup)
    (hsub : ∀ field ∈ fields, field ∈ sorted) (hlength : sorted.length ≤ fields.length)
    (hsorted : OrdMap.Sorted sorted) : mkObj fields = .obj sorted := by
  have hperm : fields.Perm sorted :=
    (List.subperm_of_subset (List.Nodup.of_map Prod.fst hnodup) hsub).perm_of_length_le hlength
  rw [mkObj, obj.injEq]
  refine OrdMap.ext_of_sorted (sorted_mkFields fields) hsorted fun key => ?_
  have hbuilt := get?_mkObj hnodup key
  rw [mkObj, get?] at hbuilt
  rw [hbuilt]
  refine Option.ext fun value => ?_
  rw [← OrdMap.mem_iff_lookup_of_nodup hnodup,
    ← OrdMap.mem_iff_lookup_of_nodup (OrdMap.Sorted.nodup hsorted), hperm.mem_iff]

theorem asU64_natCast {n d : Nat} (h : (Json.num n).asU64 = some d) : d = n := by
  rw [asU64] at h
  by_cases hfits : 0 ≤ (n : Int) ∧ (n : Int) < 2 ^ 64
  · rw [if_pos hfits, Option.some.injEq, Int.toNat_natCast] at h
    exact h.symm
  · rw [if_neg hfits] at h
    cases h

theorem asU64_natCast_of_lt {n : Nat} (h : n < 2 ^ 64) : (Json.num n).asU64 = some n := by
  rw [asU64, if_pos ⟨Int.natCast_nonneg n, by exact_mod_cast h⟩, Int.toNat_natCast]

theorem depth_le_of_lookup {fields : List (String × Json)} {key : String} {value : Json}
    (h : OrdMap.lookup key fields = some value) : value.depth ≤ depthFields fields := by
  induction fields with
  | nil => cases h
  | cons field rest ih =>
      obtain ⟨name, stored⟩ := field
      rw [OrdMap.lookup] at h
      rw [depthFields]
      split_ifs at h with hkey
      · cases h
        exact le_max_left _ _
      · exact (ih h).trans (le_max_right _ _)

/-- A field nests less deep than its object. -/
theorem depth_lt_of_get? {value field : Json} {key : String} (h : value.get? key = some field) :
    field.depth < value.depth := by
  cases value with
  | obj fields =>
      have hle : field.depth ≤ depthFields fields := depth_le_of_lookup h
      rw [depth]
      omega
  | null => cases h
  | bool b => cases h
  | num n => cases h
  | str s => cases h
  | arr items => cases h

theorem WellFormed.lookup {fields : List (String × Json)} {key : String} {value : Json}
    (h : (Json.obj fields).WellFormed) (hlookup : OrdMap.lookup key fields = some value) :
    value.WellFormed :=
  wellFormedFields_iff.mp h.2 (key, value)
    ((OrdMap.mem_iff_lookup h.1 key value).mpr hlookup)

theorem WellFormed.get? {value field : Json} {key : String} (h : value.WellFormed)
    (hget : value.get? key = some field) : field.WellFormed := by
  cases value with
  | obj fields => exact h.lookup hget
  | null => cases hget
  | bool b => cases hget
  | num n => cases hget
  | str s => cases hget
  | arr items => cases hget

theorem WellFormed.insert {fields : List (String × Json)} {key : String} {value : Json}
    (h : (Json.obj fields).WellFormed) (hvalue : value.WellFormed) :
    (Json.obj (OrdMap.insert key value fields)).WellFormed := by
  refine ⟨OrdMap.sorted_insert key value h.1, wellFormedFields_iff.mpr ?_⟩
  intro field hfield
  rcases OrdMap.mem_insert hfield with rfl | hold
  · exact hvalue
  · exact wellFormedFields_iff.mp h.2 field hold

theorem WellFormed.erase {fields : List (String × Json)} {key : String}
    (h : (Json.obj fields).WellFormed) :
    (Json.obj (OrdMap.erase key fields)).WellFormed :=
  ⟨OrdMap.sorted_erase key h.1, wellFormedFields_iff.mpr fun field hfield =>
    wellFormedFields_iff.mp h.2 field (OrdMap.mem_erase hfield)⟩

theorem mkObj_wellFormed {fields : List (String × Json)}
    (hfields : ∀ field ∈ fields, field.2.WellFormed) : (mkObj fields).WellFormed := by
  have hfold : ∀ (todo built : List (String × Json)), (Json.obj built).WellFormed →
      (∀ field ∈ todo, field.2.WellFormed) →
      (Json.obj (todo.foldl (fun built field => OrdMap.insert field.1 field.2 built)
        built)).WellFormed := by
    intro todo
    induction todo with
    | nil => exact fun built hbuilt _ => hbuilt
    | cons field rest ih =>
        intro built hbuilt htodo
        exact ih _ (hbuilt.insert (htodo field List.mem_cons_self))
          fun other hother => htodo other (List.mem_cons_of_mem _ hother)
  exact hfold fields [] ⟨OrdMap.sorted_nil, trivial⟩ hfields

end Json
