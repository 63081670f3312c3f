/-
The greatest of the first items of each key: items whose key came before are dropped, and
the rest is sorted by rank and key.  Which item stands at the head depends on the order of
the items unless the items that can stand there are equal.
-/
import ChipTrace.Lib.KeepFirst
import Mathlib.Data.List.Sort
import Mathlib.Data.Prod.Lex

universe u v w

namespace Champion

variable {α : Type u} {β : Type v} {ρ : Type w} [LinearOrder β] [LinearOrder ρ]
variable (key : α → β) (rank : α → ρ)

/-- Items of one rank are ordered by their keys. -/
def orderKey (item : α) : ρ ×ₗ β := toLex (rank item, key item)

/-- The first item of each key, the greatest first. -/
def ranked (items : List α) : List α :=
  (keepFirst key items).insertionSort fun a b => orderKey key rank b ≤ orderKey key rank a

def champion (items : List α) : Option α := (ranked key rank items).head?

/-- Every other key has an item below this one. -/
def CanWin (items : List α) (item : α) : Prop :=
  item ∈ items ∧ ∀ other ∈ items, key other ≠ key item →
    ∃ low ∈ items, key low = key other ∧ orderKey key rank low < orderKey key rank item

variable {key rank} {items : List α} {item : α}

omit [LinearOrder ρ] in
theorem eq_of_key_eq {a b : α} (ha : a ∈ keepFirst key items) (hb : b ∈ keepFirst key items)
    (hkey : key a = key b) : a = b :=
  List.inj_on_of_nodup_map (keepFirst_nodup items) ha hb hkey

omit [LinearOrder ρ] in
theorem exists_kept {other : α} (h : other ∈ items) :
    ∃ kept ∈ keepFirst key items, key kept = key other := by
  have hkey := (@key_mem_keepFirst α β _ key items (key other)).mpr (List.mem_map_of_mem h)
  rw [List.mem_map] at hkey
  exact hkey

omit [LinearOrder ρ] in
theorem mem_of_kept (h : item ∈ keepFirst key items) : item ∈ items :=
  mem_of_mem_keepFirstFrom h

theorem key_eq_of_orderKey_eq {a b : α} (h : orderKey key rank a = orderKey key rank b) :
    key a = key b := (Prod.mk.inj (toLex.injective h)).2

theorem pairwise_ranked (items : List α) :
    (ranked key rank items).Pairwise fun a b => orderKey key rank b ≤ orderKey key rank a := by
  have : Std.Total fun a b : α => orderKey key rank b ≤ orderKey key rank a :=
    ⟨fun a b => le_total _ _⟩
  have : IsTrans α fun a b => orderKey key rank b ≤ orderKey key rank a :=
    ⟨fun a b c hab hbc => hbc.trans hab⟩
  exact List.pairwise_insertionSort _ _

theorem mem_ranked : item ∈ ranked key rank items ↔ item ∈ keepFirst key items := by
  rw [ranked, List.mem_insertionSort]

/-- The item at the head is the greatest of those that are kept. -/
theorem champion_eq_some_iff :
    champion key rank items = some item ↔
      item ∈ keepFirst key items ∧
        ∀ other ∈ keepFirst key items, orderKey key rank other ≤ orderKey key rank item := by
  constructor
  · intro h
    obtain ⟨rest, hrest⟩ := List.head?_eq_some_iff.mp h
    have hsorted := @pairwise_ranked α β ρ _ _ key rank items
    rw [hrest, List.pairwise_cons] at hsorted
    refine ⟨mem_ranked.mp (by rw [hrest]; exact List.mem_cons_self), ?_⟩
    intro other hother
    have hplace : other ∈ ranked key rank items := mem_ranked.mpr hother
    rw [hrest] at hplace
    cases hplace with
    | head => exact le_rfl
    | tail _ hplace => exact hsorted.1 other hplace
  · rintro ⟨hmem, hmax⟩
    have hplace : item ∈ ranked key rank items := mem_ranked.mpr hmem
    cases hranked : ranked key rank items with
    | nil =>
        rw [hranked] at hplace
        cases hplace
    | cons head rest =>
        have hfirst : head ∈ ranked key rank items := by
          rw [hranked]
          exact List.mem_cons_self
        have hhead : head ∈ keepFirst key items := mem_ranked.mp hfirst
        have hsorted := @pairwise_ranked α β ρ _ _ key rank items
        rw [hranked, List.pairwise_cons] at hsorted
        have hle : orderKey key rank item ≤ orderKey key rank head := by
          rw [hranked] at hplace
          cases hplace with
          | head => exact le_rfl
          | tail _ hplace => exact hsorted.1 item hplace
        have heq := le_antisymm hle (hmax head hhead)
        rw [champion, hranked, List.head?_cons,
          eq_of_key_eq hmem hhead (key_eq_of_orderKey_eq heq)]

theorem champion_isSome (hne : items ≠ []) : ∃ winner, champion key rank items = some winner := by
  cases hranked : ranked key rank items with
  | nil =>
      obtain ⟨first, hfirst⟩ := List.exists_mem_of_ne_nil items hne
      obtain ⟨kept, hkept, _⟩ := @exists_kept α β _ key _ _ hfirst
      have hplace : kept ∈ ranked key rank items := mem_ranked.mpr hkept
      rw [hranked] at hplace
      cases hplace
  | cons head rest => exact ⟨head, by rw [champion, hranked]; rfl⟩

/-- An item that comes first is kept. -/
theorem mem_keepFirst_cons (first : α) (rest : List α) :
    first ∈ keepFirst key (first :: rest) := by
  rw [keepFirst, keepFirstFrom, if_neg List.not_mem_nil]
  exact List.mem_cons_self

/-- Of items in ascending order the first of each key is the least of it. -/
theorem le_of_kept_ascending {seen : List β} {list : List α}
    (hsorted : list.Pairwise fun a b => orderKey key rank a ≤ orderKey key rank b)
    {kept other : α} (hkept : kept ∈ keepFirstFrom key seen list) (hother : other ∈ list)
    (hkey : key other = key kept) : orderKey key rank kept ≤ orderKey key rank other := by
  induction list generalizing seen with
  | nil => cases hother
  | cons head rest ih =>
      rw [List.pairwise_cons] at hsorted
      rw [keepFirstFrom] at hkept
      split_ifs at hkept with hseen
      · cases hother with
        | head =>
            rw [hkey] at hseen
            exact absurd hseen (keepFirstFrom_key_not_seen hkept)
        | tail _ hother => exact ih hsorted.2 hkept hother
      · cases hkept with
        | head =>
            cases hother with
            | head => exact le_rfl
            | tail _ hother => exact hsorted.1 other hother
        | tail _ hkept =>
            cases hother with
            | head =>
                have hnot := keepFirstFrom_key_not_seen hkept
                rw [← hkey] at hnot
                exact absurd List.mem_cons_self hnot
            | tail _ hother => exact ih hsorted.2 hkept hother

/-- An item can stand at the head exactly when some order of the items puts it there. -/
theorem canWin_iff [DecidableEq α] :
    CanWin key rank items item ↔
      ∃ list : List α, list.Perm items ∧ champion key rank list = some item := by
  constructor
  · rintro ⟨hmem, hlow⟩
    -- The item comes first, and all others after it in ascending order.
    let rest := (items.erase item).insertionSort fun a b =>
      orderKey key rank a ≤ orderKey key rank b
    have hperm : (item :: rest).Perm items :=
      ((List.perm_insertionSort _ _).cons item).trans (List.perm_cons_erase hmem).symm
    have hsorted : rest.Pairwise fun a b => orderKey key rank a ≤ orderKey key rank b := by
      have : Std.Total fun a b : α => orderKey key rank a ≤ orderKey key rank b :=
        ⟨fun a b => le_total _ _⟩
      have : IsTrans α fun a b => orderKey key rank a ≤ orderKey key rank b :=
        ⟨fun a b c hab hbc => hab.trans hbc⟩
      exact List.pairwise_insertionSort _ _
    refine ⟨item :: rest, hperm, champion_eq_some_iff.mpr ⟨mem_keepFirst_cons item rest, ?_⟩⟩
    intro other hother
    by_cases hkey : key other = key item
    · rw [eq_of_key_eq hother (mem_keepFirst_cons item rest) hkey]
    · have hinItems : other ∈ items := hperm.mem_iff.mp (mem_of_kept hother)
      obtain ⟨low, hlowMem, hlowKey, hlt⟩ := hlow other hinItems hkey
      have hlowRest : low ∈ rest := by
        have hlowList : low ∈ item :: rest := hperm.mem_iff.mpr hlowMem
        cases hlowList with
        | head => exact absurd hlowKey.symm hkey
        | tail _ h => exact h
      have hkeptRest : other ∈ keepFirstFrom key [key item] rest := by
        rw [keepFirst, keepFirstFrom, if_neg List.not_mem_nil] at hother
        cases hother with
        | head => exact absurd rfl hkey
        | tail _ h => exact h
      exact (le_of_kept_ascending hsorted hkeptRest hlowRest hlowKey).trans hlt.le
  · rintro ⟨list, hperm, hchampion⟩
    obtain ⟨hkept, hmax⟩ := champion_eq_some_iff.mp hchampion
    refine ⟨hperm.mem_iff.mp (mem_of_kept hkept), ?_⟩
    intro other hother hkey
    obtain ⟨low, hlow, hlowKey⟩ := @exists_kept α β _ key _ _ (hperm.mem_iff.mpr hother)
    refine ⟨low, hperm.mem_iff.mp (mem_of_kept hlow), hlowKey, ?_⟩
    apply lt_of_le_of_ne (hmax low hlow)
    intro heq
    exact hkey (hlowKey.symm.trans (key_eq_of_orderKey_eq heq))

end Champion
