/-
Tables of counts.  Merging one tally into another adds them key by key, either
with additions that fail at the 64-bit limit or with additions that saturate.
-/
import ChipTrace.Lib.OrdMap
import ChipTrace.Lib.Checked
import Mathlib.Algebra.Order.BigOperators.Group.List
import Mathlib.Algebra.Order.Ring.Nat

namespace Tally

variable {K : Type} [LinearOrder K]

/-- The count stored under a key, zero when the key is absent. -/
def count (tally : Table K Nat) (k : K) : Nat := (tally.get? k).getD 0

/-- The stored counts in key order. -/
def values (tally : Table K Nat) : List Nat := tally.entries.map Prod.snd

def total (tally : Table K Nat) : Nat := (values tally).sum

/-- Add one count, failing with the message on overflow. -/
def bump (message : String) (tally : Table K Nat) (entry : K × Nat) :
    Except String (Table K Nat) := do
  let value ← U64.checkedAdd message (count tally entry.1) entry.2
  pure (tally.insert entry.1 value)

/-- Add one count, saturating. -/
def bumpSaturating (tally : Table K Nat) (entry : K × Nat) : Table K Nat :=
  tally.insert entry.1 (U64.saturatingAdd (count tally entry.1) entry.2)

/-- Add every count of `more`, failing with the message on overflow. -/
def merge (message : String) (tally more : Table K Nat) : Except String (Table K Nat) :=
  more.entries.foldlM (bump message) tally

/-- Add every count of `more`, saturating. -/
def mergeSaturating (tally more : Table K Nat) : Table K Nat :=
  more.entries.foldl bumpSaturating tally

@[simp] theorem count_empty (k : K) : count (Table.empty : Table K Nat) k = 0 := rfl

@[simp] theorem total_empty : total (Table.empty : Table K Nat) = 0 := rfl

theorem count_insert (tally : Table K Nat) (k k' : K) (n : Nat) :
    count (tally.insert k n) k' = if k' = k then n else count tally k' := by
  unfold count
  rw [Table.get?_insert]
  split_ifs <;> rfl

theorem total_eq_weigh (tally : Table K Nat) : total tally = tally.weigh fun _ n => n := rfl

theorem total_insert (tally : Table K Nat) (k : K) (n : Nat) :
    total (tally.insert k n) + count tally k = total tally + n := by
  have h := tally.weigh_insert (fun _ n => n) k n
  simpa [total_eq_weigh, count] using h

theorem count_le_total (tally : Table K Nat) (k : K) : count tally k ≤ total tally := by
  cases hget : tally.get? k with
  | none => simp [count, hget]
  | some n =>
      have hmem : (k, n) ∈ tally.entries := (tally.mem_entries k n).mpr hget
      have hle : n ≤ (values tally).sum :=
        List.le_sum_of_mem (List.mem_map.mpr ⟨(k, n), hmem, rfl⟩)
      rw [count, hget]
      exact hle

/-- The share of one key in a list of entries. -/
def share (entries : List (K × Nat)) (k : K) : Nat :=
  (entries.map fun entry => if entry.1 = k then entry.2 else 0).sum

theorem share_eq_lookup {entries : List (K × Nat)} (hsorted : OrdMap.Sorted entries)
    (k : K) : share entries k = (OrdMap.lookup k entries).getD 0 := by
  induction entries with
  | nil => rfl
  | cons head rest ih =>
      obtain ⟨k', n⟩ := head
      obtain ⟨hhead, hrest⟩ := List.pairwise_cons.mp hsorted
      have htail := ih hrest
      by_cases hk : k = k'
      · subst hk
        have hnone : OrdMap.lookup k rest = none :=
          OrdMap.lookup_eq_none_of_lt fun entry hentry => hhead entry hentry
        rw [hnone] at htail
        simp only [share] at htail
        simp [share, OrdMap.lookup, htail]
      · have hne : ¬ k' = k := fun h => hk h.symm
        simp only [share] at htail
        simp [share, OrdMap.lookup, hk, hne, htail]

theorem share_entries (tally : Table K Nat) (k : K) :
    share tally.entries k = count tally k := share_eq_lookup tally.sorted k

private theorem foldlM_merge_spec {message : String} {entries : List (K × Nat)}
    {tally merged : Table K Nat}
    (hmerge : entries.foldlM (bump message) tally = .ok merged) :
    (∀ k, count merged k = count tally k + share entries k) ∧
      total merged = total tally + (entries.map Prod.snd).sum ∧
      ∀ k, (merged.get? k).isSome ↔ (tally.get? k).isSome ∨ k ∈ entries.map Prod.fst := by
  induction entries generalizing tally with
  | nil =>
      rw [List.foldlM_nil, Except.pure_eq_ok_iff] at hmerge
      subst hmerge
      simp [share]
  | cons entry rest ih =>
      obtain ⟨k', n⟩ := entry
      rw [List.foldlM_cons, Except.bind_eq_ok_iff] at hmerge
      obtain ⟨mid, hmid, hrest⟩ := hmerge
      obtain ⟨value, hvalue, hinsert⟩ := Except.bind_eq_ok_iff.mp hmid
      obtain ⟨_, rfl⟩ := U64.checkedAdd_eq_ok_iff.mp hvalue
      rw [Except.pure_eq_ok_iff] at hinsert
      subst hinsert
      obtain ⟨hcount, htotal, hkeys⟩ := ih hrest
      refine ⟨?_, ?_, ?_⟩
      · intro k
        rw [hcount k, count_insert]
        by_cases hk : k = k'
        · subst hk
          simp [share]
          omega
        · have hne : ¬ k' = k := fun h => hk h.symm
          simp [share, hk, hne]
      · have hstep := total_insert tally k' (count tally k' + n)
        simp only [List.map_cons, List.sum_cons] at htotal ⊢
        omega
      · intro k
        rw [hkeys k, Table.get?_insert, List.map_cons, List.mem_cons]
        by_cases hk : k = k'
        · simp [hk]
        · simp [hk]

variable {message : String} {tally more merged : Table K Nat}

theorem count_merge (hmerge : merge message tally more = .ok merged) (k : K) :
    count merged k = count tally k + count more k := by
  rw [(foldlM_merge_spec hmerge).1 k, share_entries]

theorem total_merge (hmerge : merge message tally more = .ok merged) :
    total merged = total tally + total more := (foldlM_merge_spec hmerge).2.1

theorem isSome_merge (hmerge : merge message tally more = .ok merged) (k : K) :
    (merged.get? k).isSome ↔ (tally.get? k).isSome ∨ (more.get? k).isSome := by
  rw [(foldlM_merge_spec hmerge).2.2 k]
  have hmem : k ∈ more.entries.map Prod.fst ↔ (more.get? k).isSome := by
    rw [List.mem_map, Option.isSome_iff_exists]
    constructor
    · rintro ⟨⟨k', n⟩, hentry, rfl⟩
      exact ⟨n, (more.mem_entries k' n).mp hentry⟩
    · rintro ⟨n, hget⟩
      exact ⟨(k, n), (more.mem_entries k n).mpr hget, rfl⟩
  rw [hmem]

theorem count_bumpSaturating (tally : Table K Nat) (entry : K × Nat) (k : K) :
    count (bumpSaturating tally entry) k =
      if k = entry.1 then U64.saturatingAdd (count tally entry.1) entry.2 else count tally k :=
  count_insert tally entry.1 k _

/-- The saturated total goes up by the saturated count, also where a single count
saturates. -/
theorem total_bumpSaturating (tally : Table K Nat) (entry : K × Nat) :
    U64.saturatingAdd 0 (total (bumpSaturating tally entry)) =
      U64.saturatingAdd (U64.saturatingAdd 0 (total tally)) entry.2 := by
  have htotal := total_insert tally entry.1 (U64.saturatingAdd (count tally entry.1) entry.2)
  have hcount := count_le_total tally entry.1
  rw [bumpSaturating]
  unfold U64.saturatingAdd at *
  omega

private theorem count_foldl_mergeSaturating (entries : List (K × Nat))
    (tally : Table K Nat) (k : K)
    (hfits : count tally k + share entries k < U64.limit) :
    count (entries.foldl bumpSaturating tally) k = count tally k + share entries k := by
  induction entries generalizing tally with
  | nil => simp [share]
  | cons entry rest ih =>
      obtain ⟨k', n⟩ := entry
      rw [List.foldl_cons, bumpSaturating]
      by_cases hk : k = k'
      · subst hk
        have hshare : share ((k, n) :: rest) k = n + share rest k := by simp [share]
        rw [hshare] at hfits ⊢
        have hsum : U64.saturatingAdd (count tally k) n = count tally k + n :=
          U64.saturatingAdd_eq (by omega)
        rw [ih _ (by rw [count_insert, if_pos rfl, hsum]; omega), count_insert,
          if_pos rfl, hsum, Nat.add_assoc]
      · have hne : ¬ k' = k := fun h => hk h.symm
        have hshare : share ((k', n) :: rest) k = share rest k := by simp [share, hne]
        rw [hshare] at hfits ⊢
        rw [ih _ (by rw [count_insert, if_neg hk]; exact hfits), count_insert, if_neg hk]

/-- Below the limit a saturating merge is exact. -/
theorem count_mergeSaturating {k : K} (hfits : count tally k + count more k < U64.limit) :
    count (mergeSaturating tally more) k = count tally k + count more k := by
  rw [← share_entries more] at hfits ⊢
  exact count_foldl_mergeSaturating more.entries tally k hfits

end Tally
