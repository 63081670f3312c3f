/-
Components by union and find: every index points at one that is not above it, the least
index of a component is its root, and a search shortens the path it took.  Indices that
claim a common key are joined, and the components are those of sharing a key.
-/
import ChipTrace.Lib.KeepFirst
import Mathlib.Logic.Relation
import Mathlib.Data.Nat.Init
import Mathlib.Data.Nat.Basic
import Mathlib.Order.Lattice

universe u

/-- The parents of the indices; an index beyond them is its own parent. -/
structure Forest where
  parents : List Nat
  le : ∀ index, parents.getD index index ≤ index

namespace Forest

def parent (forest : Forest) (index : Nat) : Nat := forest.parents.getD index index

theorem parent_le (forest : Forest) (index : Nat) : forest.parent index ≤ index :=
  forest.le index

theorem parent_lt {forest : Forest} {index : Nat} (h : forest.parent index ≠ index) :
    forest.parent index < index :=
  lt_of_le_of_ne (forest.parent_le index) h

/-- Every index below the size is alone. -/
def singletons (size : Nat) : Forest where
  parents := List.range size
  le := by
    intro index
    rw [List.getD_eq_getElem?_getD]
    by_cases h : index < size
    · simp [h]
    · simp [h]

/-- Follow the parents for some steps. -/
def climb (forest : Forest) : Nat → Nat → Nat
  | 0, index => index
  | fuel + 1, index =>
      if forest.parent index = index then index else forest.climb fuel (forest.parent index)

/-- The end of the path; it has no more steps than its start says. -/
def root (forest : Forest) (index : Nat) : Nat := forest.climb index index

theorem climb_eq_root (forest : Forest) {fuel index : Nat} (hfuel : index ≤ fuel) :
    forest.climb fuel index = forest.root index := by
  induction index using Nat.strong_induction_on generalizing fuel with
  | _ index ih =>
      cases index with
      | zero =>
          have hzero : forest.parent 0 = 0 := Nat.le_zero.mp (forest.parent_le 0)
          cases fuel with
          | zero => rfl
          | succ fuel => rw [climb, if_pos hzero]; rfl
      | succ index =>
          cases fuel with
          | zero => omega
          | succ fuel =>
              rw [root, climb, climb]
              split_ifs with h
              · rfl
              · have hlt := parent_lt h
                rw [ih _ hlt (by omega), ih _ hlt (by omega)]

theorem root_eq (forest : Forest) (index : Nat) :
    forest.root index =
      if forest.parent index = index then index else forest.root (forest.parent index) := by
  rw [← forest.climb_eq_root (Nat.le_succ index), climb]
  split_ifs with h
  · rfl
  · exact forest.climb_eq_root (parent_lt h).le

theorem root_le (forest : Forest) (index : Nat) : forest.root index ≤ index := by
  induction index using Nat.strong_induction_on with
  | _ index ih =>
      rw [root_eq]
      split_ifs with h
      · exact le_rfl
      · exact (ih _ (parent_lt h)).trans (forest.parent_le index)

theorem root_of_parent_eq {forest : Forest} {index : Nat} (h : forest.parent index = index) :
    forest.root index = index := by
  rw [root_eq, if_pos h]

theorem root_parent (forest : Forest) (index : Nat) :
    forest.root (forest.parent index) = forest.root index := by
  by_cases h : forest.parent index = index
  · rw [h]
  · rw [forest.root_eq index, if_neg h]

theorem parent_root (forest : Forest) (index : Nat) :
    forest.parent (forest.root index) = forest.root index := by
  induction index using Nat.strong_induction_on with
  | _ index ih =>
      rw [root_eq]
      split_ifs with h
      · exact h
      · exact ih _ (parent_lt h)

theorem root_root (forest : Forest) (index : Nat) :
    forest.root (forest.root index) = forest.root index :=
  root_of_parent_eq (forest.parent_root index)

theorem root_singletons (size index : Nat) : (singletons size).root index = index := by
  apply root_of_parent_eq
  rw [parent, singletons, List.getD_eq_getElem?_getD]
  by_cases h : index < size
  · simp [h]
  · simp [h]

/-- A new parent for an index. -/
def link (forest : Forest) (child parent : Nat) (hle : parent ≤ child) : Forest where
  parents := forest.parents.set child parent
  le := by
    intro index
    have hold := forest.le index
    rw [List.getD_eq_getElem?_getD] at hold ⊢
    rw [List.getElem?_set]
    split_ifs with hindex hbound
    · subst hindex
      exact hle
    · exact le_rfl
    · exact hold

theorem parent_link (forest : Forest) {child parent : Nat} (hle : parent ≤ child) (index : Nat)
    (hbound : child < forest.parents.length) :
    (forest.link child parent hle).parent index =
      if index = child then parent else forest.parent index := by
  rw [Forest.parent, link, List.getD_eq_getElem?_getD, List.getElem?_set]
  by_cases hindex : child = index
  · subst hindex
    simp [hbound]
  · rw [if_neg hindex, if_neg (Ne.symm hindex), Forest.parent, List.getD_eq_getElem?_getD]

theorem link_of_length_le (forest : Forest) {child parent : Nat} (hle : parent ≤ child)
    (hbound : forest.parents.length ≤ child) : forest.link child parent hle = forest := by
  cases forest with
  | mk parents le =>
      rw [link]
      congr 1
      exact List.set_eq_of_length_le hbound

@[simp] theorem length_link (forest : Forest) {child parent : Nat} (hle : parent ≤ child) :
    (forest.link child parent hle).parents.length = forest.parents.length := by
  simp [link]

/-- A shorter path to the same root changes no root. -/
theorem root_link_root (forest : Forest) {child root : Nat} (hroot : forest.root child = root)
    (hle : root ≤ child) (index : Nat) :
    (forest.link child root hle).root index = forest.root index := by
  subst hroot
  by_cases hbound : child < forest.parents.length
  · induction index using Nat.strong_induction_on with
    | _ index ih =>
        rw [root_eq, parent_link forest _ index hbound]
        by_cases hindex : index = child
        · subst hindex
          rw [if_pos rfl]
          split_ifs with hroot
          · exact hroot.symm
          · rw [ih _ (lt_of_le_of_ne (forest.root_le index) hroot), root_root]
        · rw [if_neg hindex]
          split_ifs with hparent
          · rw [root_of_parent_eq hparent]
          · rw [ih _ (parent_lt hparent), root_parent]
  · rw [link_of_length_le forest _ (not_lt.mp hbound)]

/-- A root that is linked below another takes its whole component along. -/
theorem root_link (forest : Forest) {child parent : Nat} (hlt : parent < child)
    (hchild : forest.parent child = child) (hparent : forest.parent parent = parent)
    (hbound : child < forest.parents.length) (index : Nat) :
    (forest.link child parent hlt.le).root index =
      if forest.root index = child then parent else forest.root index := by
  have hlinked := fun i => parent_link forest hlt.le i hbound
  induction index using Nat.strong_induction_on with
  | _ index ih =>
      rw [root_eq, hlinked]
      by_cases hindex : index = child
      · subst hindex
        rw [if_pos rfl, if_neg hlt.ne, if_pos (root_of_parent_eq hchild)]
        apply root_of_parent_eq
        rw [hlinked, if_neg hlt.ne, hparent]
      · rw [if_neg hindex]
        split_ifs with hself hroot hroot
        · rw [root_of_parent_eq hself] at hroot
          exact absurd hroot hindex
        · rw [root_of_parent_eq hself]
        · rw [ih _ (parent_lt hself), root_parent, if_pos hroot]
        · rw [ih _ (parent_lt hself), root_parent, if_neg hroot]

/-- Point every index on the path at the root. -/
def compress : (fuel : Nat) → (forest : Forest) → (cursor root : Nat) →
    forest.root cursor = root → Forest
  | 0, forest, _, _, _ => forest
  | fuel + 1, forest, cursor, root, hroot =>
      if forest.parent cursor = cursor then forest
      else
        compress fuel (forest.link cursor root (hroot ▸ forest.root_le cursor))
          (forest.parent cursor) root (by rw [root_link_root forest hroot, root_parent, hroot])

theorem root_compress {fuel : Nat} {forest : Forest} {cursor root : Nat}
    (hroot : forest.root cursor = root) (index : Nat) :
    (compress fuel forest cursor root hroot).root index = forest.root index := by
  induction fuel generalizing forest cursor with
  | zero => rfl
  | succ fuel ih =>
      rw [compress]
      split_ifs with h
      · rfl
      · rw [ih, root_link_root forest hroot]

theorem length_compress {fuel : Nat} {forest : Forest} {cursor root : Nat}
    (hroot : forest.root cursor = root) :
    (compress fuel forest cursor root hroot).parents.length = forest.parents.length := by
  induction fuel generalizing forest cursor with
  | zero => rfl
  | succ fuel ih =>
      rw [compress]
      split_ifs with h
      · rfl
      · rw [ih, length_link]

/-- The root of an index, and the forest with a shorter path to it. -/
def find (forest : Forest) (index : Nat) : Nat × Forest :=
  (forest.root index, compress index forest index (forest.root index) rfl)

theorem root_find (forest : Forest) (index i : Nat) :
    (forest.find index).2.root i = forest.root i :=
  root_compress rfl i

theorem length_find (forest : Forest) (index : Nat) :
    (forest.find index).2.parents.length = forest.parents.length :=
  length_compress rfl

/-- Make one component of two; the lower root is its root. -/
def join (forest : Forest) (left right : Nat) : Forest :=
  let found := forest.find left
  let both := found.2.find right
  if found.1 = both.1 then both.2
  else if h : found.1 < both.1 then both.2.link both.1 found.1 h.le
  else both.2.link found.1 both.1 (not_lt.mp h)

theorem length_join (forest : Forest) (left right : Nat) :
    (forest.join left right).parents.length = forest.parents.length := by
  rw [join]
  split_ifs
  · rw [length_find, length_find]
  · rw [length_link, length_find, length_find]
  · rw [length_link, length_find, length_find]

theorem root_join (forest : Forest) {left right : Nat} (hleft : left < forest.parents.length)
    (hright : right < forest.parents.length) (index : Nat) :
    (forest.join left right).root index =
      if forest.root index = max (forest.root left) (forest.root right)
      then min (forest.root left) (forest.root right) else forest.root index := by
  have hroots : ∀ i, ((forest.find left).2.find right).2.root i = forest.root i :=
    fun i => by rw [root_find, root_find]
  have hlength : ((forest.find left).2.find right).2.parents.length = forest.parents.length := by
    rw [length_find, length_find]
  have hfirst : (forest.find left).1 = forest.root left := rfl
  have hsecond : ((forest.find left).2.find right).1 = forest.root right :=
    root_find forest left right
  have hfixed : ∀ i, ((forest.find left).2.find right).2.parent (forest.root i) =
      forest.root i := by
    intro i
    rw [← hroots i]
    exact parent_root _ i
  rw [join]
  simp only [hfirst, hsecond]
  rcases lt_trichotomy (forest.root left) (forest.root right) with hlt | heq | hgt
  · rw [if_neg hlt.ne, dif_pos hlt, max_eq_right hlt.le, min_eq_left hlt.le,
      root_link _ hlt (hfixed right) (hfixed left), hroots]
    rw [hlength]
    exact (forest.root_le right).trans_lt hright
  · rw [if_pos heq, heq, max_self, min_self, hroots]
    split_ifs with hroot
    · exact hroot
    · rfl
  · rw [if_neg hgt.ne', dif_neg hgt.not_gt, max_eq_left hgt.le, min_eq_right hgt.le,
      root_link _ hgt (hfixed left) (hfixed right), hroots]
    rw [hlength]
    exact (forest.root_le left).trans_lt hleft

/-- Two indices of one component. -/
def Same (forest : Forest) (i j : Nat) : Prop := forest.root i = forest.root j

/-- A join merges two components and changes no other. -/
theorem same_join (forest : Forest) {left right : Nat} (hleft : left < forest.parents.length)
    (hright : right < forest.parents.length) (i j : Nat) :
    (forest.join left right).Same i j ↔
      forest.Same i j ∨ (forest.Same i left ∧ forest.Same right j) ∨
        (forest.Same i right ∧ forest.Same left j) := by
  rw [Same, root_join forest hleft hright, root_join forest hleft hright]
  simp only [Same]
  rcases le_total (forest.root left) (forest.root right) with hle | hle
  · rw [max_eq_right hle, min_eq_left hle]
    split_ifs <;> omega
  · rw [max_eq_left hle, min_eq_right hle]
    split_ifs <;> omega

/-- Group indices under their roots, with shorter paths on the way. -/
def group : Forest → Table Nat (List Nat) → List Nat → Table Nat (List Nat)
  | _, groups, [] => groups
  | forest, groups, index :: rest =>
      group (forest.find index).2 (groups.push (forest.find index).1 index) rest

theorem group_eq (forest : Forest) (groups : Table Nat (List Nat)) (indices : List Nat) :
    forest.group groups indices =
      groups.pushAll (indices.map fun index => (forest.root index, index)) := by
  induction indices generalizing forest groups with
  | nil => rfl
  | cons index rest ih =>
      rw [group, ih]
      simp only [root_find]
      rfl

end Forest

/-- Two indices claim a common key. -/
def Claims.Shares {K : Type u} (items : List (Nat × K)) (i j : Nat) : Prop :=
  ∃ key, (i, key) ∈ items ∧ (j, key) ∈ items

theorem Claims.Shares.mono {K : Type u} {items more : List (Nat × K)} {i j : Nat}
    (h : Claims.Shares items i j) : Claims.Shares (items ++ more) i j := by
  obtain ⟨key, hi, hj⟩ := h
  exact ⟨key, List.mem_append_left _ hi, List.mem_append_left _ hj⟩

section Claims

variable {K : Type u} [LinearOrder K]

/-- The components so far, and for every key the index that claimed it last. -/
structure Claims (K : Type u) [LinearOrder K] where
  forest : Forest
  owners : Table K Nat

namespace Claims

def start (size : Nat) : Claims K where
  forest := Forest.singletons size
  owners := Table.empty

/-- An index claims a key, and joins the index that had it. -/
def claim (claims : Claims K) (item : Nat × K) : Claims K where
  forest := match claims.owners.get? item.2 with
    | some previous => claims.forest.join previous item.1
    | none => claims.forest
  owners := claims.owners.insert item.2 item.1

/-- The claims made so far are those of the items. -/
structure Holds (size : Nat) (items : List (Nat × K)) (claims : Claims K) : Prop where
  length : claims.forest.parents.length = size
  bounded : ∀ item ∈ items, item.1 < size
  owner_mem : ∀ key index, claims.owners.get? key = some index → (index, key) ∈ items
  owned : ∀ item ∈ items, ∃ owner,
    claims.owners.get? item.2 = some owner ∧ claims.forest.Same item.1 owner
  sound : ∀ i j, claims.forest.Same i j → Relation.EqvGen (Shares items) i j

theorem Holds.start (size : Nat) : Holds size [] (Claims.start size : Claims K) where
  length := List.length_range
  bounded := by simp
  owner_mem := by simp [Claims.start]
  owned := by simp
  sound := by
    intro i j h
    rw [Forest.Same, Claims.start, Forest.root_singletons, Forest.root_singletons] at h
    exact h ▸ Relation.EqvGen.refl i

/-- Sharing a key is being in one component. -/
theorem Holds.same_of_shares {size : Nat} {items : List (Nat × K)} {claims : Claims K}
    (h : Holds size items claims) {i j : Nat} (hshares : Shares items i j) :
    claims.forest.Same i j := by
  obtain ⟨key, hi, hj⟩ := hshares
  obtain ⟨owner, howner, hsame⟩ := h.owned _ hi
  obtain ⟨other, hother, hsame'⟩ := h.owned _ hj
  have heq : owner = other := Option.some.inj (howner.symm.trans hother)
  rw [Forest.Same] at hsame hsame' ⊢
  rw [hsame, hsame', heq]

theorem Holds.claim {size : Nat} {items : List (Nat × K)} {claims : Claims K}
    (h : Holds size items claims) {item : Nat × K} (hitem : item.1 < size) :
    Holds size (items ++ [item]) (claims.claim item) := by
  have hbounded : ∀ entry ∈ items ++ [item], entry.1 < size := by
    intro entry hentry
    rcases List.mem_append.mp hentry with hold | hnew
    · exact h.bounded entry hold
    · rw [List.mem_singleton.mp hnew]
      exact hitem
  have howner : ∀ key index, (claims.claim item).owners.get? key = some index →
      (index, key) ∈ items ++ [item] := by
    intro key index hget
    rw [Claims.claim, Table.get?_insert] at hget
    split_ifs at hget with hkey
    · rw [← Option.some.inj hget, hkey]
      exact List.mem_append_right _ List.mem_cons_self
    · exact List.mem_append_left _ (h.owner_mem key index hget)
  have hlast : Shares (items ++ [item]) item.1 item.1 :=
    ⟨item.2, List.mem_append_right _ List.mem_cons_self,
      List.mem_append_right _ List.mem_cons_self⟩
  cases hprevious : claims.owners.get? item.2 with
  | none =>
      have hforest : (claims.claim item).forest = claims.forest := by
        rw [Claims.claim, hprevious]
      refine ⟨hforest ▸ h.length, hbounded, howner, ?_, ?_⟩
      · intro entry hentry
        rw [hforest, Claims.claim, Table.get?_insert]
        rcases List.mem_append.mp hentry with hold | hnew
        · obtain ⟨owner, hget, hsame⟩ := h.owned entry hold
          have hne : entry.2 ≠ item.2 := by
            intro heq
            rw [heq, hprevious] at hget
            cases hget
          rw [if_neg hne]
          exact ⟨owner, hget, hsame⟩
        · rw [List.mem_singleton.mp hnew, if_pos rfl]
          exact ⟨item.1, rfl, rfl⟩
      · intro i j hsame
        rw [hforest] at hsame
        exact (h.sound i j hsame).mono fun _ _ => Shares.mono
  | some previous =>
      have hmem := h.owner_mem _ _ hprevious
      have hold : previous < claims.forest.parents.length := by
        rw [h.length]
        exact h.bounded _ hmem
      have hnew : item.1 < claims.forest.parents.length := by
        rw [h.length]
        exact hitem
      have hjoin := Forest.same_join claims.forest hold hnew
      have hforest : (claims.claim item).forest = claims.forest.join previous item.1 := by
        rw [Claims.claim, hprevious]
      have hshared : Shares (items ++ [item]) previous item.1 :=
        ⟨item.2, List.mem_append_left _ hmem, List.mem_append_right _ List.mem_cons_self⟩
      refine ⟨?_, hbounded, howner, ?_, ?_⟩
      · rw [hforest, Forest.length_join, h.length]
      · intro entry hentry
        rw [hforest, Claims.claim, Table.get?_insert]
        rcases List.mem_append.mp hentry with hold | hnew
        · obtain ⟨owner, hget, hsame⟩ := h.owned entry hold
          by_cases hkey : entry.2 = item.2
          · rw [if_pos hkey]
            rw [hkey, hprevious] at hget
            refine ⟨item.1, rfl, (hjoin _ _).mpr (Or.inr (Or.inl ⟨?_, rfl⟩))⟩
            rw [Option.some.inj hget]
            exact hsame
          · rw [if_neg hkey]
            exact ⟨owner, hget, (hjoin _ _).mpr (Or.inl hsame)⟩
        · rw [List.mem_singleton.mp hnew, if_pos rfl]
          exact ⟨item.1, rfl, rfl⟩
      · intro i j hsame
        rw [hforest] at hsame
        have hlift : ∀ a b, claims.forest.Same a b →
            Relation.EqvGen (Shares (items ++ [item])) a b :=
          fun a b hab => (h.sound a b hab).mono fun _ _ => Shares.mono
        have hlinked := Relation.EqvGen.rel _ _ hshared
        rcases (hjoin i j).mp hsame with hold | ⟨hleft, hright⟩ | ⟨hleft, hright⟩
        · exact hlift i j hold
        · exact ((hlift _ _ hleft).trans _ _ _ hlinked).trans _ _ _ (hlift _ _ hright)
        · exact ((hlift _ _ hleft).trans _ _ _ hlinked.symm).trans _ _ _ (hlift _ _ hright)

theorem Holds.claims {size : Nat} {done items : List (Nat × K)} {claims : Claims K}
    (h : Holds size done claims) (hitems : ∀ item ∈ items, item.1 < size) :
    Holds size (done ++ items) (items.foldl Claims.claim claims) := by
  induction items generalizing done claims with
  | nil => rwa [List.append_nil]
  | cons item rest ih =>
      have hrest := ih (h.claim (hitems item List.mem_cons_self))
        fun other hother => hitems other (List.mem_cons_of_mem _ hother)
      rwa [List.append_assoc] at hrest

/-- The components of the claims are those of sharing a key. -/
theorem same_claims_iff {size : Nat} {items : List (Nat × K)}
    (hitems : ∀ item ∈ items, item.1 < size) (i j : Nat) :
    (items.foldl Claims.claim (Claims.start size)).forest.Same i j ↔
      Relation.EqvGen (Shares items) i j := by
  have hholds := (Holds.start (K := K) size).claims hitems
  rw [List.nil_append] at hholds
  constructor
  · exact hholds.sound i j
  · intro h
    induction h with
    | rel a b hab => exact hholds.same_of_shares hab
    | refl a => exact rfl
    | symm a b _ ih => exact ih.symm
    | trans a b c _ _ ih ih' => exact ih.trans ih'

end Claims

end Claims
