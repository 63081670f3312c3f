/-
Parent functions on a finite set of nodes: the climb from a node to a root, and
that every node has one exactly when no node is its own ancestor.
-/
import Mathlib.Data.Finite.Defs
import Mathlib.Data.Fintype.Card
import Mathlib.Data.List.Basic
import Mathlib.Logic.Relation
import Mathlib.Order.WellFounded
import Mathlib.Data.Fintype.Order

universe u

namespace ParentTree

variable {α : Type u} (parent : α → Option α)

/-- One is the parent of the other. -/
def Above (upper lower : α) : Prop := parent lower = some upper

/-- The way from a node over its parents up to a node that has none. -/
inductive Climbs : α → List α → α → Prop
  | root {node : α} (hroot : parent node = none) : Climbs node [node] node
  | up {node above root : α} {path : List α} (hparent : parent node = some above)
      (hclimbs : Climbs above path root) : Climbs node (node :: path) root

/-- No node is its own ancestor. -/
def Acyclic : Prop := ∀ node, ¬ Relation.TransGen (Above parent) node node

variable {parent}

theorem Climbs.root_eq {node root : α} {path : List α} (h : Climbs parent node path root) :
    parent root = none := by
  induction h with
  | root hroot => exact hroot
  | up _ _ ih => exact ih

theorem Climbs.root_mem {node root : α} {path : List α} (h : Climbs parent node path root) :
    root ∈ path := by
  induction h with
  | root _ => exact List.mem_singleton_self _
  | up _ _ ih => exact List.mem_cons_of_mem _ ih

/-- Every node on the way is the node itself or one of its ancestors. -/
theorem Climbs.ancestor {node root : α} {path : List α} (h : Climbs parent node path root) :
    ∀ other ∈ path, Relation.ReflTransGen (Above parent) other node := by
  induction h with
  | root _ =>
      intro other hother
      rw [List.mem_singleton.mp hother]
  | up hparent _ ih =>
      intro other hother
      rcases List.mem_cons.mp hother with rfl | hlater
      · exact .refl
      · exact (ih other hlater).tail hparent

/-- What holds of a node and of the parent of every node that has it holds all the way. -/
theorem Climbs.forall_mem {property : α → Prop}
    (hkeep : ∀ node above, property node → parent node = some above → property above)
    {node root : α} {path : List α} (h : Climbs parent node path root) (hnode : property node) :
    ∀ other ∈ path, property other := by
  induction h with
  | root _ =>
      intro other hother
      rwa [List.mem_singleton.mp hother]
  | up hparent _ ih =>
      intro other hother
      rcases List.mem_cons.mp hother with rfl | hlater
      · exact hnode
      · exact ih (hkeep _ _ hnode hparent) other hlater

/-- A node from which one comes to a root is not its own ancestor. -/
theorem Climbs.not_cyclic {node root : α} {path : List α} (h : Climbs parent node path root) :
    ¬ Relation.TransGen (Above parent) node node := by
  induction h with
  | root hroot =>
      intro hcycle
      obtain ⟨last, _, hlast⟩ := Relation.TransGen.tail'_iff.mp hcycle
      rw [Above, hroot] at hlast
      cases hlast
  | up hparent _ ih =>
      intro hcycle
      obtain ⟨last, hfirst, hlast⟩ := Relation.TransGen.tail'_iff.mp hcycle
      rw [Above, hparent] at hlast
      cases hlast
      exact ih (Relation.TransGen.head' hparent hfirst)

/-- An ancestor of a node on a cycle is on a cycle. -/
theorem cyclic_of_below {upper lower : α} (h : Relation.ReflTransGen (Above parent) upper lower)
    (hcycle : Relation.TransGen (Above parent) lower lower) :
    Relation.TransGen (Above parent) upper upper := by
  induction h using Relation.ReflTransGen.head_induction_on with
  | refl => exact hcycle
  | @head node below hparent _ ih =>
      obtain ⟨last, hfirst, hlast⟩ := Relation.TransGen.tail'_iff.mp ih
      have hsame : last = node := by
        rw [Above] at hparent hlast
        exact Option.some.inj (hlast.symm.trans hparent)
      exact Relation.TransGen.head' hparent (hsame ▸ hfirst)

/-- Without a cycle the way from a node visits no node twice. -/
theorem Climbs.nodup (hacyclic : Acyclic parent) {node root : α} {path : List α}
    (h : Climbs parent node path root) : path.Nodup := by
  induction h with
  | root _ => exact List.nodup_singleton _
  | up hparent hclimbs ih =>
      refine List.nodup_cons.mpr ⟨fun hagain => ?_, ih⟩
      exact hacyclic _ (Relation.TransGen.tail' (hclimbs.ancestor _ hagain) hparent)

/-- Among finitely many nodes without a cycle every node has a way to a root. -/
theorem exists_climb {nodes : List α} (hacyclic : Acyclic parent)
    (hclosed : ∀ node ∈ nodes, ∀ above, parent node = some above → above ∈ nodes)
    {node : α} (hnode : node ∈ nodes) : ∃ path root, Climbs parent node path root := by
  let above : {node // node ∈ nodes} → {node // node ∈ nodes} → Prop :=
    fun upper lower => Relation.TransGen (Above parent) upper.1 lower.1
  have hfinite : Finite {node // node ∈ nodes} := List.finite_toSet nodes
  have htrans : IsTrans _ above := ⟨fun _ _ _ => Relation.TransGen.trans⟩
  have hirrefl : Std.Irrefl above := ⟨fun node => hacyclic node.1⟩
  have hfounded : WellFounded above := Finite.wellFounded_of_trans_of_irrefl above
  induction hsub : (⟨node, hnode⟩ : {node // node ∈ nodes}) using hfounded.induction
    generalizing node with
  | _ sub ih =>
      subst hsub
      cases hparent : parent node with
      | none => exact ⟨[node], node, .root hparent⟩
      | some upper =>
          have hupper := hclosed node hnode upper hparent
          obtain ⟨path, root, hclimbs⟩ := ih ⟨upper, hupper⟩ (.single hparent) hupper rfl
          exact ⟨node :: path, root, .up hparent hclimbs⟩

end ParentTree
