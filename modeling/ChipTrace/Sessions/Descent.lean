/-
The Sessions that are selected below a root: the descent over declared parents visits each of
them once, and stops at a cycle through the root.
-/
import ChipTrace.Lib.ParentTree
import ChipTrace.Sessions.Lineage

namespace ChipTrace.Assemble

open ParentTree

section Descent

variable {lineage : StockSessionLineage} {root : String}

/-- The Session above one in a lineage. -/
def parentIn (lineage : StockSessionLineage) (session : String) : Option String :=
  (lineage.get? session).map ChildSession.parentSessionId

theorem above_iff {upper lower : String} :
    Above (parentIn lineage) upper lower ↔
      ∃ child, lineage.get? lower = some child ∧ child.parentSessionId = upper := by
  rw [Above, parentIn, Option.map_eq_some_iff]

/-- The state of a descent: the Sessions that are done and those of the queue are all that has
been visited, each once; below the done ones nothing is left out. -/
structure Descending (lineage : StockSessionLineage) (root : String) (done queue : List String)
    (visited : OrdSet String) (members : Table String ChildSession) : Prop where
  nodup : (done ++ queue).Nodup
  visits : ∀ session, session ∈ visited.keys ↔ session ∈ done ++ queue
  starts : root ∈ done ++ queue
  reached : ∀ session ∈ done ++ queue, Relation.ReflTransGen (Above (parentIn lineage)) root session
  member : ∀ session child, members.get? session = some child ↔
    lineage.get? session = some child ∧ session ∈ done ++ queue ∧ session ≠ root
  parent : ∀ session ∈ done ++ queue, session ≠ root →
    ∃ child, lineage.get? session = some child ∧ child.parentSessionId ∈ done
  closed : ∀ session child, lineage.get? session = some child → child.parentSessionId ∈ done →
    session ∈ done ++ queue ∧ session ≠ root

theorem descending_start (lineage : StockSessionLineage) (root : String) :
    Descending lineage root [] [root] (OrdSet.ofList [root]) Table.empty where
  nodup := List.nodup_singleton root
  visits := fun session => OrdSet.mem_keys_ofList
  starts := List.mem_singleton_self root
  reached := fun session hsession => by
    rw [List.nil_append, List.mem_singleton] at hsession
    rw [hsession]
  member := fun session child => by
    rw [Table.get?_empty, List.nil_append, List.mem_singleton]
    constructor
    · intro h
      cases h
    · rintro ⟨_, heq, hne⟩
      exact absurd heq hne
  parent := fun session hsession hne => by
    rw [List.nil_append, List.mem_singleton] at hsession
    exact absurd hsession hne
  closed := fun session child _ hdone => absurd hdone List.not_mem_nil

variable {done queue : List String} {visited : OrdSet String}
variable {members : Table String ChildSession}

def childrenOf (lineage : StockSessionLineage) (parent : String) : List (String × ChildSession) :=
  lineage.entries.filter fun entry => entry.2.parentSessionId = parent

theorem mem_childrenOf {parent session : String} {child : ChildSession} :
    (session, child) ∈ childrenOf lineage parent ↔
      lineage.get? session = some child ∧ child.parentSessionId = parent := by
  rw [childrenOf, List.mem_filter, Table.mem_entries, decide_eq_true_eq]

theorem nodup_childrenOf (parent : String) : ((childrenOf lineage parent).map Prod.fst).Nodup :=
  lineage.sorted.nodup.sublist (List.filter_sublist.map Prod.fst)

theorem mem_names_childrenOf {parent session : String} :
    session ∈ (childrenOf lineage parent).map Prod.fst ↔
      ∃ child, lineage.get? session = some child ∧ child.parentSessionId = parent := by
  rw [List.mem_map]
  constructor
  · rintro ⟨⟨name, child⟩, hentry, rfl⟩
    exact ⟨child, mem_childrenOf.mp hentry⟩
  · rintro ⟨child, hchild⟩
    exact ⟨(session, child), mem_childrenOf.mpr hchild, rfl⟩

theorem get?_insertAll_childrenOf {parent session : String} {child : ChildSession} :
    (members.insertAll (childrenOf lineage parent)).get? session = some child ↔
      (lineage.get? session = some child ∧ child.parentSessionId = parent) ∨
        (session ∉ (childrenOf lineage parent).map Prod.fst ∧
          members.get? session = some child) := by
  have hnodup : ((childrenOf lineage parent).map Prod.fst).Nodup := nodup_childrenOf parent
  rw [Table.get?_insertAll, OrdMap.lookup_reverse hnodup, Option.or_eq_some_iff,
    ← OrdMap.mem_iff_lookup_of_nodup hnodup, OrdMap.lookup_eq_none_iff, mem_childrenOf]

/-- The children of the next Session of the queue are visited, if none of them has been. -/
theorem Descending.visit {parent : String}
    (h : Descending lineage root done (parent :: queue) visited members)
    (hnew : ∀ entry ∈ childrenOf lineage parent, entry.1 ∉ visited.keys) :
    Descending lineage root (done ++ [parent])
      (queue ++ (childrenOf lineage parent).map Prod.fst)
      (visited.addAll ((childrenOf lineage parent).map Prod.fst))
      (members.insertAll (childrenOf lineage parent)) := by
  have hlist : (done ++ [parent]) ++ (queue ++ (childrenOf lineage parent).map Prod.fst) =
      (done ++ parent :: queue) ++ (childrenOf lineage parent).map Prod.fst := by
    simp
  have hfresh : ∀ session ∈ (childrenOf lineage parent).map Prod.fst,
      session ∉ done ++ parent :: queue := by
    intro session hsession hold
    obtain ⟨entry, hentry, rfl⟩ := List.mem_map.mp hsession
    exact hnew entry hentry ((h.visits entry.1).mpr hold)
  have hparentIn : parent ∈ done ++ parent :: queue :=
    List.mem_append_right _ List.mem_cons_self
  have hnotRoot : ∀ session ∈ (childrenOf lineage parent).map Prod.fst, session ≠ root := by
    intro session hsession heq
    exact hfresh session hsession (heq ▸ h.starts)
  refine ⟨?_, ?_, ?_, ?_, ?_, ?_, ?_⟩
  · rw [hlist, List.nodup_append]
    refine ⟨h.nodup, nodup_childrenOf parent, ?_⟩
    rintro a ha b hb rfl
    exact hfresh a hb ha
  · intro session
    rw [hlist, OrdSet.mem_keys_addAll, h.visits, or_comm, ← List.mem_append]
  · rw [hlist]
    exact List.mem_append_left _ h.starts
  · rw [hlist]
    intro session hsession
    cases List.mem_append.mp hsession with
    | inl hold => exact h.reached session hold
    | inr hchild =>
        exact (h.reached parent hparentIn).tail
          (above_iff.mpr (mem_names_childrenOf.mp hchild))
  · intro session child
    rw [hlist, get?_insertAll_childrenOf, h.member]
    constructor
    · rintro (hchild | ⟨_, hget, hold, hne⟩)
      · have hname := mem_names_childrenOf.mpr ⟨child, hchild⟩
        exact ⟨hchild.1, List.mem_append_right _ hname, hnotRoot session hname⟩
      · exact ⟨hget, List.mem_append_left _ hold, hne⟩
    · rintro ⟨hget, hsession, hne⟩
      cases List.mem_append.mp hsession with
      | inl hold => exact Or.inr ⟨fun hname => hfresh session hname hold, hget, hold, hne⟩
      | inr hname =>
          obtain ⟨other, hother, hparent⟩ := mem_names_childrenOf.mp hname
          rw [hget] at hother
          obtain rfl := Option.some.inj hother
          exact Or.inl ⟨hget, hparent⟩
  · rw [hlist]
    intro session hsession hne
    cases List.mem_append.mp hsession with
    | inl hold =>
        obtain ⟨child, hget, hdone⟩ := h.parent session hold hne
        exact ⟨child, hget, List.mem_append_left _ hdone⟩
    | inr hname =>
        obtain ⟨child, hget, hparent⟩ := mem_names_childrenOf.mp hname
        exact ⟨child, hget, List.mem_append_right _ (List.mem_singleton.mpr hparent)⟩
  · rw [hlist]
    intro session child hget hdone
    cases List.mem_append.mp hdone with
    | inl hdone =>
        obtain ⟨hold, hne⟩ := h.closed session child hget hdone
        exact ⟨List.mem_append_left _ hold, hne⟩
    | inr hparent =>
        have hname := mem_names_childrenOf.mpr ⟨child, hget, List.mem_singleton.mp hparent⟩
        exact ⟨List.mem_append_right _ hname, hnotRoot session hname⟩

/-- A child that has been visited before can only be the root. -/
theorem Descending.cycle {parent : String}
    (h : Descending lineage root done (parent :: queue) visited members)
    {entry : String × ChildSession} (hentry : entry ∈ childrenOf lineage parent)
    (hvisited : entry.1 ∈ visited.keys) :
    Relation.TransGen (Above (parentIn lineage)) root root := by
  obtain ⟨hget, hparent⟩ := mem_childrenOf.mp hentry
  have hparentIn : parent ∈ done ++ parent :: queue :=
    List.mem_append_right _ List.mem_cons_self
  by_cases hroot : entry.1 = root
  · have habove : Above (parentIn lineage) parent root :=
      above_iff.mpr ⟨entry.2, hroot ▸ hget, hparent⟩
    exact Relation.TransGen.tail' (h.reached parent hparentIn) habove
  · obtain ⟨child, hchild, hdone⟩ := h.parent entry.1 ((h.visits entry.1).mp hvisited) hroot
    rw [hget] at hchild
    rw [← Option.some.inj hchild, hparent] at hdone
    have hdisjoint := (List.nodup_append.mp h.nodup).2.2
    exact absurd rfl (hdisjoint parent hdone parent List.mem_cons_self)

/-- When nothing is left in the queue the members are the Sessions below the root. -/
theorem Descending.finish (h : Descending lineage root done [] visited members) :
    ¬ Relation.TransGen (Above (parentIn lineage)) root root ∧
      ∀ session child, members.get? session = some child ↔
        lineage.get? session = some child ∧
          Relation.TransGen (Above (parentIn lineage)) root session := by
  have hbelow : ∀ session, Relation.TransGen (Above (parentIn lineage)) root session →
      session ∈ done ∧ session ≠ root := by
    intro session hsession
    have hstep : ∀ upper lower, upper ∈ done → Above (parentIn lineage) upper lower →
        lower ∈ done ∧ lower ≠ root := by
      intro upper lower hupper habove
      obtain ⟨child, hget, rfl⟩ := above_iff.mp habove
      obtain ⟨hold, hne⟩ := h.closed lower child hget hupper
      rw [List.append_nil] at hold
      exact ⟨hold, hne⟩
    have hroot := h.starts
    rw [List.append_nil] at hroot
    induction hsession with
    | single habove => exact hstep _ _ hroot habove
    | tail _ habove ih => exact hstep _ _ ih.1 habove
  refine ⟨fun hcycle => (hbelow root hcycle).2 rfl, fun session child => ?_⟩
  rw [h.member, List.append_nil]
  constructor
  · rintro ⟨hget, hdone, hne⟩
    refine ⟨hget, ?_⟩
    have hreached := h.reached session (by rw [List.append_nil]; exact hdone)
    cases Relation.reflTransGen_iff_eq_or_transGen.mp hreached with
    | inl heq => exact absurd heq hne
    | inr htrans => exact htrans
  · rintro ⟨hget, htrans⟩
    exact ⟨hget, hbelow session htrans⟩

theorem Descending.length_le (h : Descending lineage root done queue visited members) :
    (done ++ queue).length ≤ lineage.len + 1 := by
  have hsubset : done ++ queue ⊆ root :: lineage.keys := by
    intro session hsession
    by_cases hroot : session = root
    · exact hroot ▸ List.mem_cons_self
    · obtain ⟨child, hget, _⟩ := h.parent session hsession hroot
      exact List.mem_cons_of_mem _ ((lineage.mem_keys session).mpr ⟨child, hget⟩)
  have hle := (h.nodup.subperm hsubset).length_le
  rw [List.length_cons, Table.keys, List.length_map] at hle
  exact hle

/-- A descent that has as many rounds left as there are Sessions that are not done ends with the
Sessions below the root, unless the root is below itself. -/
theorem descend_spec (fuel : Nat) (h : Descending lineage root done queue visited members)
    (hfuel : lineage.len + 1 ≤ fuel + done.length) :
    (∀ result, lineage.descend fuel queue visited members = .ok result →
        ¬ Relation.TransGen (Above (parentIn lineage)) root root ∧
          ∀ session child, result.get? session = some child ↔
            lineage.get? session = some child ∧
              Relation.TransGen (Above (parentIn lineage)) root session) ∧
      (¬ Relation.TransGen (Above (parentIn lineage)) root root →
        ∃ result, lineage.descend fuel queue visited members = .ok result) := by
  induction fuel generalizing done queue visited members with
  | zero =>
      have hempty : queue = [] := by
        have hle := h.length_le
        rw [List.length_append] at hle
        apply List.eq_nil_of_length_eq_zero
        omega
      subst hempty
      refine ⟨fun result hresult => ?_, fun _ => ⟨members, rfl⟩⟩
      obtain rfl := Except.ok.inj hresult
      exact h.finish
  | succ fuel ih =>
      cases queue with
      | nil =>
          refine ⟨fun result hresult => ?_, fun _ => ⟨members, rfl⟩⟩
          obtain rfl := Except.ok.inj hresult
          exact h.finish
      | cons parent queue =>
          rw [StockSessionLineage.descend]
          rw [← childrenOf]
          split
          · rename_i entry hfound
            have hentry := List.mem_of_find?_eq_some hfound
            have hvisited : entry.1 ∈ visited.keys := by
              simpa using List.find?_some hfound
            refine ⟨fun result hresult => absurd hresult (by simp), fun hacyclic => ?_⟩
            exact absurd (h.cycle hentry hvisited) hacyclic
          · rename_i hnone
            have hnew : ∀ entry ∈ childrenOf lineage parent, entry.1 ∉ visited.keys := by
              intro entry hentry
              simpa using List.find?_eq_none.mp hnone entry hentry
            apply ih (h.visit hnew)
            rw [List.length_append, List.length_singleton]
            omega

/-- The Sessions below a root are selected exactly when the root is not below itself. -/
theorem selection_spec (lineage : StockSessionLineage) (root : String) :
    (∀ selection, lineage.selection root = .ok selection →
        selection.rootSessionId = root ∧
          ¬ Relation.TransGen (Above (parentIn lineage)) root root ∧
          ∀ session child, selection.members.get? session = some child ↔
            lineage.get? session = some child ∧
              Relation.TransGen (Above (parentIn lineage)) root session) ∧
      (¬ Relation.TransGen (Above (parentIn lineage)) root root →
        ∃ selection, lineage.selection root = .ok selection) := by
  obtain ⟨hspec, hends⟩ := descend_spec (lineage.len + 1) (descending_start lineage root)
    (Nat.le_add_right _ _)
  rw [StockSessionLineage.selection]
  constructor
  · intro selection hselection
    obtain ⟨members, hmembers, hselection⟩ := Except.bind_eq_ok_iff.mp hselection
    obtain rfl := Except.pure_eq_ok_iff.mp hselection
    exact ⟨rfl, hspec members hmembers⟩
  · intro hacyclic
    obtain ⟨members, hmembers⟩ := hends hacyclic
    exact ⟨⟨root, members⟩, Except.bind_eq_ok_iff.mpr ⟨members, hmembers, rfl⟩⟩

end Descent

section Canonical

open StockSessionSelection

theorem capturedTraceText_insert (object trace : JsonMap) (field : String) :
    capturedTraceText (.obj (JsonMap.insert object "traceContext" (.obj trace))) field =
      (JsonMap.get trace field).bind Json.asStr := by
  rw [capturedTraceText]
  change ((JsonMap.get (JsonMap.insert object "traceContext" (.obj trace)) "traceContext").bind
    _).bind _ = _
  rw [JsonMap.get_insert_self]
  rfl

/-- A capture that has been moved to the root stays as it is. -/
theorem canonicalize_canonicalize {selection : StockSessionSelection} {capture moved : Json}
    {flag : Bool} (h : selection.canonicalize capture = .ok (moved, flag)) :
    selection.canonicalize moved = .ok (moved, false) := by
  have hsame : moved = capture → selection.canonicalize capture = .ok (capture, false) →
      selection.canonicalize moved = .ok (moved, false) := by
    rintro rfl hcapture
    exact hcapture
  have hunmoved : ∀ result, selection.canonicalize capture = .ok (capture, false) →
      selection.canonicalize capture = .ok result → result.1 = capture := by
    intro result hcapture hresult
    rw [hcapture] at hresult
    rw [← Except.ok.inj hresult]
  have hfixed : selection.canonicalize capture = .ok (capture, false) →
      selection.canonicalize moved = .ok (moved, false) := fun hcapture =>
    hsame (hunmoved (moved, flag) hcapture h) hcapture
  cases hsource : capturedTraceText capture "session_id" with
  | none =>
      apply hfixed
      rw [StockSessionSelection.canonicalize, hsource]
  | some source =>
      by_cases hroot : source = selection.rootSessionId
      · apply hfixed
        rw [StockSessionSelection.canonicalize, hsource]
        simp only [hroot, if_true]
      · cases hmember : selection.members.get? source with
        | none =>
            apply hfixed
            rw [StockSessionSelection.canonicalize, hsource]
            simp only [hroot, hmember, if_false]
        | some lineage =>
            rw [StockSessionSelection.canonicalize, hsource] at h
            simp only [hroot, hmember, if_false] at h
            split at h
            · rename_i hnone
              cases hnone
            · rename_i object trace _ _
              have hend : ∀ trace : JsonMap, (pure (Json.obj (JsonMap.insert object "traceContext"
                  (.obj ((trace.insert "session_id" (.str selection.rootSessionId)).insert
                    "session_lineage_evidence" (.str "subagent_lifecycle")))), true) :
                      Except String (Json × Bool)) = .ok (moved, flag) →
                  selection.canonicalize moved = .ok (moved, false) := by
                intro trace htrace
                obtain ⟨rfl, _⟩ := Prod.mk.inj (Except.pure_eq_ok_iff.mp htrace)
                clear hsame hunmoved hfixed
                have hmoved := capturedTraceText_insert object
                  ((trace.insert "session_id" (.str selection.rootSessionId)).insert
                    "session_lineage_evidence" (.str "subagent_lifecycle")) "session_id"
                rw [JsonMap.get_insert_of_ne (by decide), JsonMap.get_insert_self] at hmoved
                rw [StockSessionSelection.canonicalize, hmoved]
                simp [Json.asStr]
              obtain ⟨_, _, h⟩ := Except.bind_eq_ok_iff.mp h
              split at h
              all_goals
                obtain ⟨_, _, h⟩ := Except.bind_eq_ok_iff.mp h
                obtain ⟨_, _, h⟩ := Except.bind_eq_ok_iff.mp h
                obtain ⟨_, _, h⟩ := Except.bind_eq_ok_iff.mp h
                obtain ⟨_, _, h⟩ := Except.bind_eq_ok_iff.mp h
                split at h
                · obtain ⟨_, _, h⟩ := Except.bind_eq_ok_iff.mp h
                  exact hend _ h
                · exact hend _ h
            · cases h

end Canonical

section Selected

/-- One Session is declared to be above another. -/
def DeclaredAbove (captures : List Json) (upper lower : String) : Prop :=
  ∃ d ∈ declaredBy captures, d.child = lower ∧ d.parent = upper

/-- The Sessions that captures select below a root. -/
def selectionOf (captures : List Json) (root : String) : Except String StockSessionSelection := do
  let lineage ← lineageOf captures
  lineage.selection root

variable {captures : List Json} {root : String}

theorem above_iff_declared {lineage : StockSessionLineage}
    (hholds : Holds (declaredBy captures) lineage) (hconsistent : Consistent (declaredBy captures))
    {upper lower : String} :
    Above (parentIn lineage) upper lower ↔ DeclaredAbove captures upper lower := by
  rw [above_iff]
  constructor
  · rintro ⟨child, hget, rfl⟩
    exact ((hholds lower child).mp hget).1
  · rintro ⟨d, hd, rfl, rfl⟩
    cases hget : lineage.get? d.child with
    | none => exact absurd rfl (hholds.none hconsistent hget d hd)
    | some child =>
        obtain ⟨other, hother, hchild, hparent⟩ := ((hholds d.child child).mp hget).1
        exact ⟨child, rfl, hparent.symm.trans (hconsistent other hother d hd hchild).1⟩

/-- What a selection selects, and when there is one. -/
theorem selectionOf_spec (captures : List Json) (root : String) :
    (∀ selection, selectionOf captures root = .ok selection →
        selection.rootSessionId = root ∧
          ∀ session, (selection.members.get? session).isSome = true ↔
            Relation.TransGen (DeclaredAbove captures) root session) ∧
      ((∃ selection, selectionOf captures root = .ok selection) ↔
        Readable captures ∧ Consistent (declaredBy captures) ∧
          ¬ ∃ session, Relation.ReflTransGen (DeclaredAbove captures) root session ∧
            Relation.TransGen (DeclaredAbove captures) session session) := by
  obtain ⟨hlineage, hreads⟩ := lineageOf_spec captures
  have hcycle : ∀ lineage, lineageOf captures = .ok lineage →
      (Relation.TransGen (Above (parentIn lineage)) root root ↔
        ∃ session, Relation.ReflTransGen (DeclaredAbove captures) root session ∧
          Relation.TransGen (DeclaredAbove captures) session session) := by
    intro lineage hlineageOf
    obtain ⟨_, hconsistent, hholds⟩ := hlineage lineage hlineageOf
    have hsame : Above (parentIn lineage) = DeclaredAbove captures := by
      funext upper lower
      exact propext (above_iff_declared hholds hconsistent)
    rw [← hsame]
    constructor
    · exact fun hroot => ⟨root, .refl, hroot⟩
    · rintro ⟨session, hreached, hsession⟩
      exact cyclic_of_below hreached hsession
  constructor
  · intro selection hselection
    obtain ⟨lineage, hlineageOf, hselected⟩ := Except.bind_eq_ok_iff.mp hselection
    obtain ⟨_, hconsistent, hholds⟩ := hlineage lineage hlineageOf
    obtain ⟨hroot, _, hmembers⟩ := (selection_spec lineage root).1 selection hselected
    refine ⟨hroot, fun session => ?_⟩
    have hsame : Above (parentIn lineage) = DeclaredAbove captures := by
      funext upper lower
      exact propext (above_iff_declared hholds hconsistent)
    rw [Option.isSome_iff_exists]
    simp only [hmembers, hsame]
    constructor
    · rintro ⟨child, _, hbelow⟩
      exact hbelow
    · intro hbelow
      obtain ⟨upper, _, d, hd, rfl, rfl⟩ := Relation.TransGen.tail'_iff.mp hbelow
      cases hget : lineage.get? d.child with
      | none => exact absurd rfl (hholds.none hconsistent hget d hd)
      | some child => exact ⟨child, rfl, hbelow⟩
  · constructor
    · rintro ⟨selection, hselection⟩
      obtain ⟨lineage, hlineageOf, hselected⟩ := Except.bind_eq_ok_iff.mp hselection
      obtain ⟨hreadable, hconsistent, _⟩ := hlineage lineage hlineageOf
      refine ⟨hreadable, hconsistent, fun hcyclic => ?_⟩
      exact ((selection_spec lineage root).1 selection hselected).2.1
        ((hcycle lineage hlineageOf).mpr hcyclic)
    · rintro ⟨hreadable, hconsistent, hacyclic⟩
      obtain ⟨lineage, hlineageOf⟩ := hreads hreadable hconsistent
      obtain ⟨selection, hselected⟩ := (selection_spec lineage root).2 fun hroot =>
        hacyclic ((hcycle lineage hlineageOf).mp hroot)
      exact ⟨selection, Except.bind_eq_ok_iff.mpr ⟨lineage, hlineageOf, hselected⟩⟩

/-- The order of captures does not matter to a selection. -/
theorem selectionOf_perm {reordered : List Json} (hperm : captures.Perm reordered)
    {selection : StockSessionSelection} (h : selectionOf captures root = .ok selection) :
    selectionOf reordered root = .ok selection := by
  obtain ⟨lineage, hlineageOf, hselected⟩ := Except.bind_eq_ok_iff.mp h
  obtain ⟨hreadable, hconsistent, hholds⟩ := (lineageOf_spec captures).1 lineage hlineageOf
  have hdeclared : declaredBy captures = declaredBy reordered := by
    ext d
    simp only [declaredBy, Set.mem_ofPred_eq, hperm.mem_iff]
  have hreadableToo : Readable reordered := fun capture hcapture =>
    hreadable capture (hperm.mem_iff.mpr hcapture)
  rw [hdeclared] at hconsistent hholds
  obtain ⟨other, hother⟩ := (lineageOf_spec reordered).2 hreadableToo hconsistent
  have hsame : other = lineage :=
    ((lineageOf_spec reordered).1 other hother).2.2.unique hholds
  rw [selectionOf, hother, hsame]
  exact hselected

/-- A selection is the root with the Sessions from which it is reached over declared parents,
for every order of the captures; without one there is a reason; and captures are moved to the
root once. -/
theorem selectionOf_exact (captures : List Json) (root : String) :
    (∀ selection, selectionOf captures root = .ok selection →
        (∀ session, (selection.members.get? session).isSome = true ↔
          Relation.TransGen (DeclaredAbove captures) root session) ∧
        (∀ session, selection.allowsSessionId session = true ↔
          Relation.ReflTransGen (DeclaredAbove captures) root session) ∧
        (∀ capture moved flag, selection.canonicalize capture = .ok (moved, flag) →
          selection.canonicalize moved = .ok (moved, false))) ∧
      (∀ reordered, captures.Perm reordered → ∀ selection,
        selectionOf captures root = .ok selection ↔
          selectionOf reordered root = .ok selection) ∧
      ((∃ message, selectionOf captures root = .error message) ↔
        ¬ Readable captures ∨ ¬ Consistent (declaredBy captures) ∨
          ∃ session, Relation.ReflTransGen (DeclaredAbove captures) root session ∧
            Relation.TransGen (DeclaredAbove captures) session session) := by
  obtain ⟨hselects, hexists⟩ := selectionOf_spec captures root
  refine ⟨fun selection hselection => ?_, fun reordered hperm selection => ?_, ?_⟩
  · obtain ⟨hroot, hmembers⟩ := hselects selection hselection
    refine ⟨hmembers, fun session => ?_, fun capture moved flag => canonicalize_canonicalize⟩
    rw [StockSessionSelection.allowsSessionId, Bool.or_eq_true, beq_iff_eq, hroot, hmembers,
      Relation.reflTransGen_iff_eq_or_transGen]
  · exact ⟨selectionOf_perm hperm, selectionOf_perm hperm.symm⟩
  · rw [← not_iff_not, not_or, not_or, not_not, not_not, ← hexists]
    cases selectionOf captures root with
    | error message => simp
    | ok selection => simp

end Selected

end ChipTrace.Assemble
