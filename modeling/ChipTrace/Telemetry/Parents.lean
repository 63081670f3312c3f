/-
Parent selection and the order of the links: what the links of the highest
priority decide alone, when every order of the links decides that, and an export
that one order of its links accepts and another refuses.
-/
import ChipTrace.Telemetry.Hierarchy

namespace ChipTrace.Telemetry

open Preference

section Order

variable (sha256 : Bytes → String) (unixNanos : String → Option Int)

/-- The export that results when every link can be read and every node has the one parent
that all its links of the highest priority name. -/
def HighestTree (interactions runtimeSpans links : List Json)
    (tree : List Json × OtlpHierarchy) : Prop :=
  ∃ nodes parents, collectNodes sha256 interactions runtimeSpans = .ok nodes ∧
    Readable (linkCandidate nodes.1) links ∧
    Settles (candidatesOf (linkCandidate nodes.1) links) parents ∧
    buildOtlpTree sha256 unixNanos interactions runtimeSpans nodes.1 parents = .ok tree

/-- In every order of its links the export is the one that the highest priorities decide. -/
def OrderFree (interactions runtimeSpans links : List Json) : Prop :=
  ∀ others, List.Perm others links → ∀ tree,
    projectOtlpTree sha256 unixNanos interactions runtimeSpans others = .ok tree ↔
      HighestTree sha256 unixNanos interactions runtimeSpans links tree

/-- All links of one priority to a node name one parent. -/
def PrioritiesAgree (interactions runtimeSpans links : List Json) : Prop :=
  ∀ nodes, collectNodes sha256 interactions runtimeSpans = .ok nodes →
    Agreeing (candidatesOf (linkCandidate nodes.1) links)

variable {sha256 unixNanos} {interactions runtimeSpans links : List Json}
  {tree : List Json × OtlpHierarchy}

theorem offerParent_candidate {nodeIds : Table String SpanIdentity} {parent child : String}
    {priority : Nat} {candidate : Candidate String String}
    (h : offerParent nodeIds parent child priority = .ok (some candidate)) :
    candidate = ⟨child, priority, parent⟩ := by
  obtain ⟨_, _, h⟩ := Except.bind_eq_ok_iff.mp h
  obtain ⟨_, _, h⟩ := Except.bind_eq_ok_iff.mp h
  split_ifs at h
  cases h
  rfl

theorem projectOtlpTree_ok_iff :
    projectOtlpTree sha256 unixNanos interactions runtimeSpans links = .ok tree ↔
      ∃ nodes parents, collectNodes sha256 interactions runtimeSpans = .ok nodes ∧
        links.foldlM (selectParent nodes.1) Table.empty = .ok parents ∧
        buildOtlpTree sha256 unixNanos interactions runtimeSpans nodes.1 parents = .ok tree := by
  simp only [projectOtlpTree, Except.bind_eq_ok_iff, ← exists_and_left]

/-- An accepted export has the parents of the highest priorities. -/
theorem highestTree_of_ok
    (h : projectOtlpTree sha256 unixNanos interactions runtimeSpans links = .ok tree) :
    HighestTree sha256 unixNanos interactions runtimeSpans links tree := by
  obtain ⟨nodes, parents, hnodes, hparents, htree⟩ := projectOtlpTree_ok_iff.mp h
  exact ⟨nodes, parents, hnodes, (foldlM_chooseItem_eq_ok_iff.mp hparents).1,
    settles_of_items hparents, htree⟩

/-- The highest priorities decide the same in every order. -/
theorem HighestTree.perm {others : List Json} (hperm : others.Perm links)
    (h : HighestTree sha256 unixNanos interactions runtimeSpans others tree) :
    HighestTree sha256 unixNanos interactions runtimeSpans links tree := by
  obtain ⟨nodes, parents, hnodes, hreadable, hsettles, htree⟩ := h
  exact ⟨nodes, parents, hnodes, fun link hlink => hreadable link (hperm.mem_iff.mpr hlink),
    settles_of_perm (hperm.symm.filterMap _) hsettles, htree⟩

theorem orderFree_of_agree (h : PrioritiesAgree sha256 interactions runtimeSpans links) :
    OrderFree sha256 unixNanos interactions runtimeSpans links := by
  intro others hperm tree
  constructor
  · exact fun hok => (highestTree_of_ok hok).perm hperm
  · rintro ⟨nodes, parents, hnodes, hreadable, hsettles, htree⟩
    apply projectOtlpTree_ok_iff.mpr
    refine ⟨nodes, parents, hnodes, ?_, htree⟩
    exact (foldlM_items_iff_of_agreeing hperm (h nodes hnodes)).mpr ⟨hreadable, hsettles⟩

/-- The verdict on an export and its parents do not depend on the order of the links exactly
when, if the highest priorities decide a valid export at all, all links of one priority to a
node agree. -/
theorem orderFree_iff :
    OrderFree sha256 unixNanos interactions runtimeSpans links ↔
      ((∃ tree, HighestTree sha256 unixNanos interactions runtimeSpans links tree) →
        PrioritiesAgree sha256 interactions runtimeSpans links) := by
  constructor
  · rintro hfree ⟨tree, htree⟩ nodes hnodes
    by_contra hdisagree
    obtain ⟨others, hperm, hrefused⟩ :=
      @exists_refused_order _ _ _ _ _ multipleParents _ _ _ hdisagree
    obtain ⟨_, parents, hnodes', hparents, _⟩ :=
      projectOtlpTree_ok_iff.mp ((hfree others hperm tree).mpr htree)
    rw [hnodes] at hnodes'
    cases hnodes'
    exact hrefused parents hparents
  · intro hagree
    by_cases hsome : ∃ tree, HighestTree sha256 unixNanos interactions runtimeSpans links tree
    · exact orderFree_of_agree (hagree hsome)
    · intro others hperm tree
      refine iff_of_false (fun hok => ?_) fun htree => hsome ⟨tree, htree⟩
      exact hsome ⟨tree, (highestTree_of_ok hok).perm hperm⟩

end Order

section Example

/-- The digests of the identities below. -/
def exampleDigests : List (String × String) :=
  [("session:s", "0cb43d057d48981d37e7bf619d004e79cb502f2e7cb52a8ff3b800b2222dd60f"),
    ("r", "454349e422f05297191ead13e21d3db520e5abef52055e4964b82fb213f593a1"),
    ("a", "ca978112ca1bbdcafac231b39a23dc4da786eff8147c4e72b9807785afee48bb"),
    ("b", "3e23e8160039594a33894f6564e1b1348bbd7a0088d42c4acb73eeaed59c009d"),
    ("c", "2e7d2c03a9507ae265ecf5b5356885a53393a2029d241394997265a1a25aefc6"),
    ("i1", "4cd9b7672d7fbee8fb51fb1e049f690342035f543a8efe734b7b5ffb0c154a45"),
    ("i2", "420fce314175df402adbeae3cfbbb85665b72d8b9bc2346f463e32a82f64b114")]

def exampleSha256 (bytes : Bytes) : String :=
  ((exampleDigests.find? fun entry => textBytes entry.1 == bytes).map Prod.snd).getD ""

def exampleSpan (id kind : String) : Json :=
  Json.mkObj [("span_id", .str id), ("span_kind", .str kind), ("name", .str kind),
    ("status", .str "completed"), ("trace_context", Json.mkObj [("session_id", .str "s")])]

def exampleInteraction (id : String) : Json :=
  Json.mkObj [("interaction_id", .str id),
    ("trace_context", Json.mkObj [("session_id", .str "s")])]

def exampleLink (relation source target : String) : Json :=
  Json.mkObj [("relation", .str relation), ("from", .str source), ("to", .str target)]

/-- A tool span whose keys match two requests and whose parent span is known. -/
def sharedKeyLinks : List Json :=
  [exampleLink "runtime_parent_to_interaction" "runtime-span:r" "interaction:i1",
    exampleLink "runtime_parent_to_interaction" "runtime-span:r" "interaction:i2",
    exampleLink "runtime_parent_to_child" "runtime-span:r" "runtime-span:c",
    exampleLink "interaction_to_runtime_span" "interaction:i1" "runtime-span:c",
    exampleLink "interaction_to_runtime_span" "interaction:i2" "runtime-span:c"]

def projectExample (links : List Json) : Except String (List Json × OtlpHierarchy) :=
  projectOtlpTree exampleSha256 (fun _ => none) [exampleInteraction "i1", exampleInteraction "i2"]
    [exampleSpan "r" "task_root", exampleSpan "c" "tool_execution"] links

/-- The links are accepted in this order and refused in the reverse one. -/
theorem not_always_orderFree :
    ¬ ∀ sha256 unixNanos interactions runtimeSpans links,
      OrderFree sha256 unixNanos interactions runtimeSpans links := by
  intro hall
  have hfree := hall exampleSha256 (fun _ => none)
    [exampleInteraction "i1", exampleInteraction "i2"]
    [exampleSpan "r" "task_root", exampleSpan "c" "tool_execution"] sharedKeyLinks
  have haccepted : (projectExample sharedKeyLinks).toOption.isSome = true := by
    decide +kernel
  have hrefused : (projectExample sharedKeyLinks.reverse).toOption.isSome = false := by
    decide +kernel
  cases haccept : projectExample sharedKeyLinks with
  | error error =>
      rw [haccept] at haccepted
      cases haccepted
  | ok tree =>
      have htree := (hfree _ (List.Perm.refl _) tree).mp haccept
      have hreverse := (hfree _ (List.reverse_perm _) tree).mpr htree
      rw [projectExample, hreverse] at hrefused
      cases hrefused

end Example

end ChipTrace.Telemetry
