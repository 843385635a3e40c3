import Mathlib.Data.List.Forall2
import Mathlib.Data.List.Induction
import RequestedFields.Proofs.Expansion
import RequestedFields.Proofs.PathExtension

/-!
# Prefixes of a path

A path is followed from the operation on, so what it leads to depends on what its prefixes lead to
and on nothing else.  Once something is wrong the rest is not looked at: **a path that fails, fails
with the same error whatever keys come behind it**, and therefore a path that leads to nodes has no
prefix that fails.  The path without keys is the exception.  It is an error of its own and says
nothing about its extensions, which is why it is left out everywhere below.

From a path that leads to nodes one key further **each node counts for itself**: the selection set
of every node is expanded, the fields with the key are picked out, and what the nodes give is put
together in their order, with all repetitions.

* `MatchesBelow` — the fields with a key in the expansion below one node.
* `PathWalk.outcome_ofRoot_append_of_error`, `PathWalk.exists_outcome_ofRoot_of_isPrefix` — failing
  goes on to the longer paths, leading to nodes goes back to the shorter ones.
* `PathWalk.outcome_level_nodes_eq_ok_iff` — a level, node by node.
* `resolveText_prefix_monotone` — all of it for the text of a query.
-/

set_option autoImplicit false

namespace RequestedFields

section

variable {fragments : FragmentTable}

/-! ## One node -/

/-- The fields with a key in the expansion of what is selected below a node. -/
def MatchesBelow (fragments : FragmentTable) (key : String) (node : Field) (found : List Field) :
    Prop :=
  ∃ met, Expands fragments .expand node.selections met ∧ matchesOf key met = found

theorem matchesBelow_iff {key : String} {node : Field} {found : List Field} :
    MatchesBelow fragments key node found ↔
      (traverse fragments .expand [] node.selections).fault = none ∧
        matchesOf key (traverse fragments .expand [] node.selections).fields = found := by
  constructor
  · rintro ⟨met, hexp, hfound⟩
    obtain ⟨hfault, rfl⟩ := expands_iff_traverse.1 hexp
    exact ⟨hfault, hfound⟩
  · rintro ⟨hfault, hfound⟩
    exact ⟨_, expands_of_traverse hfault, hfound⟩

/-! ## All nodes of a level -/

/-- The nodes have matches exactly if a walk through all their selection sets comes to the end, and
put together these are the matches among the fields that it has met. -/
theorem exists_matchesBelow_iff {key : String} {nodes found : List Field} :
    (∃ parts, List.Forall₂ (MatchesBelow fragments key) nodes parts ∧ parts.flatten = found) ↔
      (traverseAll fragments .expand (nodes.map Field.selections)).fault = none ∧
        matchesOf key (traverseAll fragments .expand (nodes.map Field.selections)).fields
          = found := by
  induction nodes generalizing found with
  | nil => simp [traverseAll, Traversal.done, Traversal.fields, matchesOf]
  | cons node nodes ih =>
    rw [List.map_cons, traverseAll, Traversal.fault_andThen_eq_none_iff]
    constructor
    · rintro ⟨parts, hall, rfl⟩
      obtain ⟨own, others, hnode, hnodes, rfl⟩ := List.forall₂_cons_left_iff.1 hall
      obtain ⟨hfault, rfl⟩ := matchesBelow_iff.1 hnode
      obtain ⟨hfaults, hmatches⟩ := ih.1 ⟨_, hnodes, rfl⟩
      refine ⟨⟨hfault, hfaults⟩, ?_⟩
      rw [Traversal.fields_andThen_of_none hfault, matchesOf_append, hmatches, List.flatten_cons]
    · rintro ⟨⟨hfault, hfaults⟩, rfl⟩
      obtain ⟨parts, hnodes, hparts⟩ := ih.2 ⟨hfaults, rfl⟩
      refine ⟨_ :: parts, .cons (matchesBelow_iff.2 ⟨hfault, rfl⟩) hnodes, ?_⟩
      rw [Traversal.fields_andThen_of_none hfault, matchesOf_append, ← hparts, List.flatten_cons]

namespace PathWalk

/-- **A level, node by node**: it finds what the nodes above it have below them, put together in
their order, if that is anything. -/
theorem outcome_level_nodes_eq_ok_iff {walked : List String} {nodes found : List Field}
    {key : String} :
    (level fragments walked (nodes.map Field.selections) key).outcome = .ok found ↔
      found ≠ [] ∧
        ∃ parts, List.Forall₂ (MatchesBelow fragments key) nodes parts ∧ parts.flatten = found := by
  rw [outcome_level_eq_ok_iff, exists_matchesBelow_iff, traverseAll_eq_flatten]
  exact and_left_comm

/-! ## Longer and shorter paths -/

variable {root : List Selection} {path : List String}

/-- **A path that fails, fails with the same error whatever keys come behind it.** -/
theorem outcome_ofRoot_append_of_error (hpath : path ≠ []) {e : PathError}
    (h : (ofRoot fragments root path).outcome = .error e) (more : List String) :
    (ofRoot fragments root (path ++ more)).outcome = .error e := by
  induction more using List.reverseRecOn with
  | nil => rwa [List.append_nil]
  | append_singleton more key ih =>
    have hmore : path ++ more ≠ [] := List.append_ne_nil_of_left_ne_nil hpath more
    rw [← List.append_assoc, outcome_ofRoot_concat, reached, if_neg hmore, ih]
    rfl

/-- **A path that leads to nodes has prefixes that do.** -/
theorem exists_outcome_ofRoot_of_isPrefix {nodes : List Field} {front : List String}
    (h : (ofRoot fragments root path).outcome = .ok nodes) (hfront : front ≠ [])
    (hfirst : front <+: path) :
    ∃ above, (ofRoot fragments root front).outcome = .ok above := by
  obtain ⟨more, rfl⟩ := hfirst
  cases houtcome : (ofRoot fragments root front).outcome with
  | ok above => exact ⟨above, rfl⟩
  | error e =>
    rw [outcome_ofRoot_append_of_error hfront houtcome more] at h
    cases h

/-- **One key further**, node by node. -/
theorem outcome_ofRoot_concat_eq_ok_iff {nodes found : List Field} {key : String}
    (h : (ofRoot fragments root path).outcome = .ok nodes) :
    (ofRoot fragments root (path ++ [key])).outcome = .ok found ↔
      found ≠ [] ∧
        ∃ parts, List.Forall₂ (MatchesBelow fragments key) nodes parts ∧ parts.flatten = found := by
  rw [outcome_ofRoot_concat, reached_of_ok h]
  exact outcome_level_nodes_eq_ok_iff

end PathWalk

end

/-! ## The text of a query -/

/-- What a text does not tell for a path, it does not tell for an extension, for the same reason. -/
theorem resolveText_append_of_error {source : String} {operation : Option String}
    {path : List String} (hpath : path ≠ []) {e : DocumentError}
    (h : (resolveText source operation path).outcome = .error e) (more : List String) :
    (resolveText source operation (path ++ more)).outcome = .error e := by
  cases hread : Document.read source with
  | error e' =>
    rw [resolveText, hread] at h ⊢
    exact h
  | ok d =>
    cases hselect : d.selectOperation operation with
    | error e' =>
      simp only [resolveText, hread, Document.resolve, hselect] at h ⊢
      exact h
    | ok root =>
      rw [resolveText_of_read hread hselect, Document.outcome_resolvePath] at h ⊢
      cases hwalk : (PathWalk.ofRoot (.ofList d.fragments) root path).outcome with
      | ok nodes => rw [hwalk] at h; cases h
      | error e' =>
        rw [PathWalk.outcome_ofRoot_append_of_error hpath hwalk more]
        rw [hwalk] at h
        exact h

/-- **Paths are monotone in their prefixes.**  A path that fails, fails with the same error whatever
keys come behind it.  A path that leads to nodes has prefixes that do, down to one key, with the
same fragments in the same order; and one key further it leads to what its nodes have below them in
their expansions, put together in their order, if that is anything at all. -/
theorem resolveText_prefix_monotone (source : String) (operation : Option String)
    {path : List String} (hpath : path ≠ []) :
    (∀ e, (resolveText source operation path).outcome = .error e →
      ∀ more, (resolveText source operation (path ++ more)).outcome = .error e) ∧
    ∀ info, (resolveText source operation path).outcome = .ok info →
      (∀ front, front ≠ [] → front <+: path →
        ∃ above, (resolveText source operation front).outcome = .ok above ∧
          above.fragments = info.fragments) ∧
      ∀ key below, (resolveText source operation (path ++ [key])).outcome = .ok below ↔
        below.fragments = info.fragments ∧ below.fieldNodes ≠ [] ∧
          ∃ parts, List.Forall₂ (MatchesBelow info.fragments key) info.fieldNodes parts ∧
            parts.flatten = below.fieldNodes := by
  refine ⟨fun e h ↦ resolveText_append_of_error hpath h, fun info hinfo ↦ ?_⟩
  obtain ⟨d, root, hread, hselect⟩ := read_of_resolveText hinfo
  rw [resolveText_of_read hread hselect] at hinfo
  obtain ⟨hnodes, hfragments⟩ := Document.nodes_of_resolvePath hinfo
  refine ⟨fun front hfront hfirst ↦ ?_, fun key below ↦ ?_⟩
  · obtain ⟨above, habove⟩ := PathWalk.exists_outcome_ofRoot_of_isPrefix hnodes hfront hfirst
    refine ⟨⟨above, .ofList d.fragments⟩, ?_, hfragments.symm⟩
    rw [resolveText_of_read hread hselect, Document.outcome_resolvePath, habove]
  · have hlonger : (PathWalk.ofRoot _ root (path ++ [key])).outcome = .ok below.fieldNodes ↔ _ :=
      PathWalk.outcome_ofRoot_concat_eq_ok_iff hnodes
    rw [resolveText_of_read hread hselect, hfragments, ← hlonger]
    constructor
    · intro hbelow
      obtain ⟨hfound, hsame⟩ := Document.nodes_of_resolvePath hbelow
      exact ⟨hsame, hfound⟩
    · rintro ⟨hsame, hfound⟩
      rw [Document.outcome_resolvePath, hfound, ← hsame]

/-- A node with two fields, and another one of the same key in a fragment. -/
def twoNodesDocument : Document :=
  ⟨[.operation none
      [.field ⟨none, "a", [.field (.leaf "b"), .field ⟨some "c", "b", []⟩]⟩, .spread "F"],
    .fragment ⟨"F", "T", [.field ⟨none, "a", [.field (.leaf "b")]⟩]⟩]⟩

/-- The text that it is read from. -/
def twoNodesText : String := "{a{b c:b} ...F} fragment F on T{a{b}}"

/-- Below the two nodes there are two matches of one key, and none of another. -/
theorem resolveText_prefix_monotone_twoNodes :
    ["a"] ≠ [] ∧ ["a", "d"] ≠ [] ∧
      (∃ parts, List.Forall₂ (MatchesBelow (.ofList twoNodesDocument.fragments) "b")
          [⟨none, "a", [.field (.leaf "b"), .field ⟨some "c", "b", []⟩]⟩,
            ⟨none, "a", [.field (.leaf "b")]⟩] parts ∧
        parts.flatten = [.leaf "b", .leaf "b"]) ∧
      ∀ more, (resolveText twoNodesText none (["a", "d"] ++ more)).outcome
        = .error (.path (.fieldNotFound ["a", "d"])) := by
  have hread : Document.read twoNodesText = .ok twoNodesDocument := by
    decide +kernel
  have hnodes : (resolveText twoNodesText none ["a"]).outcome
      = .ok ⟨[⟨none, "a", [.field (.leaf "b"), .field ⟨some "c", "b", []⟩]⟩,
          ⟨none, "a", [.field (.leaf "b")]⟩], .ofList twoNodesDocument.fragments⟩ := by
    rw [resolveText_of_read hread rfl]
    cbv
  have hbelow : (resolveText twoNodesText none ["a", "b"]).outcome
      = .ok ⟨[.leaf "b", .leaf "b"], .ofList twoNodesDocument.fragments⟩ := by
    rw [resolveText_of_read hread rfl]
    cbv
  have hnone : (resolveText twoNodesText none ["a", "d"]).outcome
      = .error (.path (.fieldNotFound ["a", "d"])) := by
    rw [resolveText_of_read hread rfl]
    cbv
  have hshort : ["a"] ≠ [] := by decide
  have hlong : ["a", "d"] ≠ [] := by decide
  have htwo := (resolveText_prefix_monotone twoNodesText none hshort).2 _ hnodes
  exact ⟨hshort, hlong, ((htwo.2 "b" _).1 hbelow).2.2,
    (resolveText_prefix_monotone twoNodesText none hlong).1 _ hnone⟩

end RequestedFields
