import Mathlib.Control.Monad.Basic
import RequestedFields.Document
import RequestedFields.Proofs.Merging

/-!
# One key further

There are two ways to go one level down in a query.  A path can be followed by one more key; or the
nodes that the path leads to can be merged into one field map, laid out as a response is, and the
map asked for the key.  This file compares the two: **they fail alike, they find the key in the same
cases, and the field in the map is the last of the nodes that the longer path leads to.**

* `PathWalk.reached` — the selection sets that a path leads to: the nodes' own, or, for the path
  without keys, that of the operation.
* `PathWalk.andThen`, `PathWalk.ofRoot_concat`, `PathWalk.reached_concat_eq_ok_iff` — one walk and
  then another; a path with one more key is one more level in those sets.
* `PathWalk.steps_level`, `PathWalk.outcome_level`, `PathWalk.outcome_level_eq_ok_iff` — what a
  level writes and gives, in terms of the sets written as one.
* `resolveText_concat_agrees_with_merging` — the comparison, for the text of a query.
-/

set_option autoImplicit false

namespace RequestedFields

namespace PathWalk

/-! ## Paths with one more key -/

/-- The selection sets that a path leads to. -/
def reached (fragments : FragmentTable) (root : List Selection) (path : List String) :
    Except PathError (List (List Selection)) :=
  if path = [] then .ok [root]
  else (ofRoot fragments root path).outcome.map (List.map Field.selections)

/-- A walk and then, unless it failed, one from the nodes at its end. -/
def andThen (w : PathWalk) (below : List Field → PathWalk) : PathWalk :=
  match w.outcome with
  | .error e => ⟨w.steps, .error e⟩
  | .ok nodes => ⟨w.steps ++ (below nodes).steps, (below nodes).outcome⟩

theorem andThen_assoc (w : PathWalk) (below deeper : List Field → PathWalk) :
    (w.andThen below).andThen deeper = w.andThen fun nodes ↦ (below nodes).andThen deeper := by
  rcases w with ⟨steps, _ | nodes⟩
  · rfl
  · rcases hbelow : below nodes with ⟨steps', _ | nodes'⟩ <;> simp [andThen, hbelow]

theorem follow_cons (fragments : FragmentTable) (walked : List String)
    (sets : List (List Selection)) (key next : String) (rest : List String) :
    follow fragments walked sets key (next :: rest)
      = (level fragments walked sets key).andThen fun found ↦
          follow fragments (walked ++ [key]) (found.map Field.selections) next rest := by
  rw [follow]
  rfl

theorem follow_concat (fragments : FragmentTable) (walked : List String)
    (sets : List (List Selection)) (key : String) (rest : List String) (last : String) :
    follow fragments walked sets key (rest ++ [last])
      = (follow fragments walked sets key rest).andThen fun nodes ↦
          level fragments (walked ++ key :: rest) (nodes.map Field.selections) last := by
  induction rest generalizing walked sets key with
  | nil => rw [List.nil_append, follow_cons, follow]; rfl
  | cons next rest ih =>
    rw [List.cons_append, follow_cons, follow_cons, andThen_assoc]
    simp only [ih, List.append_assoc, List.singleton_append]

/-- **A path with one more key is one more level** in the selection sets that the path leads to. -/
theorem ofRoot_concat (fragments : FragmentTable) (root : List Selection) (path : List String)
    (key : String) :
    ofRoot fragments root (path ++ [key])
      = match reached fragments root path with
        | .error e => ⟨(ofRoot fragments root path).steps, .error e⟩
        | .ok sets =>
          ⟨(ofRoot fragments root path).steps ++ (level fragments path sets key).steps,
            (level fragments path sets key).outcome⟩ := by
  cases path with
  | nil => rfl
  | cons first rest =>
    rw [reached, if_neg (List.cons_ne_nil first rest), List.cons_append, ofRoot, follow_concat,
      ofRoot, andThen]
    cases (follow fragments [] [root] first rest).outcome <;> rfl

theorem outcome_ofRoot_concat (fragments : FragmentTable) (root : List Selection)
    (path : List String) (key : String) :
    (ofRoot fragments root (path ++ [key])).outcome
      = match reached fragments root path with
        | .error e => .error e
        | .ok sets => (level fragments path sets key).outcome := by
  rw [ofRoot_concat]
  cases reached fragments root path <;> rfl

theorem reached_of_ok {fragments : FragmentTable} {root : List Selection} {path : List String}
    {nodes : List Field} (h : (ofRoot fragments root path).outcome = .ok nodes) :
    reached fragments root path = .ok (nodes.map Field.selections) := by
  cases path with
  | nil => cases h
  | cons first rest =>
    rw [reached, if_neg (List.cons_ne_nil first rest), h]
    rfl

/-- **What a path leads to with one more key**, level by level. -/
theorem reached_concat_eq_ok_iff {fragments : FragmentTable} {root : List Selection}
    {path : List String} {key : String} {sets : List (List Selection)} :
    reached fragments root (path ++ [key]) = .ok sets ↔
      ∃ above found, reached fragments root path = .ok above ∧
        (level fragments path above key).outcome = .ok found ∧
        found.map Field.selections = sets := by
  rw [reached, if_neg (List.concat_ne_nil key path), outcome_ofRoot_concat]
  cases reached fragments root path with
  | error e => simp [Except.map]
  | ok above =>
    cases hlevel : (level fragments path above key).outcome with
    | error e => simp [hlevel, Except.map]
    | ok found => simp [hlevel, Except.map]

/-- A level writes what the walk through its selection sets, written as one, writes. -/
theorem steps_level (fragments : FragmentTable) (walked : List String)
    (sets : List (List Selection)) (key : String) :
    (level fragments walked sets key).steps
      = (traverse fragments .expand [] sets.flatten).steps := by
  rw [level, traverseAll_eq_flatten]

/-- What a level gives: the fault of its selection sets, written as one, or their matches. -/
theorem outcome_level (fragments : FragmentTable) (walked : List String)
    (sets : List (List Selection)) (key : String) :
    (level fragments walked sets key).outcome
      = match (traverse fragments .expand [] sets.flatten).fault with
        | some e => .error (.fragment e)
        | none =>
          match matchesOf key (traverse fragments .expand [] sets.flatten).fields with
          | [] => .error (.fieldNotFound (walked ++ [key]))
          | found => .ok found := by
  cases hf : (traverse fragments .expand [] sets.flatten).fault with
  | some e => simp only [level, traverseAll_eq_flatten, hf]
  | none =>
    cases hm : matchesOf key (traverse fragments .expand [] sets.flatten).fields with
    | nil => simp only [level, traverseAll_eq_flatten, hf, hm]
    | cons f found => simp only [level, traverseAll_eq_flatten, hf, hm]

/-- **A level finds something** if the walk through its selection sets is not stopped and something
matches, and then it finds all that matches. -/
theorem outcome_level_eq_ok_iff {fragments : FragmentTable} {walked : List String}
    {sets : List (List Selection)} {key : String} {found : List Field} :
    (level fragments walked sets key).outcome = .ok found ↔
      (traverse fragments .expand [] sets.flatten).fault = none ∧ found ≠ [] ∧
        matchesOf key (traverse fragments .expand [] sets.flatten).fields = found := by
  rw [outcome_level]
  cases (traverse fragments .expand [] sets.flatten).fault with
  | some e => simp
  | none =>
    cases matchesOf key (traverse fragments .expand [] sets.flatten).fields with
    | nil => simp
    | cons f others =>
      simp only [Except.ok.injEq, true_and]
      constructor
      · rintro rfl
        exact ⟨List.cons_ne_nil f others, rfl⟩
      · exact And.right

end PathWalk

/-! ## The comparison -/

/-- What becomes of `path` with one more `key` where merging what `path` leads to gives `merged`. -/
def ExtendsAsMerged (merged : Except FragmentError FieldMap) (path : List String) (key : String)
    (outcome : Except DocumentError ResolverInfo) : Prop :=
  match merged with
  | .error e => outcome = .error (.path (.fragment e))
  | .ok fields =>
    ((∃ info, outcome = .ok info) ↔ key ∈ fields.keys) ∧
      (∀ info, outcome = .ok info →
        ∃ f, info.fieldNodes.getLast? = some f ∧ fields.field? key = some f) ∧
      (key ∉ fields.keys → outcome = .error (.path (.fieldNotFound (path ++ [key]))))

theorem mem_keys_iff_field? {fields : FieldMap} {key : String} :
    key ∈ fields.keys ↔ fields.field? key ≠ none := by
  rw [KeyedList.mem_keys_iff, FieldMap.field?, Ne, Option.map_eq_none_iff,
    ← Ne, Option.ne_none_iff_exists']

theorem extendsAsMerged_resolvePath {definitions : List Fragment} {root : List Selection}
    {path : List String} {sets : List (List Selection)}
    (h : PathWalk.reached (.ofList definitions) root path = .ok sets) (key : String) :
    ExtendsAsMerged (collectAllInto (.ofList definitions) .response sets .empty).result path key
      (Document.resolvePath definitions root (path ++ [key])).outcome := by
  have hfield := field?_collectInto_response (.ofList definitions) sets.flatten key
  rw [collectAllInto_eq_flatten, Document.outcome_resolvePath, PathWalk.outcome_ofRoot_concat, h]
  simp only [PathWalk.outcome_level]
  cases hf : (traverse (.ofList definitions) .expand [] sets.flatten).fault with
  | some e =>
    have hresult : (collectInto (.ofList definitions) .response sets.flatten .empty).result
        = .error e := by
      simp only [Collection.result, collectInto, CollectOptions.response, hf]
    rw [hresult, ExtendsAsMerged]
  | none =>
    have hresult : (collectInto (.ofList definitions) .response sets.flatten .empty).result
        = .ok (collectInto (.ofList definitions) .response sets.flatten .empty).fields := by
      simp only [Collection.result, collectInto, CollectOptions.response, hf]
    rw [hresult, ExtendsAsMerged, mem_keys_iff_field?, hfield]
    cases hm : matchesOf key (traverse (.ofList definitions) .expand [] sets.flatten).fields with
    | nil => simp
    | cons f found =>
      have hlast := List.getLast?_eq_some_getLast (List.cons_ne_nil f found)
      refine ⟨⟨fun _ ↦ ?_, fun _ ↦ ⟨_, rfl⟩⟩, fun info hinfo ↦ ?_, fun hnone ↦ ?_⟩
      · rw [hlast]
        exact Option.some_ne_none _
      · cases hinfo
        exact ⟨_, hlast, hlast⟩
      · rw [hlast] at hnone
        exact absurd (Option.some_ne_none _) hnone

/-- **Following a path by one more key agrees with merging what the path leads to**, for every path
that leads to nodes and for the operation itself. -/
theorem resolveText_concat_agrees_with_merging (source : String) (operation : Option String) :
    (∀ path info, (resolveText source operation path).outcome = .ok info → ∀ key,
      ExtendsAsMerged
        (collectAllInto info.fragments .response (info.fieldNodes.map Field.selections)
          .empty).result
        path key (resolveText source operation (path ++ [key])).outcome) ∧
    (∀ d root, Document.read source = .ok d → d.selectOperation operation = .ok root → ∀ key,
      ExtendsAsMerged (collectAllInto (.ofList d.fragments) .response [root] .empty).result
        [] key (resolveText source operation [key]).outcome) := by
  constructor
  · intro path info hinfo key
    obtain ⟨d, root, hread, hselect⟩ := read_of_resolveText hinfo
    rw [resolveText_of_read hread hselect] at hinfo ⊢
    obtain ⟨hnodes, hfragments⟩ := Document.nodes_of_resolvePath hinfo
    rw [hfragments]
    exact extendsAsMerged_resolvePath (PathWalk.reached_of_ok hnodes) key
  · intro d root hread hselect key
    rw [resolveText_of_read hread hselect]
    have hreached : PathWalk.reached (.ofList d.fragments) root [] = .ok [root] := rfl
    exact extendsAsMerged_resolvePath hreached key

/-- A node that stands in a fragment. -/
def overwrittenNode : Field :=
  ⟨none, "a", [.field (.leaf "c"), .field ⟨none, "b", [.field (.leaf "d")]⟩]⟩

/-- A node with the same key behind it, which gives `c` to another field and asks for `b` without
anything below it. -/
def overwritingNode : Field := ⟨none, "a", [.field (.leaf "b"), .field ⟨some "c", "b", []⟩]⟩

/-- The operation in which they come together. -/
def overwritingRoot : List Selection := [.spread "F", .field overwritingNode]

def overwritingDocument : Document :=
  ⟨[.operation none overwritingRoot, .fragment ⟨"F", "T", [.field overwrittenNode]⟩]⟩

/-- The text that it is read from. -/
def overwritingText : String := "{...F a{b c:b}} fragment F on T{a{c b{d}}}"

/-- What the two nodes have below them, merged: the keys as the first brings them, the fields as the
second has them. -/
def overwrittenFields : FieldMap := .ofList [("c", ⟨some "c", "b", []⟩), ("b", .leaf "b")]

/-- Where two nodes overwrite each other, the longer path still ends with what is in the map. -/
theorem resolveText_concat_agrees_with_merging_overwritten :
    (resolveText overwritingText none ["a"]).outcome
        = .ok ⟨[overwrittenNode, overwritingNode], .ofList overwritingDocument.fragments⟩ ∧
      (collectAllInto (.ofList overwritingDocument.fragments) .response
        [overwrittenNode.selections, overwritingNode.selections] .empty).result
          = .ok overwrittenFields ∧
      ExtendsAsMerged (.ok overwrittenFields) ["a"] "c"
        (resolveText overwritingText none ["a", "c"]).outcome ∧
      Document.read overwritingText = .ok overwritingDocument ∧
      overwritingDocument.selectOperation none = .ok overwritingRoot ∧
      (collectAllInto (.ofList overwritingDocument.fragments) .response [overwritingRoot]
        .empty).result = .ok (.ofList [("a", overwritingNode)]) ∧
      ExtendsAsMerged (.ok (.ofList [("a", overwritingNode)])) [] "a"
        (resolveText overwritingText none ["a"]).outcome := by
  have hread : Document.read overwritingText = .ok overwritingDocument := by decide +kernel
  have hnodes : (resolveText overwritingText none ["a"]).outcome
      = .ok ⟨[overwrittenNode, overwritingNode], .ofList overwritingDocument.fragments⟩ := by
    rw [resolveText_of_read hread rfl]
    cbv
  have hfields : (collectAllInto (.ofList overwritingDocument.fragments) .response
      [overwrittenNode.selections, overwritingNode.selections] .empty).result
        = .ok overwrittenFields := by cbv
  have hfieldsRoot : (collectAllInto (.ofList overwritingDocument.fragments) .response
      [overwritingRoot] .empty).result = .ok (.ofList [("a", overwritingNode)]) := by cbv
  obtain ⟨hbelow, hroot⟩ := resolveText_concat_agrees_with_merging overwritingText none
  have hlonger := hbelow ["a"] _ hnodes "c"
  have hfirst := hroot _ _ hread rfl "a"
  rw [List.map_cons, List.map_cons, List.map_nil, hfields] at hlonger
  rw [hfieldsRoot] at hfirst
  exact ⟨hnodes, hfields, hlonger, hread, rfl, hfieldsRoot, hfirst⟩

end RequestedFields
