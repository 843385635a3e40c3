import Mathlib.Control.Monad.Basic
import RequestedFields.Proofs.PathExtension

/-!
# Going down to the last node

Someone who has only field maps can go down a query key by key: collect the fields as a response is
laid out, go to the field under the key, collect the fields below it, and so on.  A path that is
followed keeps **all** nodes of a level, this walk keeps **one**: the field under a key is the last
that has it.  So the walk stands on the last node of every level, as long as that node has the next
key below it.  It need not have it, where the level has other nodes that do.

* `fieldBelow`, `goDown` — one key further, and all keys of a path.
* `ending_descend` — `descend` goes the same way, and then collects once more.
* `fieldBelow_of_level` — one key further from the last node of a level: the walk comes to the last
  node of the next, or the key is missing and the level has several nodes.
* `goDown_standsOnLast` — **the walk is never at fault and comes to the last node that the path
  leads to, unless it stood on the last of several nodes and another one had the key.**
-/

set_option autoImplicit false

namespace RequestedFields

/-! ## The walk -/

/-- Collect the fields of a selection set and look for one of them. -/
def fieldBelow (fragments : FragmentTable) (options : CollectOptions) (s : List Selection)
    (key : String) : Except FragmentError (Option Field) :=
  (collect fragments options s).result.map fun fields ↦ fields.field? key

/-- Where a walk down comes to. -/
inductive WalkDown where
  /-- Every key was found, and this field stands under the last of them. -/
  | arrived (f : Field)
  /-- The keys of `walked` were found, and the next was not. -/
  | missing (walked : List String) (key : String)
  /-- Fields could not be collected. -/
  | fault (error : FragmentError)

/-- Go to the field under `key`, and on from there, where the keys of `walked` have led to the given
selection set. -/
def goDown (fragments : FragmentTable) (options : CollectOptions) :
    (walked : List String) → List Selection → (key : String) → (rest : List String) → WalkDown
  | walked, s, key, [] =>
    match fieldBelow fragments options s key with
    | .error e => .fault e
    | .ok none => .missing walked key
    | .ok (some f) => .arrived f
  | walked, s, key, next :: rest =>
    match fieldBelow fragments options s key with
    | .error e => .fault e
    | .ok none => .missing walked key
    | .ok (some f) => goDown fragments options (walked ++ [key]) f.selections next rest

/-- A descent by one key and more. -/
theorem ending_descend_cons (fragments : FragmentTable) (options : CollectOptions)
    (s : List Selection) (key : String) (rest : List String) :
    (descend fragments options s (key :: rest)).ending
      = match fieldBelow fragments options s key with
        | .error e => .fault e
        | .ok none => .missing key
        | .ok (some f) => (descend fragments options f.selections rest).ending := by
  rw [descend, fieldBelow, Collection.result]
  cases (collect fragments options s).fault with
  | some e => rfl
  | none =>
    simp only [Except.map]
    cases (collect fragments options s).fields.field? key <;> rfl

/-- **A descent goes the same way**, and collects once more where it arrives. -/
theorem ending_descend (fragments : FragmentTable) (options : CollectOptions)
    (walked : List String) (s : List Selection) (key : String) (rest : List String) :
    (descend fragments options s (key :: rest)).ending
      = match goDown fragments options walked s key rest with
        | .arrived f => (descend fragments options f.selections []).ending
        | .missing _ absent => .missing absent
        | .fault e => .fault e := by
  induction rest generalizing walked s key with
  | nil =>
    rw [ending_descend_cons, goDown]
    rcases fieldBelow fragments options s key with _ | _ | _ <;> rfl
  | cons next rest ih =>
    rw [ending_descend_cons, goDown]
    rcases fieldBelow fragments options s key with _ | _ | f
    · rfl
    · rfl
    · exact ih (walked ++ [key]) f.selections next

/-! ## One key further -/

section

variable {fragments : FragmentTable}

/-- Collected as a response is laid out, what is found below is the last match. -/
theorem fieldBelow_response {s : List Selection}
    (h : (traverse fragments .expand [] s).fault = none) (key : String) :
    fieldBelow fragments .response s key
      = .ok (matchesOf key (traverse fragments .expand [] s).fields).getLast? := by
  have hresult : (collect fragments .response s).result
      = .ok (collectInto fragments .response s .empty).fields :=
    Collection.result_eq_ok_iff.2 ⟨h, rfl⟩
  rw [fieldBelow, hresult, ← field?_collectInto_response]
  rfl

/-- **One key further from the last node of a level**: the walk comes to the last node of the next
level, or the key is missing, and then the level has another node. -/
theorem fieldBelow_of_level {walked : List String} {sets : List (List Selection)} {key : String}
    {found : List Field} (hlevel : (PathWalk.level fragments walked sets key).outcome = .ok found)
    {s : List Selection} (hlast : sets.getLast? = some s) :
    (∃ f, fieldBelow fragments .response s key = .ok (some f) ∧ found.getLast? = some f) ∨
      fieldBelow fragments .response s key = .ok none ∧ 2 ≤ sets.length := by
  obtain ⟨before, rfl⟩ := List.getLast?_eq_some_iff.1 hlast
  obtain ⟨hfault, hfound, hmatches⟩ := PathWalk.outcome_level_eq_ok_iff.1 hlevel
  rw [List.flatten_append, List.flatten_singleton, traverse_append,
    Traversal.fault_andThen_eq_none_iff] at hfault
  rw [List.flatten_append, List.flatten_singleton, traverse_append,
    Traversal.fields_andThen_of_none hfault.1, matchesOf_append] at hmatches
  rw [fieldBelow_response hfault.2]
  cases hbelow : (matchesOf key (traverse fragments .expand [] s).fields).getLast? with
  | some f =>
    exact Or.inl ⟨f, rfl, by rw [← hmatches, List.getLast?_append, hbelow, Option.some_or]⟩
  | none =>
    -- the matches are all below other nodes, and there are some
    refine Or.inr ⟨rfl, ?_⟩
    cases before with
    | nil =>
      rw [List.getLast?_eq_none_iff.1 hbelow] at hmatches
      exact absurd hmatches.symm (by simpa [matchesOf] using hfound)
    | cons other before => simp

end

/-! ## All keys -/

/-- Where a walk stands, compared with the `nodes` that `path` leads to and with those that the
paths above it lead to. -/
def WalkDown.StandsOnLast (nodesAt? : List String → Option (List Field)) (path : List String)
    (nodes : List Field) : WalkDown → Prop
  | .arrived f => nodes.getLast? = some f
  | .missing walked key =>
    walked ++ [key] <+: path ∧ walked ≠ [] ∧
      ∃ several, nodesAt? walked = some several ∧ 2 ≤ several.length
  | .fault _ => False

section

variable {fragments : FragmentTable} {root : List Selection}

/-- A path that leads to several selection sets has keys, and leads to several nodes. -/
theorem PathWalk.several_of_reached {walked : List String} {sets : List (List Selection)}
    (h : reached fragments root walked = .ok sets) (hlen : 2 ≤ sets.length) :
    walked ≠ [] ∧ ∃ several, (ofRoot fragments root walked).outcome.toOption = some several ∧
      2 ≤ several.length := by
  cases walked with
  | nil =>
    cases h
    exact absurd hlen (by simp)
  | cons first rest =>
    rw [reached, if_neg (List.cons_ne_nil first rest)] at h
    cases houtcome : (ofRoot fragments root (first :: rest)).outcome with
    | error e =>
      rw [houtcome] at h
      cases h
    | ok several =>
      rw [houtcome] at h
      cases h
      exact ⟨List.cons_ne_nil first rest, several, rfl, by rwa [List.length_map] at hlen⟩

/-- **The walk stands on the last node of every level**, by induction on the keys that are left: it
comes from the last node of one level to that of the next. -/
theorem goDown_of_follow {walked : List String} {sets : List (List Selection)} {key : String}
    {rest : List String} {s : List Selection} {nodes : List Field}
    (hreached : PathWalk.reached fragments root walked = .ok sets)
    (hlast : sets.getLast? = some s)
    (h : (PathWalk.follow fragments walked sets key rest).outcome = .ok nodes) :
    (goDown fragments .response walked s key rest).StandsOnLast
      (fun path ↦ (PathWalk.ofRoot fragments root path).outcome.toOption)
      (walked ++ key :: rest) nodes := by
  induction rest generalizing walked sets key s with
  | nil =>
    rw [goDown]
    rcases fieldBelow_of_level h hlast with ⟨f, hf, hfound⟩ | ⟨hnone, hlen⟩
    · rw [hf]
      exact hfound
    · rw [hnone]
      exact ⟨List.prefix_rfl, PathWalk.several_of_reached hreached hlen⟩
  | cons next rest ih =>
    rw [PathWalk.follow] at h
    cases hlevel : (PathWalk.level fragments walked sets key).outcome with
    | error e =>
      rw [hlevel] at h
      cases h
    | ok found =>
      rw [hlevel] at h
      rw [goDown]
      rcases fieldBelow_of_level hlevel hlast with ⟨f, hf, hfound⟩ | ⟨hnone, hlen⟩
      · have hnext : PathWalk.reached fragments root (walked ++ [key])
            = .ok (found.map Field.selections) :=
          PathWalk.reached_concat_eq_ok_iff.2 ⟨sets, found, hreached, hlevel, rfl⟩
        have hbelow : (found.map Field.selections).getLast? = some f.selections := by
          rw [List.getLast?_map, hfound, Option.map_some]
        have hstands := ih hnext hbelow h
        rw [List.append_assoc] at hstands
        rw [hf]
        exact hstands
      · rw [hnone]
        exact ⟨⟨next :: rest, by rw [List.append_assoc, List.singleton_append]⟩,
          PathWalk.several_of_reached hreached hlen⟩

end

/-! ## Documents -/

/-- The nodes that a path leads to in the text of a query. -/
def nodesAt? (source : String) (operation : Option String) (path : List String) :
    Option (List Field) :=
  (resolveText source operation path).outcome.toOption.map ResolverInfo.fieldNodes

theorem nodesAt?_of_read {source : String} {operation : Option String} {d : Document}
    {root : List Selection} (hread : Document.read source = .ok d)
    (hselect : d.selectOperation operation = .ok root) (path : List String) :
    nodesAt? source operation path
      = (PathWalk.ofRoot (.ofList d.fragments) root path).outcome.toOption := by
  rw [nodesAt?, resolveText_of_read hread hselect, Document.outcome_resolvePath]
  cases (PathWalk.ofRoot (.ofList d.fragments) root path).outcome <;> rfl

/-- **Going down from the operation comes to the last node that a path leads to.**  Nothing is at
fault on the way.  If every key is found, the field under the last key is the last of the nodes; if
one is missing, it is not the first, and the keys before it lead to two nodes at least. -/
theorem goDown_standsOnLast {source : String} {operation : Option String} {path : List String}
    {info : ResolverInfo} {d : Document} {root : List Selection}
    (hread : Document.read source = .ok d) (hselect : d.selectOperation operation = .ok root)
    (hinfo : (resolveText source operation path).outcome = .ok info) :
    ∃ key rest, path = key :: rest ∧
      (goDown info.fragments .response [] root key rest).StandsOnLast
        (nodesAt? source operation) path info.fieldNodes := by
  rw [resolveText_of_read hread hselect] at hinfo
  obtain ⟨hnodes, hfragments⟩ := Document.nodes_of_resolvePath hinfo
  have hat : nodesAt? source operation
      = fun path ↦ (PathWalk.ofRoot (.ofList d.fragments) root path).outcome.toOption :=
    funext (nodesAt?_of_read hread hselect)
  cases path with
  | nil => cases hnodes
  | cons key rest =>
    have hreached : PathWalk.reached (.ofList d.fragments) root [] = .ok [root] := rfl
    refine ⟨key, rest, rfl, ?_⟩
    rw [hat, hfragments]
    exact goDown_of_follow hreached rfl hnodes

/-- Two nodes of one key, the second behind a fragment, with different fields below them. -/
def splitRoot : List Selection := [.field ⟨none, "a", [.field (.leaf "b")]⟩, .spread "F"]

/-- The document that asks for them. -/
def splitDocument : Document :=
  ⟨[.operation none splitRoot, .fragment ⟨"F", "T", [.field ⟨none, "a", [.field (.leaf "c")]⟩]⟩]⟩

/-- The walk stands on the second of the nodes and finds nothing there. -/
example : goDown (.ofList splitDocument.fragments) .response [] splitRoot "a" ["b"]
    = .missing ["a"] "b" := by
  cbv

/-- The path leads to the field below the first of the nodes. -/
theorem goDown_standsOnLast_split :
    Document.read "{a{b} ...F} fragment F on T{a{c}}" = .ok splitDocument ∧
      splitDocument.selectOperation none = .ok splitRoot ∧
      (resolveText "{a{b} ...F} fragment F on T{a{c}}" none ["a", "b"]).outcome
        = .ok ⟨[.leaf "b"], .ofList splitDocument.fragments⟩ ∧
      ∃ key rest, ["a", "b"] = key :: rest ∧
        (goDown (.ofList splitDocument.fragments) .response [] splitRoot key rest).StandsOnLast
          (nodesAt? "{a{b} ...F} fragment F on T{a{c}}" none) ["a", "b"] [.leaf "b"] := by
  have hread : Document.read "{a{b} ...F} fragment F on T{a{c}}" = .ok splitDocument := by
    decide +kernel
  have hwalk : (PathWalk.ofRoot (.ofList splitDocument.fragments) splitRoot ["a", "b"]).outcome
      = .ok [.leaf "b"] := by
    cbv
  have hinfo : (resolveText "{a{b} ...F} fragment F on T{a{c}}" none ["a", "b"]).outcome
      = .ok ⟨[.leaf "b"], .ofList splitDocument.fragments⟩ := by
    rw [resolveText_of_read hread rfl, Document.outcome_resolvePath, hwalk]
  exact ⟨hread, rfl, hinfo, goDown_standsOnLast hread rfl hinfo⟩

end RequestedFields
