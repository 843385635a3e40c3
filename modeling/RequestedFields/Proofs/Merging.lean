import RequestedFields.Collection
import RequestedFields.PathWalk
import RequestedFields.Proofs.Insertions

/-!
# Merging selection sets

The nodes that select one field are merged by collecting them one after the other into one map
(`collectAllInto`).  This file says what that map holds.

* `collectAllInto_eq_flatten` — merging selection sets is collecting from all of them written as
  one: no fragment is open between two of them, and the first fault stops the rest.
* `field?_collectInto_response` — collected as a response is laid out, the field under a key is the
  last match of that key.
* `result_collectInto_eq_map` — collecting into a map is inserting what is collected into an empty
  one, although that has forgotten how often and where its keys came up again.
* `collecting_merges` — both ways to merge: node after node into one map, or each into a map of its
  own that is inserted afterwards.
-/

set_option autoImplicit false

namespace RequestedFields

/-- Collect the fields of several selection sets into a map, one after the other, up to the first
fault. -/
def collectAllInto (fragments : FragmentTable) (options : CollectOptions) :
    List (List Selection) → FieldMap → Collection
  | [], fields => ⟨fields, [], none⟩
  | s :: sets, fields =>
    let first := collectInto fragments options s fields
    match first.fault with
    | some _ => first
    | none =>
      let others := collectAllInto fragments options sets first.fields
      ⟨others.fields, first.steps ++ others.steps, others.fault⟩

/-- **Selection sets that are merged could as well be written as one.** -/
theorem collectAllInto_eq_flatten (fragments : FragmentTable) (options : CollectOptions)
    (sets : List (List Selection)) (fields : FieldMap) :
    collectAllInto fragments options sets fields
      = collectInto fragments options sets.flatten fields := by
  induction sets generalizing fields with
  | nil => simp [collectAllInto, collectInto, Traversal.keyed, Traversal.done, Traversal.fields]
  | cons s sets ih =>
    rw [collectAllInto, List.flatten_cons, collectInto_append]
    cases hf : (collectInto fragments options s fields).fault with
    | some e => simp only [hf]
    | none => simp only [hf, ih]

/-- **Collected as a response is laid out, the field under a key is its last match.** -/
theorem field?_collectInto_response (fragments : FragmentTable) (s : List Selection)
    (key : String) :
    (collectInto fragments .response s .empty).fields.field? key
      = (matchesOf key (traverse fragments .expand [] s).fields).getLast? := by
  rw [FieldMap.field?, collectInto, KeyedList.find?_insertAll, KeyedList.find?_empty,
    Option.or_none, Traversal.keyed, List.filter_map, List.getLast?_map, Option.map_map]
  simp [matchesOf, Function.comp_def, KeyChoice.of, CollectOptions.response]

/-- **Collecting into a map is inserting the map that is collected into the empty one.** -/
theorem result_collectInto_eq_map (fragments : FragmentTable) (options : CollectOptions)
    (s : List Selection) (fields : FieldMap) :
    (collectInto fragments options s fields).result
      = (collect fragments options s).result.map fun own ↦ fields.insertAll own.toList := by
  rw [collect, Collection.result, Collection.result]
  simp only [collectInto]
  cases (traverse fragments options.inlineFragments [] s).fault with
  | some e => rfl
  | none =>
    refine congrArg Except.ok ?_
    exact (KeyedList.insertAll_toList_ofList fields _).symm

/-- **Merging.**  The selection sets of several nodes are collected into a map, one after the other
up to the first fault, exactly as the one selection set in which they are written behind each other:
the same map, which is what is left after a fault as well, and the same fault.  And what is
collected from one selection set into a map is told by what is collected from it alone: the same
fault, or the map with all entries of the other come into it. -/
theorem collecting_merges (fragments : FragmentTable) (options : CollectOptions)
    (fields : FieldMap) :
    (∀ sets, collectAllInto fragments options sets fields
      = collectInto fragments options sets.flatten fields) ∧
    ∀ s, match (collect fragments options s).result with
      | .error e => (collectInto fragments options s fields).result = .error e
      | .ok own => ∃ after, (collectInto fragments options s fields).result = .ok after ∧
          KeyedList.HoldsAfter fields own.toList after := by
  refine ⟨fun sets ↦ collectAllInto_eq_flatten fragments options sets fields, fun s ↦ ?_⟩
  have hmap := result_collectInto_eq_map fragments options s fields
  cases hown : (collect fragments options s).result with
  | error e => rw [hmap, hown]; rfl
  | ok own =>
    refine ⟨fields.insertAll own.toList, ?_, KeyedList.holdsAfter_insertAll fields own.toList⟩
    rw [hmap, hown]
    rfl

end RequestedFields
