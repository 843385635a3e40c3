import RequestedFields.Proofs.Expansion
import RequestedFields.Proofs.FaultPlace
import RequestedFields.Proofs.Insertions

/-!
# What a field map holds

The fields of a selection set are collected into a map while it is walked through.  What the map
holds afterwards can be said without the walk and without the map being filled: take the
**expansion** of the selection set, in which a field stands as often as fragments repeat it, and
give every field its key.  **A key has the place where it stands first, the field with which it
stands last**, and the keys that were in the map before come before all others, in the places they
had.

A collection that is stopped leaves a map behind as well, and the same can be said of it: **it holds
the fields in front of the spread at fault**, in whatever fragments they are, and nothing that comes
behind it.

* `result_collectInto_of_expands` — with an expansion, the map holds it.
* `result_collectInto_eq_ok_iff` — collecting succeeds exactly if there is an expansion, and the map
  is the one that holds it.
* `collectInto_stopped_iff` — collecting is stopped exactly if a spread is at fault, and the map is
  the one that holds the fields in front of it.
-/

set_option autoImplicit false

namespace RequestedFields

open KeyedList (HoldsAfter holdsAfter_iff)

section

variable {fragments : FragmentTable} {options : CollectOptions} {s : List Selection}

/-- **Collecting from a selection set with an expansion** is not stopped, and the map holds the
fields of the expansion, with their keys, after what it held before. -/
theorem result_collectInto_of_expands {met : List Field}
    (h : Expands fragments options.inlineFragments s met) (before after : FieldMap) :
    (collectInto fragments options s before).result = .ok after ↔
      HoldsAfter before (met.map fun f ↦ (options.key.of f, f)) after := by
  obtain ⟨hfault, rfl⟩ := expands_iff_traverse.1 h
  rw [Collection.result_eq_ok_iff, holdsAfter_iff]
  exact ⟨fun h ↦ h.2, fun h ↦ ⟨hfault, h⟩⟩

/-- What was collected without a fault has an expansion. -/
theorem expands_of_result {before after : FieldMap}
    (h : (collectInto fragments options s before).result = .ok after) :
    ∃ met, Expands fragments options.inlineFragments s met :=
  ⟨_, expands_of_traverse (Collection.result_eq_ok_iff.1 h).1⟩

end

/-- **The content and the order of a field map.**  Fields are collected into a map exactly if the
selection set has an expansion, and then the map holds the fields of the expansion, each under its
key, after what it held before.  A map of its own is filled in the same way from the empty one. -/
theorem result_collectInto_eq_ok_iff (fragments : FragmentTable) (options : CollectOptions)
    (s : List Selection) :
    (∀ before after, (collectInto fragments options s before).result = .ok after ↔
      ∃ met, Expands fragments options.inlineFragments s met ∧
        HoldsAfter before (met.map fun f ↦ (options.key.of f, f)) after) ∧
    (∀ after, (collect fragments options s).result = .ok after ↔
      ∃ met, Expands fragments options.inlineFragments s met ∧
        HoldsAfter .empty (met.map fun f ↦ (options.key.of f, f)) after) := by
  have hinto : ∀ before after, (collectInto fragments options s before).result = .ok after ↔
      ∃ met, Expands fragments options.inlineFragments s met ∧
        HoldsAfter before (met.map fun f ↦ (options.key.of f, f)) after := by
    intro before after
    constructor
    · intro h
      obtain ⟨met, hmet⟩ := expands_of_result h
      exact ⟨met, hmet, (result_collectInto_of_expands hmet before after).1 h⟩
    · rintro ⟨met, hmet, hholds⟩
      exact (result_collectInto_of_expands hmet before after).2 hholds
  exact ⟨hinto, hinto .empty⟩

/-- The first node gives its key a place, and the last one stands there. -/
example : (collect .empty .default [.field (.leaf "a"), .field (.leaf "b"),
    .field ⟨some "x", "a", []⟩]).fields.toList = [("a", ⟨some "x", "a", []⟩), ("b", .leaf "b")] :=
  by cbv

/-- **The map that is left behind by a fault.**  Collecting is stopped by an error and leaves a map
exactly if a spread is at fault, with this error, and the map holds the fields in front of the
spread, each under its key, after what it held before. -/
theorem collectInto_stopped_iff (fragments : FragmentTable) (options : CollectOptions)
    (s : List Selection) (before after : FieldMap) (e : FragmentError) :
    ((collectInto fragments options s before).fault = some e ∧
        (collectInto fragments options s before).fields = after) ↔
      ∃ place placed, FaultAt fragments options.inlineFragments s place e ∧
        FieldsBefore fragments options.inlineFragments s place placed ∧
        HoldsAfter before (placed.map fun x ↦ (options.key.of x.2, x.2)) after := by
  have hkeyed {placed : List (List Nat × Field)}
      (hmet : placed.map Prod.snd = (traverse fragments options.inlineFragments [] s).fields) :
      (traverse fragments options.inlineFragments [] s).keyed options.key
        = placed.map fun x ↦ (options.key.of x.2, x.2) := by
    rw [Traversal.keyed, ← hmet, List.map_map]
    rfl
  simp only [holdsAfter_iff]
  constructor
  · rintro ⟨hfault, rfl⟩
    obtain ⟨place, placed, hplace, hplaced, hmet⟩ := exists_faultAt hfault
    refine ⟨place, placed, hplace, hplaced, ?_⟩
    rw [← hkeyed hmet]
    rfl
  · rintro ⟨place, placed, hplace, hplaced, rfl⟩
    have hfault := fault_traverse_eq_some_iff.2 ⟨place, hplace⟩
    -- the place and the fields in front of it are those that the walk has come to
    obtain ⟨place', placed', hplace', hplaced', hmet⟩ := exists_faultAt hfault
    obtain ⟨rfl, -⟩ := hplace'.unique hplace
    obtain rfl := hplaced'.unique hplaced
    refine ⟨hfault, ?_⟩
    rw [← hkeyed hmet]
    rfl

/-- A field of the fragment that is open replaces one of before; those behind the spread do not come
in. -/
example : (collectInto (.ofList [⟨"F", "T", [.field ⟨some "x", "a", []⟩, .spread "G"]⟩]) .default
    [.field (.leaf "c"), .spread "F", .field (.leaf "b")]
    (.ofList [("a", .leaf "a"), ("b", .leaf "b")])).fields.toList
      = [("a", ⟨some "x", "a", []⟩), ("b", .leaf "b"), ("c", .leaf "c")] := by
  cbv

end RequestedFields
