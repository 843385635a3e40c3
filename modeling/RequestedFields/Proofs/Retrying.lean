import RequestedFields.Collection
import RequestedFields.Proofs.Insertions

/-!
# Collecting once more

A collection that was stopped has changed the map it was filling.  Still it may simply be run again
into that map, once the missing definitions are there: **the result is the one that the later
collection would have had from the beginning.**  Nothing has to be undone, and the order in which
the keys first came in is not disturbed either.

There are two parts to it.

* More definitions let a walk go on, but they change nothing of what it has done
  (`continuedBy_traverse`).  So what the stopped collection put into the map is the beginning of
  what the later one puts in.
* Inserting the beginning of a list beforehand changes nothing
  (`KeyedList.insertAll_insertAll_of_prefix`).

With the same definitions both times, this says that to collect twice is to collect once.
-/

set_option autoImplicit false

namespace RequestedFields

/-- The second table has every definition of the first, and may have more. -/
def FragmentTable.Extends (fragments fragments' : FragmentTable) : Prop :=
  ∀ name fragment, fragments.find? name = some fragment → fragments'.find? name = some fragment

theorem FragmentTable.Extends.refl (fragments : FragmentTable) :
    FragmentTable.Extends fragments fragments :=
  fun _ _ h ↦ h

/-- The second walk does what the first has done, and goes on from there if the first was
stopped. -/
structure Traversal.ContinuedBy (t u : Traversal) : Prop where
  /-- Whatever the first has done comes first. -/
  steps : t.steps <+: u.steps
  /-- A walk that is not stopped does not go on. -/
  eq_of_none (h : t.fault = none) : u = t

section

variable {t t' u u' : Traversal}

theorem Traversal.ContinuedBy.refl (t : Traversal) : t.ContinuedBy t :=
  ⟨List.prefix_rfl, fun _ ↦ rfl⟩

/-- A walk that is stopped at once may go on in any way. -/
theorem Traversal.continuedBy_stop (e : FragmentError) (u : Traversal) : (stop e).ContinuedBy u :=
  ⟨List.nil_prefix, fun h ↦ by cases h⟩

theorem Traversal.ContinuedBy.record (h : t.ContinuedBy u) (s : Step) :
    (record s t).ContinuedBy (record s u) := by
  refine ⟨List.cons_prefix_cons.2 ⟨rfl, h.steps⟩, fun hnone ↦ ?_⟩
  rw [h.eq_of_none hnone]

theorem Traversal.ContinuedBy.andThen (h : t.ContinuedBy t') (hu : u.ContinuedBy u') :
    (t.andThen u).ContinuedBy (t'.andThen u') := by
  cases hfault : t.fault with
  | none =>
    rw [h.eq_of_none hfault]
    refine ⟨?_, fun hnone ↦ ?_⟩
    · rw [steps_andThen, steps_andThen, if_pos hfault, if_pos hfault, List.prefix_append_right_inj]
      exact hu.steps
    · rw [hu.eq_of_none (fault_andThen_eq_none_iff.1 hnone).2]
  | some e =>
    refine ⟨?_, fun hnone ↦ ?_⟩
    · rw [steps_andThen, if_neg (by simp [hfault]), steps_andThen]
      split
      · exact h.steps.trans (List.prefix_append _ _)
      · exact h.steps
    · rw [fault_andThen, hfault] at hnone
      cases hnone

end

/-- **More definitions let a walk go on.** -/
theorem continuedBy_traverse {fragments fragments' : FragmentTable}
    (hext : fragments.Extends fragments') (mode : InlineMode) (stack : List String)
    (s : List Selection) :
    (traverse fragments mode stack s).ContinuedBy (traverse fragments' mode stack s) := by
  fun_induction traverse fragments mode stack s with
  | case1 mode stack =>
    rw [traverse_nil]
    exact .refl .done
  | case2 mode stack f rest ih =>
    rw [traverse_field]
    exact ih.record _
  | case3 mode stack name rest hmem =>
    rw [traverse_spread_of_mem _ _ _ hmem]
    exact .refl _
  | case4 mode stack name rest hnew hdef => exact Traversal.continuedBy_stop _ _
  | case5 mode stack name rest hnew fragment hdef ihBody ihRest =>
    rw [traverse_spread_of_some _ _ _ hnew (hext name fragment hdef)]
    exact (ihBody.andThen (ihRest.record _)).record _
  | case6 stack typeCondition selections rest ih =>
    rw [traverse_inline_skip]
    exact ih.record _
  | case7 stack typeCondition selections rest ihInner ihRest =>
    rw [traverse_inline_expand]
    exact ihInner.andThen ihRest

/-- What is put into a map is the beginning of what is put into it with more definitions. -/
theorem keyed_isPrefix {fragments fragments' : FragmentTable} (hext : fragments.Extends fragments')
    (options : CollectOptions) (s : List Selection) :
    (traverse fragments options.inlineFragments [] s).keyed options.key
      <+: (traverse fragments' options.inlineFragments [] s).keyed options.key :=
  ((continuedBy_traverse hext _ [] s).steps.filterMap Step.field?).map _

/-- **A collection may be run again into the map it has left behind**, whether it was stopped or
not, with more definitions or with the same: the result is that of the later collection from the
beginning.  What it gives is not changed by one more run either. -/
theorem result_collectInto_again {fragments fragments' : FragmentTable}
    (hext : fragments.Extends fragments') {options : CollectOptions} {s : List Selection}
    {before after : FieldMap} (h : (collectInto fragments' options s before).result = .ok after) :
    (collectInto fragments' options s (collectInto fragments options s before).fields).result
        = .ok after ∧
      (collectInto fragments' options s after).result = .ok after := by
  have hagain {earlier : FragmentTable} (hearlier : earlier.Extends fragments') :
      (collectInto fragments' options s (collectInto earlier options s before).fields).result
        = .ok after := by
    rw [Collection.result_eq_ok_iff] at h ⊢
    refine ⟨h.1, ?_⟩
    rw [← h.2]
    exact KeyedList.insertAll_insertAll_of_prefix (keyed_isPrefix hearlier options s) before
  refine ⟨hagain hext, ?_⟩
  have htwice := hagain (.refl fragments')
  rwa [(Collection.result_eq_ok_iff.1 h).2] at htwice

/-- A fragment that spreads another. -/
def outerFragment : Fragment :=
  ⟨"F", "T", [.field ⟨some "x", "a", []⟩, .spread "G", .field (.leaf "b")]⟩

/-- The other. -/
def innerFragment : Fragment := ⟨"G", "T", [.field (.leaf "c"), .field ⟨some "y", "a", []⟩]⟩

/-- The second run, into a map with fields of before, begins where the first was stopped: in the
outer fragment, after it had replaced one of them, because the inner one was missing. -/
theorem result_collectInto_again_missing :
    let first : FragmentTable := .ofList [outerFragment]
    let second : FragmentTable := .ofList [innerFragment, outerFragment]
    let s : List Selection := [.field (.leaf "d"), .spread "F"]
    let before : FieldMap := .ofList [("a", .leaf "a"), ("z", .leaf "z")]
    let after : FieldMap := .ofList
      [("a", ⟨some "y", "a", []⟩), ("z", .leaf "z"), ("d", .leaf "d"), ("c", .leaf "c"),
        ("b", .leaf "b")]
    first.Extends second ∧
      (collectInto second .default s before).result = .ok after ∧
      (collectInto first .default s before).fault = some (.unknownFragment "G") ∧
      (collectInto second .default s (collectInto first .default s before).fields).result
        = .ok after := by
  intro first second s before after
  have hext : first.Extends second := by
    intro name fragment h
    have hmem : fragment ∈ [outerFragment] := KeyedList.mem_of_find? h
    rw [List.mem_singleton] at hmem
    subst hmem
    rw [← KeyedList.key_of_find? h]
    rfl
  have hafter : (collectInto second .default s before).result = .ok after := by cbv
  exact ⟨hext, hafter, by cbv, (result_collectInto_again hext hafter).1⟩

end RequestedFields
