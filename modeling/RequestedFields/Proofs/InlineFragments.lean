import RequestedFields.Collection
import RequestedFields.Proofs.Expansion
import RequestedFields.Proofs.Tables

/-!
# Inline fragments

An inline fragment is passed over, or its selections are visited in its place.  Which of the two is
an option of a collection, and this file says what hangs on it.

**Nothing but the inline fragments does.**  They can be done with beforehand: delete them all, or
put their own selections in their places, in the selection set and in every definition.  What is
left has no inline fragment outside of fields, and collecting from it, with whichever option, is
collecting from the original with the option that was carried out (`collectInto_settled`).  No field
is looked into for this, and no fragment is entered, so it is a change of the text of the query
alone, and all cycles and undefined names are where they were.

**Passing over asks for less.**  What can be collected with all inline fragments expanded can be
collected with none of them, and of the fields met then, some are left out and the others stay in
their order (`collectInto_skip_of_expand`).  More cannot be said.  A field that was left out may
have been the first of its key, or the last, so neither the order of the keys nor the field under a
key need be the same.

* `settleAll`, `FragmentTable.settle` — the selections and the definitions without inline fragments.
* `traverse_settle` — the walk through them does the same, but has nothing to pass over.
* `Expands.exists_skip` — what is left of an expansion.
-/

set_option autoImplicit false

namespace RequestedFields

/-! ## Doing without inline fragments -/

mutual

/-- What stands for a selection when inline fragments are done with as `mode` says: to skip one
deletes it, and to expand one puts its selections, done with as well, in its place. -/
def Selection.settle (mode : InlineMode) : Selection → List Selection
  | .field f => [.field f]
  | .spread name => [.spread name]
  | .inline _ selections =>
    match mode with
    | .skip => []
    | .expand => settleAll mode selections

/-- A selection set in which inline fragments outside of fields are done with. -/
def settleAll (mode : InlineMode) : List Selection → List Selection
  | [] => []
  | a :: rest => a.settle mode ++ settleAll mode rest

end

/-- A definition in which inline fragments outside of fields are done with. -/
def Fragment.settle (mode : InlineMode) (fragment : Fragment) : Fragment :=
  { fragment with selections := settleAll mode fragment.selections }

/-- The definitions, with inline fragments outside of fields done with in all of them. -/
def FragmentTable.settle (mode : InlineMode) (fragments : FragmentTable) : FragmentTable :=
  fragments.map (.refl String) (Fragment.settle mode) fun _ ↦ rfl

/-- None of the selections is an inline fragment. -/
def WithoutInline (s : List Selection) : Prop := ∀ a ∈ s, a.kind ≠ .inline

/-- A step passes over an inline fragment. -/
def Step.isSkip : Step → Bool
  | .skip _ => true
  | _ => false

/-- A walk without the steps that pass over inline fragments. -/
def Traversal.withoutSkips (t : Traversal) : Traversal :=
  ⟨t.steps.filter fun s ↦ !s.isSkip, t.fault⟩

section

variable (fragments : FragmentTable) (mode mode' : InlineMode)

mutual

theorem Selection.withoutInline_settle : (a : Selection) → WithoutInline (a.settle mode)
  | .field _ => by simp [Selection.settle, WithoutInline, Selection.kind]
  | .spread _ => by simp [Selection.settle, WithoutInline, Selection.kind]
  | .inline _ selections => by
    have hinner := withoutInline_settleAll selections
    cases mode with
    | skip => simp [Selection.settle, WithoutInline]
    | expand => exact hinner

/-- **No inline fragment is left.** -/
theorem withoutInline_settleAll : (s : List Selection) → WithoutInline (settleAll mode s)
  | [] => by simp [settleAll, WithoutInline]
  | a :: rest => by
    intro b hb
    rcases List.mem_append.1 hb with hb | hb
    · exact Selection.withoutInline_settle a b hb
    · exact withoutInline_settleAll rest b hb

end

theorem FragmentTable.find?_settle (name : String) :
    (fragments.settle mode).find? name = (fragments.find? name).map (Fragment.settle mode) :=
  KeyedList.find?_map (.refl String) _ _ fragments name

namespace Traversal

theorem withoutSkips_record {s : Step} (h : s.isSkip = false) (t : Traversal) :
    (record s t).withoutSkips = record s t.withoutSkips := by
  simp [withoutSkips, record, h]

theorem withoutSkips_andThen (t u : Traversal) :
    (t.andThen u).withoutSkips = t.withoutSkips.andThen u.withoutSkips := by
  rcases t with ⟨steps, _ | e⟩
  · simp [andThen, withoutSkips]
  · rfl

/-- Passing over an inline fragment meets no field. -/
theorem fields_withoutSkips (t : Traversal) : t.withoutSkips.fields = t.fields := by
  rw [fields, fields, withoutSkips, List.filterMap_filter]
  refine List.filterMap_congr fun s _ ↦ ?_
  cases s <;> rfl

end Traversal

/-- **The walk through what is left does the same**, except that there is nothing to pass over. -/
theorem traverse_settle (stack : List String) (s : List Selection) :
    traverse (fragments.settle mode) mode' stack (settleAll mode s)
      = (traverse fragments mode stack s).withoutSkips := by
  fun_induction traverse fragments mode stack s with
  | case1 => rw [settleAll, traverse_nil]; rfl
  | case2 mode stack f rest ih =>
    rw [settleAll, Selection.settle, List.singleton_append, traverse_field, ih,
      Traversal.withoutSkips_record rfl]
  | case3 mode stack name rest hmem =>
    rw [settleAll, Selection.settle, List.singleton_append, traverse_spread_of_mem _ _ _ hmem]
    rfl
  | case4 mode stack name rest hnew hdef =>
    have hdef' := FragmentTable.find?_settle fragments mode name
    rw [hdef, Option.map_none] at hdef'
    rw [settleAll, Selection.settle, List.singleton_append,
      traverse_spread_of_none _ _ _ hnew hdef']
    rfl
  | case5 mode stack name rest hnew fragment hdef ihBody ihRest =>
    have hdef' := FragmentTable.find?_settle fragments mode name
    rw [hdef, Option.map_some] at hdef'
    rw [settleAll, Selection.settle, List.singleton_append,
      traverse_spread_of_some _ _ _ hnew hdef', Fragment.settle, ihBody, ihRest,
      Traversal.withoutSkips_record rfl, Traversal.withoutSkips_andThen,
      Traversal.withoutSkips_record rfl]
  | case6 stack typeCondition selections rest ih =>
    rw [settleAll, Selection.settle, List.nil_append, ih]
    rfl
  | case7 stack typeCondition selections rest ihInner ihRest =>
    rw [settleAll, Selection.settle, traverse_append, ihInner, ihRest,
      Traversal.withoutSkips_andThen]

end

/-- **Inline fragments can be done with beforehand.**  Where they are deleted from the selection set
and from all definitions, none is left, and whatever is now said to be done with them, the same is
collected as by skipping them: the same map, which is what is left after a fault as well, and the
same fault.  Where their selections are put in their places, the same holds for expanding them. -/
theorem collectInto_settled (fragments : FragmentTable) (key : KeyChoice) (mode mode' : InlineMode)
    (s : List Selection) (fields : FieldMap) :
    let c := collectInto fragments ⟨key, mode⟩ s fields
    let settled := collectInto (fragments.settle mode) ⟨key, mode'⟩ (settleAll mode s) fields
    WithoutInline (settleAll mode s) ∧
      (∀ fragment ∈ (fragments.settle mode).toList, WithoutInline fragment.selections) ∧
      settled.fields = c.fields ∧ settled.fault = c.fault := by
  have hwalk := traverse_settle fragments mode mode' [] s
  refine ⟨withoutInline_settleAll mode s, fun fragment hfragment ↦ ?_, ?_, ?_⟩
  · obtain ⟨original, -, rfl⟩ := List.mem_map.1 hfragment
    exact withoutInline_settleAll mode original.selections
  · simp only [collectInto, Traversal.keyed, hwalk, Traversal.fields_withoutSkips]
  · simp only [collectInto, hwalk, Traversal.withoutSkips]

/-- What is inside of an inline fragment moves up, also out of one inside of another.  What is below
a field stays. -/
example :
    let s : List Selection := [.inline (some "A") [.spread "F", .inline none [.field (.leaf "a")]],
      .field ⟨none, "b", [.inline none [.field (.leaf "c")]]⟩]
    settleAll .skip s = [.field ⟨none, "b", [.inline none [.field (.leaf "c")]]⟩] ∧
      settleAll .expand s = [.spread "F", .field (.leaf "a"),
        .field ⟨none, "b", [.inline none [.field (.leaf "c")]]⟩] := by
  decide

/-! ## Asking for less -/

/-- The fields that were put into the map of a collection, in order and as often as they were. -/
def Collection.stored (c : Collection) : List Field := c.steps.filterMap Step.field?

/-- Each field is put there under its key. -/
theorem fields_collectInto (fragments : FragmentTable) (options : CollectOptions)
    (s : List Selection) (fields : FieldMap) :
    (collectInto fragments options s fields).fields
      = fields.insertAll
          ((collectInto fragments options s fields).stored.map fun f ↦ (options.key.of f, f)) :=
  rfl

/-- **A selection set with an expansion has one in which inline fragments are skipped**, and that is
what is left of the other when the fields inside of them are taken out. -/
theorem Expands.exists_skip {fragments : FragmentTable} {mode : InlineMode} {s : List Selection}
    {met : List Field} (h : Expands fragments mode s met) :
    ∃ fewer, Expands fragments .skip s fewer ∧ fewer.Sublist met := by
  induction h with
  | nil => exact ⟨[], .nil .skip, .slnil⟩
  | field f _ ih =>
    obtain ⟨fewer, hfewer, hsub⟩ := ih
    exact ⟨f :: fewer, .field f hfewer, hsub.cons_cons f⟩
  | spread hdef _ _ ihBody ih =>
    obtain ⟨inner, hinner, hsubInner⟩ := ihBody
    obtain ⟨fewer, hfewer, hsub⟩ := ih
    exact ⟨inner ++ fewer, .spread hdef hinner hfewer, hsubInner.append hsub⟩
  | skip typeCondition selections _ ih =>
    obtain ⟨fewer, hfewer, hsub⟩ := ih
    exact ⟨fewer, .skip typeCondition selections hfewer, hsub⟩
  | expand typeCondition _ _ _ ih =>
    obtain ⟨fewer, hfewer, hsub⟩ := ih
    exact ⟨fewer, .skip typeCondition _ hfewer, hsub.trans (List.sublist_append_right _ _)⟩

/-- **Skipping inline fragments asks for less than expanding them.**  Where collecting with all of
them expanded is not stopped, collecting with none of them expanded is not stopped either.  The
fields that are put into the map are some of those that were, in the same order, and there is no key
that was not there. -/
theorem collectInto_skip_of_expand {fragments : FragmentTable} {key : KeyChoice}
    {s : List Selection} {before all : FieldMap}
    (h : (collectInto fragments ⟨key, .expand⟩ s before).result = .ok all) :
    ∃ fewer, (collectInto fragments ⟨key, .skip⟩ s before).result = .ok fewer ∧
      (collectInto fragments ⟨key, .skip⟩ s before).stored.Sublist
        (collectInto fragments ⟨key, .expand⟩ s before).stored ∧
      fewer.keys ⊆ all.keys := by
  obtain ⟨hexpand, rfl⟩ := Collection.result_eq_ok_iff.1 h
  obtain ⟨met, hmet, hsub⟩ := (expands_of_traverse hexpand).exists_skip
  obtain ⟨hskip, rfl⟩ := expands_iff_traverse.1 hmet
  have hstored : (collectInto fragments ⟨key, .skip⟩ s before).stored.Sublist
      (collectInto fragments ⟨key, .expand⟩ s before).stored := hsub
  refine ⟨_, Collection.result_eq_ok_iff.2 ⟨hskip, rfl⟩, hstored, fun k hk ↦ ?_⟩
  rw [fields_collectInto, KeyedList.mem_keys_insertAll] at hk ⊢
  exact hk.imp_right fun hk ↦ ((hstored.map _).map _).subset hk

/-- A field in an inline fragment that comes first, with a fragment, and one in another that comes
last.  Without them the keys come in another order, and under one of them stands another field. -/
theorem collectInto_skip_of_expand_reordered :
    let fragments : FragmentTable := .ofList [⟨"F", "T", [.field (.leaf "b")]⟩]
    let s : List Selection := [.inline (some "A") [.field (.leaf "b"), .spread "F"],
      .field (.leaf "a"), .field (.leaf "b"), .inline none [.field ⟨some "x", "a", []⟩]]
    let before : FieldMap := .ofList [("c", .leaf "c")]
    let all : FieldMap := .ofList [("c", .leaf "c"), ("b", .leaf "b"), ("a", ⟨some "x", "a", []⟩)]
    (collectInto fragments ⟨.name, .expand⟩ s before).result = .ok all ∧
      (∃ fewer, (collectInto fragments ⟨.name, .skip⟩ s before).result = .ok fewer ∧
        (collectInto fragments ⟨.name, .skip⟩ s before).stored.Sublist
          (collectInto fragments ⟨.name, .expand⟩ s before).stored ∧
        fewer.keys ⊆ all.keys) ∧
      (collectInto fragments ⟨.name, .skip⟩ s before).fields.toList
        = [("c", .leaf "c"), ("a", .leaf "a"), ("b", .leaf "b")] := by
  intro fragments s before all
  have hall : (collectInto fragments ⟨.name, .expand⟩ s before).result = .ok all := by cbv
  exact ⟨hall, collectInto_skip_of_expand hall, by cbv⟩

end RequestedFields
