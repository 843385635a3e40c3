import Mathlib.Control.Monad.Basic
import Mathlib.Logic.Relation
import RequestedFields.Document
import RequestedFields.Proofs.Expansion
import RequestedFields.Proofs.Merging
import RequestedFields.Proofs.SpreadNames

/-!
# Valid documents

A document is **valid** if every spread in it is of a defined fragment and no definition leads back
to itself through spreads outside of fields.  A definition may well spread itself below one of its
fields, as queries for trees do.  Nothing bounds how far one can then go down: collect the fields of
a node, take one of them, collect its fields, and so on for ever.  **No step of this ever finds a
spread at fault**, and neither does following a path.

There are two parts to it.

* One walk: as long as every name on the stack leads to every name that is still to be spread, a
  name that is met again would lead to itself (`fault_eq_none`).
* Many walks: a walk meets no field that mentions anything new, so `AllDefined` goes on from a
  selection set to those below the fields met in it (`AllDefined.of_mem_fields`).

`Descends` says which selection sets are reached by going down, with other options at every step if
one likes.
-/

set_option autoImplicit false

namespace RequestedFields

/-! ## Validity -/

/-- Every spread in the selections, below their fields as well, is of a defined fragment. -/
def AllDefined (fragments : FragmentTable) (s : List Selection) : Prop :=
  ∀ name ∈ mentions s, fragments.find? name ≠ none

/-- The definitions of a valid document. -/
structure ValidDefinitions (fragments : FragmentTable) : Prop where
  /-- Every spread in a definition is of a defined fragment. -/
  defined {fragment : Fragment} (h : fragment ∈ fragments.toList) :
    AllDefined fragments fragment.selections
  /-- No definition leads back to itself through spreads outside of fields. -/
  acyclic (name : String) : ¬ Relation.TransGen (Spreads fragments .expand) name name

/-- Selection sets that are reached from one another by going down: the fields are collected, with
any options, and what is selected below one of them is next. -/
inductive Descends (fragments : FragmentTable) : List Selection → List Selection → Prop
  | refl (s : List Selection) : Descends fragments s s
  | step {s t : List Selection} {options : CollectOptions} {fields : FieldMap} {key : String}
      {f : Field} (h : Descends fragments s t)
      (hfields : (collect fragments options t).result = .ok fields)
      (hf : fields.field? key = some f) : Descends fragments s f.selections

section

variable {fragments : FragmentTable} {mode : InlineMode}

theorem AllDefined.mono {s t : List Selection} (h : mentions s ⊆ mentions t)
    (ht : AllDefined fragments t) : AllDefined fragments s :=
  fun name hname ↦ ht name (h hname)

/-! ## One walk -/

/-- **In valid definitions nothing is at fault**, if the fragments that are being expanded lead to
everything that is still to be spread. -/
theorem ValidDefinitions.fault_eq_none (hvalid : ValidDefinitions fragments) {stack : List String}
    {s : List Selection} (hs : AllDefined fragments s)
    (hstack : ∀ a ∈ stack, ∀ b ∈ openSpreads .expand s,
      Relation.TransGen (Spreads fragments .expand) a b) :
    (traverse fragments mode stack s).fault = none := by
  fun_induction traverse fragments mode stack s with
  | case1 => rfl
  | case2 mode stack f rest ih =>
    exact ih (hs.mono (List.subset_append_right _ _)) hstack
  | case3 mode stack name rest hmem =>
    -- a name on the stack leads to all that is still to be spread, and so it would lead to itself
    exact absurd (hstack name hmem name List.mem_cons_self) (hvalid.acyclic name)
  | case4 mode stack name rest hnew hdef => exact absurd hdef (hs name List.mem_cons_self)
  | case5 mode stack name rest hnew fragment hdef ihBody ihRest =>
    have hbody : (traverse fragments mode (stack ++ [name]) fragment.selections).fault = none := by
      refine ihBody (hvalid.defined (KeyedList.mem_of_find? hdef)) fun a ha b hb ↦ ?_
      have hspreads : Spreads fragments .expand name b := ⟨fragment, hdef, hb⟩
      rcases List.mem_append.1 ha with ha | ha
      · exact (hstack a ha name List.mem_cons_self).tail hspreads
      · rw [List.mem_singleton.1 ha]
        exact .single hspreads
    have hrest := ihRest (hs.mono (List.subset_append_right _ _))
      fun a ha b hb ↦ hstack a ha b (List.mem_cons_of_mem _ hb)
    rw [Traversal.record, Traversal.fault_andThen, hbody]
    exact hrest
  | case6 stack typeCondition selections rest ih =>
    exact ih (hs.mono (List.subset_append_right _ _))
      fun a ha b hb ↦ hstack a ha b (List.mem_append_right _ hb)
  | case7 stack typeCondition selections rest ihInner ihRest =>
    have hinner := ihInner (hs.mono (List.subset_append_left _ _))
      fun a ha b hb ↦ hstack a ha b (List.mem_append_left _ hb)
    have hrest := ihRest (hs.mono (List.subset_append_right _ _))
      fun a ha b hb ↦ hstack a ha b (List.mem_append_right _ hb)
    rw [Traversal.fault_andThen, hinner, hrest]
    rfl

/-- A walk that begins inside of no fragment. -/
theorem ValidDefinitions.fault_nil (hvalid : ValidDefinitions fragments) {s : List Selection}
    (hs : AllDefined fragments s) : (traverse fragments mode [] s).fault = none :=
  hvalid.fault_eq_none hs fun _ ha ↦ absurd ha List.not_mem_nil

/-! ## Many walks -/

/-- **What is selected below the fields that a walk meets is defined as well.** -/
theorem AllDefined.of_mem_fields (hvalid : ValidDefinitions fragments) {stack : List String}
    {s : List Selection} (hs : AllDefined fragments s) {f : Field}
    (hf : f ∈ (traverse fragments mode stack s).fields) : AllDefined fragments f.selections := by
  intro name hname
  rcases mentions_of_mem_fields hf hname with h | ⟨fragment, hmem, h⟩
  · exact hs name h
  · exact hvalid.defined hmem name h

/-- The fields of a map that was collected from the empty one were met on the way. -/
theorem mem_fields_of_collect {options : CollectOptions} {s : List Selection} {fields : FieldMap}
    (hfields : (collect fragments options s).result = .ok fields) {key : String} {f : Field}
    (hf : fields.field? key = some f) :
    f ∈ (traverse fragments options.inlineFragments [] s).fields := by
  obtain ⟨-, rfl⟩ := Collection.result_eq_ok_iff.1 hfields
  obtain ⟨⟨k, g⟩, hfound, rfl⟩ := Option.map_eq_some_iff.1 hf
  rw [collect, collectInto, KeyedList.find?_insertAll, KeyedList.find?_empty, Option.or_none]
    at hfound
  have hkeyed := (List.mem_filter.1 (List.mem_of_getLast? hfound)).1
  obtain ⟨g', hg', hpair⟩ := List.mem_map.1 hkeyed
  cases hpair
  exact hg'

/-- **Going down from what is defined, nothing is ever at fault.** -/
theorem AllDefined.of_descends (hvalid : ValidDefinitions fragments) {s t : List Selection}
    (hs : AllDefined fragments s) (h : Descends fragments s t) : AllDefined fragments t := by
  induction h with
  | refl => exact hs
  | step _ hfields hf ih => exact ih.of_mem_fields hvalid (mem_fields_of_collect hfields hf)

theorem exists_result_of_allDefined (hvalid : ValidDefinitions fragments) {s : List Selection}
    (hs : AllDefined fragments s) (options : CollectOptions) :
    ∃ fields, (collect fragments options s).result = .ok fields :=
  ⟨_, Collection.result_eq_ok_iff.2 ⟨hvalid.fault_nil hs, rfl⟩⟩

/-! ## Paths -/

/-- No spread is at fault, and where nodes are found everything below them is defined. -/
def FoundDefined (fragments : FragmentTable) : Except PathError (List Field) → Prop
  | .error e => ∀ fault, e ≠ .fragment fault
  | .ok nodes => ∀ f ∈ nodes, AllDefined fragments f.selections

theorem foundDefined_level (hvalid : ValidDefinitions fragments) {sets : List (List Selection)}
    (hsets : ∀ s ∈ sets, AllDefined fragments s) (walked : List String) (key : String) :
    FoundDefined fragments (PathWalk.level fragments walked sets key).outcome := by
  have hexp : ∀ s ∈ sets, (traverse fragments .expand [] s).fault = none :=
    fun s hs ↦ hvalid.fault_nil (hsets s hs)
  have hnone := traverseAll_fault_eq_none_iff.2 hexp
  rw [PathWalk.level]
  dsimp only
  rw [hnone, fields_traverseAll hnone]
  dsimp only
  split
  · intro fault h
    cases h
  · intro f hf
    obtain ⟨s, hs, hmet⟩ := List.mem_flatMap.1 (List.mem_filter.1 hf).1
    exact (hsets s hs).of_mem_fields hvalid hmet

/-- **No level of a path has a spread at fault**, by induction on the levels. -/
theorem foundDefined_follow (hvalid : ValidDefinitions fragments) {walked : List String}
    {sets : List (List Selection)} {key : String} {rest : List String}
    (hsets : ∀ s ∈ sets, AllDefined fragments s) :
    FoundDefined fragments (PathWalk.follow fragments walked sets key rest).outcome := by
  induction rest generalizing walked sets key with
  | nil => exact foundDefined_level hvalid hsets walked key
  | cons next rest ih =>
    have hlevel := foundDefined_level hvalid hsets walked key
    rw [PathWalk.follow]
    cases houtcome : (PathWalk.level fragments walked sets key).outcome with
    | error e =>
      rw [houtcome] at hlevel
      exact hlevel
    | ok nodes =>
      rw [houtcome] at hlevel
      refine ih fun s hs ↦ ?_
      obtain ⟨f, hf, rfl⟩ := List.mem_map.1 hs
      exact hlevel f hf

theorem foundDefined_ofRoot (hvalid : ValidDefinitions fragments) {root : List Selection}
    (hroot : AllDefined fragments root) (path : List String) :
    FoundDefined fragments (PathWalk.ofRoot fragments root path).outcome := by
  cases path with
  | nil =>
    intro fault h
    cases h
  | cons key rest =>
    refine foundDefined_follow hvalid fun s hs ↦ ?_
    rw [List.mem_singleton.1 hs]
    exact hroot

end

/-! ## Documents -/

/-- Whatever is asked of a text and one of its operations, no spread is at fault. -/
structure NeverAtFault (source : String) (operation : Option String) : Prop where
  /-- No path runs into a spread at fault. -/
  path (path : List String) (e : FragmentError) :
    (resolveText source operation path).outcome ≠ .error (.path (.fragment e))
  /-- Going down from a node that a path leads to, or from a definition, however far and with
  whatever options, all fields can be collected. -/
  descends {path : List String} {info : ResolverInfo} {s t : List Selection}
    (hinfo : (resolveText source operation path).outcome = .ok info)
    (hs : s ∈ info.fieldNodes.map Field.selections ∨
      s ∈ info.fragments.toList.map Fragment.selections)
    (ht : Descends info.fragments s t) (options : CollectOptions) :
    ∃ fields, (collect info.fragments options t).result = .ok fields

/-- **A valid document never has a spread at fault.**  All spreads of the operation and of the
definitions that count have to be of defined fragments, and none of these definitions may lead back
to itself outside of fields. -/
theorem neverAtFault_of_validDefinitions {source : String} {operation : Option String}
    {d : Document} {root : List Selection} (hread : Document.read source = .ok d)
    (hselect : d.selectOperation operation = .ok root)
    (hroot : AllDefined (.ofList d.fragments) root)
    (hvalid : ValidDefinitions (.ofList d.fragments)) : NeverAtFault source operation where
  path path e h := by
    have hfound := foundDefined_ofRoot hvalid hroot path
    rw [resolveText_of_read hread hselect, Document.outcome_resolvePath] at h
    cases hwalk : (PathWalk.ofRoot (.ofList d.fragments) root path).outcome with
    | error other =>
      rw [hwalk] at h hfound
      cases h
      exact hfound e rfl
    | ok nodes =>
      rw [hwalk] at h
      cases h
  descends {path info s t} hinfo hs ht options := by
    have hfound := foundDefined_ofRoot hvalid hroot path
    rw [resolveText_of_read hread hselect] at hinfo
    obtain ⟨hnodes, hfragments⟩ := Document.nodes_of_resolvePath hinfo
    rw [hnodes] at hfound
    rw [hfragments] at hs ht ⊢
    have hstart : AllDefined (.ofList d.fragments) s := by
      rcases hs with hs | hs
      · obtain ⟨f, hf, rfl⟩ := List.mem_map.1 hs
        exact hfound f hf
      · obtain ⟨fragment, hmem, rfl⟩ := List.mem_map.1 hs
        exact hvalid.defined hmem
    exact exists_result_of_allDefined hvalid (hstart.of_descends hvalid ht) options

/-- A fragment that spreads itself below a field of its own, and another one beside that field. -/
def treeDocument : Document :=
  ⟨[.operation none [.field ⟨none, "a", [.spread "F"]⟩],
    .fragment ⟨"F", "T", [.field ⟨none, "b", [.spread "F"]⟩, .spread "G"]⟩,
    .fragment ⟨"G", "T", [.field (.leaf "c")]⟩]⟩

theorem spreads_treeDocument {a b : String}
    (h : Spreads (.ofList treeDocument.fragments) .expand a b) : a = "F" ∧ b = "G" := by
  obtain ⟨fragment, hdef, hb⟩ := h
  have hname : fragment.name = a := KeyedList.key_of_find? hdef
  have htable : (KeyedList.ofList treeDocument.fragments : FragmentTable).toList
      = [⟨"F", "T", [.field ⟨none, "b", [.spread "F"]⟩, .spread "G"]⟩,
        ⟨"G", "T", [.field (.leaf "c")]⟩] := rfl
  have hmem := KeyedList.mem_of_find? hdef
  rw [htable, List.mem_cons, List.mem_singleton] at hmem
  rcases hmem with rfl | rfl
  · exact ⟨hname.symm, List.mem_singleton.1 hb⟩
  · cases hb

theorem validDefinitions_treeDocument :
    ValidDefinitions (.ofList treeDocument.fragments) where
  defined {fragment} h := by
    have hall : ∀ fragment ∈ (KeyedList.ofList treeDocument.fragments : FragmentTable).toList,
        ∀ name ∈ mentions fragment.selections,
          (KeyedList.ofList treeDocument.fragments : FragmentTable).find? name ≠ none := by
      decide
    exact hall fragment h
  acyclic name h := by
    obtain ⟨b, hfirst, -⟩ := Relation.TransGen.head'_iff.1 h
    obtain ⟨c, -, hlast⟩ := Relation.TransGen.tail'_iff.1 h
    have heq := (spreads_treeDocument hfirst).1.symm.trans (spreads_treeDocument hlast).2
    exact absurd heq (by decide)

/-- The tree can be gone down for ever. -/
theorem neverAtFault_of_validDefinitions_tree :
    AllDefined (.ofList treeDocument.fragments) [.field ⟨none, "a", [.spread "F"]⟩] ∧
      ValidDefinitions (.ofList treeDocument.fragments) ∧
      NeverAtFault "{a{...F}} fragment F on T{b{...F} ...G} fragment G on T{c}" none := by
  have hread : Document.read "{a{...F}} fragment F on T{b{...F} ...G} fragment G on T{c}"
      = .ok treeDocument := by
    decide +kernel
  have hroot : AllDefined (.ofList treeDocument.fragments)
      [.field ⟨none, "a", [.spread "F"]⟩] := by
    unfold AllDefined
    decide
  have hvalid := validDefinitions_treeDocument
  exact ⟨hroot, hvalid, neverAtFault_of_validDefinitions hread rfl hroot hvalid⟩

end RequestedFields
