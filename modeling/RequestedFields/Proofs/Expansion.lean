import RequestedFields.Proofs.CycleGuard

/-!
# Expansions

The **expansion** of a selection set is the list of the fields in it once every spread is replaced
by the expansion of its fragment, in order and with every repetition.  A selection set has one
exactly if all of its spreads lead to defined fragments and none leads back to itself; that is not
assumed here but comes out of there being a derivation of `Expands` at all.

* `Expands` — the rules, one for each kind of selection.
* `expands_iff_traverse` — the expansion is what the guarded walk meets when it reaches the end.
* `traverseAll_fault_eq_none_iff`, `fields_traverseAll`, `exists_first_fault` — several selection
  sets walked through one after the other: all of them expand, or the first that does not is at
  fault.
-/

set_option autoImplicit false

namespace RequestedFields

/-- The fields of a selection set in depth-first order, spreads and, as `mode` says, inline
fragments replaced by what they stand for. -/
inductive Expands (fragments : FragmentTable) :
    InlineMode → List Selection → List Field → Prop
  | nil (mode : InlineMode) : Expands fragments mode [] []
  | field {mode : InlineMode} {rest : List Selection} {met : List Field} (f : Field)
      (h : Expands fragments mode rest met) :
      Expands fragments mode (.field f :: rest) (f :: met)
  | spread {mode : InlineMode} {name : String} {fragment : Fragment} {rest : List Selection}
      {inner met : List Field} (hdef : fragments.find? name = some fragment)
      (hbody : Expands fragments mode fragment.selections inner)
      (h : Expands fragments mode rest met) :
      Expands fragments mode (.spread name :: rest) (inner ++ met)
  | skip {rest : List Selection} {met : List Field} (typeCondition : Option String)
      (selections : List Selection) (h : Expands fragments .skip rest met) :
      Expands fragments .skip (.inline typeCondition selections :: rest) met
  | expand {selections rest : List Selection} {inner met : List Field}
      (typeCondition : Option String) (hinner : Expands fragments .expand selections inner)
      (h : Expands fragments .expand rest met) :
      Expands fragments .expand (.inline typeCondition selections :: rest) (inner ++ met)

section

variable {fragments : FragmentTable} {mode : InlineMode}

/-- An expansion can be walked through. -/
theorem Expands.reaches {s : List Selection} {met : List Field}
    (h : Expands fragments mode s met) : Reaches fragments mode s met [] := by
  induction h with
  | nil => exact .refl []
  | field f _ ih => exact .step (a := .field f) rfl ih
  | spread hdef _ _ ihBody ih =>
    exact .enter (step_spread_of_some hdef) ((ihBody.append _).trans ih)
  | skip typeCondition selections _ ih =>
    have hstep : (Selection.inline typeCondition selections).step fragments .skip
        = .ok ([], []) := rfl
    exact .enter hstep ih
  | expand typeCondition _ _ ihInner ih =>
    exact .enter (a := .inline typeCondition _) rfl ((ihInner.append _).trans ih)

/-- **A walk that reaches the end has met the expansion**, whatever fragments it is inside of. -/
theorem expands_of_traverse {stack : List String} {s : List Selection}
    (h : (traverse fragments mode stack s).fault = none) :
    Expands fragments mode s (traverse fragments mode stack s).fields := by
  fun_induction traverse fragments mode stack s with
  | case1 mode => exact .nil mode
  | case2 mode stack f rest ih => exact .field f (ih h)
  | case3 mode stack name rest hmem => cases h
  | case4 mode stack name rest hnew hdef => cases h
  | case5 mode stack name rest hnew fragment hdef ihBody ihRest =>
    have hnone := h
    rw [Traversal.record, Traversal.fault_andThen_eq_none_iff] at hnone
    have hbody := ihBody hnone.1
    have hrest := ihRest hnone.2
    simpa [Traversal.fields_record, Step.field?, Traversal.fields_andThen_of_none hnone.1]
      using Expands.spread hdef hbody hrest
  | case6 stack typeCondition selections rest ih => exact .skip typeCondition selections (ih h)
  | case7 stack typeCondition selections rest ihInner ihRest =>
    rw [Traversal.fault_andThen_eq_none_iff] at h
    rw [Traversal.fields_andThen_of_none h.1]
    exact .expand typeCondition (ihInner h.1) (ihRest h.2)

/-- **Expansions are what the guarded walk meets** when it reaches the end. -/
theorem expands_iff_traverse {s : List Selection} {met : List Field} :
    Expands fragments mode s met ↔
      (traverse fragments mode [] s).fault = none ∧
        (traverse fragments mode [] s).fields = met := by
  constructor
  · intro h
    exact (traverse_finished_iff fragments mode s met).2 (exists_finished_of_reaches h.reaches)
  · rintro ⟨hf, rfl⟩
    exact expands_of_traverse hf

theorem exists_expands_iff {s : List Selection} :
    (∃ met, Expands fragments mode s met) ↔ (traverse fragments mode [] s).fault = none := by
  constructor
  · rintro ⟨met, h⟩
    exact (expands_iff_traverse.1 h).1
  · intro hf
    exact ⟨_, expands_of_traverse hf⟩

/-- A selection set has one expansion. -/
theorem Expands.unique {s : List Selection} {met met' : List Field}
    (h : Expands fragments mode s met) (h' : Expands fragments mode s met') : met = met' := by
  rw [← (expands_iff_traverse.1 h).2, ← (expands_iff_traverse.1 h').2]

/-! ## Several selection sets -/

/-- The walk through several selection sets reaches the end exactly if all of them expand. -/
theorem traverseAll_fault_eq_none_iff {sets : List (List Selection)} :
    (traverseAll fragments mode sets).fault = none ↔
      ∀ s ∈ sets, (traverse fragments mode [] s).fault = none := by
  induction sets with
  | nil => simp [traverseAll, Traversal.done]
  | cons s sets ih => simp [traverseAll, Traversal.fault_andThen, ih]

/-- Then it has met the one expansion after the other. -/
theorem fields_traverseAll {sets : List (List Selection)}
    (h : (traverseAll fragments mode sets).fault = none) :
    (traverseAll fragments mode sets).fields
      = sets.flatMap fun s ↦ (traverse fragments mode [] s).fields := by
  induction sets with
  | nil => rfl
  | cons s sets ih =>
    rw [traverseAll, Traversal.fault_andThen_eq_none_iff] at h
    rw [traverseAll, Traversal.fields_andThen_of_none h.1, ih h.2, List.flatMap_cons]

/-- Otherwise the first of them that does not expand is at fault. -/
theorem exists_first_fault {sets : List (List Selection)} {e : FragmentError}
    (h : (traverseAll fragments mode sets).fault = some e) :
    ∃ before s behind, sets = before ++ s :: behind ∧
      (∀ t ∈ before, (traverse fragments mode [] t).fault = none) ∧
      (traverse fragments mode [] s).fault = some e := by
  induction sets with
  | nil => cases h
  | cons s sets ih =>
    rw [traverseAll, Traversal.fault_andThen_eq_some_iff] at h
    rcases h with hs | ⟨hs, hsets⟩
    · exact ⟨[], s, sets, rfl, by simp, hs⟩
    · obtain ⟨before, t, behind, rfl, hbefore, ht⟩ := ih hsets
      refine ⟨s :: before, t, behind, rfl, fun u hu ↦ ?_, ht⟩
      rcases List.mem_cons.1 hu with rfl | hu
      · exact hs
      · exact hbefore u hu

/-- **Several selection sets are stopped by the first that does not expand.** -/
theorem fault_traverseAll_eq_some_iff {sets : List (List Selection)} {e : FragmentError} :
    (traverseAll fragments mode sets).fault = some e ↔
      ∃ before s behind, sets = before ++ s :: behind ∧
        (∀ t ∈ before, (traverse fragments mode [] t).fault = none) ∧
        (traverse fragments mode [] s).fault = some e := by
  refine ⟨exists_first_fault, ?_⟩
  rintro ⟨before, s, behind, rfl, hbefore, hs⟩
  rw [traverseAll_append, Traversal.fault_andThen_eq_some_iff, traverseAll,
    Traversal.fault_andThen_eq_some_iff]
  exact Or.inr ⟨traverseAll_fault_eq_none_iff.2 hbefore, Or.inl hs⟩

end

end RequestedFields
