import RequestedFields.Traversal

/-!
# The names that are spread

A spread names a fragment, whose definition spreads others in turn, and so a selection set leads to
names far from it.  Two things have to be kept apart here.  What a walk through a selection set
comes to is spread **outside of fields**, and in inline fragments only if they are expanded
(`openSpreads`).  What a selection set **mentions** is spread anywhere in it, below its fields as
well (`mentions`); a walk through it does not come to all of that, but one that goes down into its
fields does.

* `openSpreads`, `mentions` — the names, in the order of the spreads.
* `Spreads`, `LeadsTo` — one definition spreads another; a selection set leads to a name.
* `traverse_congr` — **a walk depends on the definitions it leads to** and on no others.
* `mentions_of_mem_fields` — a walk meets no field that mentions anything new: it is mentioned where
  the walk began or in some definition.
-/

set_option autoImplicit false

namespace RequestedFields

/-! ## Names -/

mutual

/-- The names that a selection spreads outside of fields. -/
def Selection.openSpreads (mode : InlineMode) : Selection → List String
  | .field _ => []
  | .spread name => [name]
  | .inline _ selections =>
    match mode with
    | .skip => []
    | .expand => openSpreads mode selections

/-- The names that a selection set spreads outside of fields. -/
def openSpreads (mode : InlineMode) : List Selection → List String
  | [] => []
  | a :: rest => a.openSpreads mode ++ openSpreads mode rest

end

mutual

/-- The names that are spread somewhere below a field. -/
def Field.mentions : Field → List String
  | ⟨_, _, selections⟩ => mentions selections

/-- The names that are spread somewhere in a selection. -/
def Selection.mentions : Selection → List String
  | .field f => f.mentions
  | .spread name => [name]
  | .inline _ selections => mentions selections

/-- The names that are spread somewhere in a selection set. -/
def mentions : List Selection → List String
  | [] => []
  | a :: rest => a.mentions ++ mentions rest

end

theorem Field.mentions_eq (f : Field) : f.mentions = RequestedFields.mentions f.selections := by
  cases f
  rfl

/-! ## Definitions that spread each other -/

/-- The definition of the first name spreads the second, outside of fields. -/
def Spreads (fragments : FragmentTable) (mode : InlineMode) (a b : String) : Prop :=
  ∃ fragment, fragments.find? a = some fragment ∧ b ∈ openSpreads mode fragment.selections

/-- The names that a selection set spreads, those that their definitions spread, and so on. -/
inductive LeadsTo (fragments : FragmentTable) (mode : InlineMode) (s : List Selection) :
    String → Prop
  | here {name : String} (h : name ∈ openSpreads mode s) : LeadsTo fragments mode s name
  | through {a b : String} (h : LeadsTo fragments mode s a)
      (hspreads : Spreads fragments mode a b) : LeadsTo fragments mode s b

section

variable {fragments fragments' : FragmentTable} {mode : InlineMode}

theorem LeadsTo.mono {s t : List Selection} (h : openSpreads mode s ⊆ openSpreads mode t)
    {name : String} (hs : LeadsTo fragments mode s name) : LeadsTo fragments mode t name := by
  induction hs with
  | here hname => exact .here (h hname)
  | through _ hspreads ih => exact .through ih hspreads

/-- What the definition of a spread name leads to. -/
theorem LeadsTo.body {s : List Selection} {a name : String} {fragment : Fragment}
    (ha : a ∈ openSpreads mode s) (hdef : fragments.find? a = some fragment)
    (h : LeadsTo fragments mode fragment.selections name) : LeadsTo fragments mode s name := by
  induction h with
  | here hname => exact .through (.here ha) ⟨fragment, hdef, hname⟩
  | through _ hspreads ih => exact .through ih hspreads

/-- **A walk depends on the definitions it leads to** and on no others. -/
theorem traverse_congr {stack : List String} {s : List Selection}
    (h : ∀ name, LeadsTo fragments mode s name → fragments.find? name = fragments'.find? name) :
    traverse fragments mode stack s = traverse fragments' mode stack s := by
  fun_induction traverse fragments mode stack s with
  | case1 => rw [traverse_nil]
  | case2 mode stack f rest ih =>
    rw [traverse_field, ih fun name hname ↦ h name (hname.mono (List.subset_append_right _ _))]
  | case3 mode stack name rest hmem => rw [traverse_spread_of_mem _ _ _ hmem]
  | case4 mode stack name rest hnew hdef =>
    rw [h name (.here List.mem_cons_self)] at hdef
    rw [traverse_spread_of_none _ _ _ hnew hdef]
  | case5 mode stack name rest hnew fragment hdef ihBody ihRest =>
    -- what the definition leads to, the spread of its name leads to
    have hspread : name ∈ openSpreads mode (.spread name :: rest) := List.mem_cons_self
    have hdef' : fragments'.find? name = some fragment := by
      rw [← h name (.here hspread), hdef]
    rw [traverse_spread_of_some _ _ _ hnew hdef',
      ihBody fun other hother ↦ h other (hother.body hspread hdef),
      ihRest fun other hother ↦ h other (hother.mono (List.subset_append_right _ _))]
  | case6 stack typeCondition selections rest ih =>
    rw [traverse_inline_skip,
      ih fun name hname ↦ h name (hname.mono (List.subset_append_right _ _))]
  | case7 stack typeCondition selections rest ihInner ihRest =>
    rw [traverse_inline_expand,
      ihInner fun name hname ↦ h name (hname.mono (List.subset_append_left _ _)),
      ihRest fun name hname ↦ h name (hname.mono (List.subset_append_right _ _))]

theorem Traversal.mem_fields_andThen {t u : Traversal} {f : Field}
    (h : f ∈ (t.andThen u).fields) : f ∈ t.fields ∨ f ∈ u.fields := by
  rw [fields_andThen] at h
  split at h
  · exact List.mem_append.1 h
  · exact Or.inl h

/-- **A walk meets no field that mentions anything new.** -/
theorem mentions_of_mem_fields {stack : List String} {s : List Selection} {f : Field}
    (hf : f ∈ (traverse fragments mode stack s).fields) {name : String}
    (hname : name ∈ mentions f.selections) :
    name ∈ mentions s ∨ ∃ fragment ∈ fragments.toList, name ∈ mentions fragment.selections := by
  fun_induction traverse fragments mode stack s with
  | case1 => cases hf
  | case2 mode stack g rest ih =>
    rcases List.mem_cons.1 hf with rfl | hf
    · rw [← Field.mentions_eq] at hname
      exact Or.inl (List.mem_append_left _ hname)
    · exact (ih hf).imp_left (List.mem_append_right _)
  | case3 => cases hf
  | case4 => cases hf
  | case5 mode stack spread rest hnew fragment hdef ihBody ihRest =>
    change f ∈ (Traversal.andThen _ _).fields at hf
    rcases Traversal.mem_fields_andThen hf with hf | hf
    · have hmem : fragment ∈ fragments.toList := KeyedList.mem_of_find? hdef
      exact Or.inr ((ihBody hf).elim (fun h ↦ ⟨fragment, hmem, h⟩) id)
    · exact (ihRest hf).imp_left (List.mem_append_right _)
  | case6 stack typeCondition selections rest ih =>
    exact (ih hf).imp_left (List.mem_append_right _)
  | case7 stack typeCondition selections rest ihInner ihRest =>
    rcases Traversal.mem_fields_andThen hf with hf | hf
    · exact (ihInner hf).imp_left (List.mem_append_left _)
    · exact (ihRest hf).imp_left (List.mem_append_right _)

end

end RequestedFields
