import Mathlib.Data.List.Chain
import RequestedFields.Proofs.Expansion
import RequestedFields.Proofs.SpreadNames

/-!
# Places in an expansion

Writing every spread out in its place turns a selection set into a tree, infinite if a fragment
leads back to itself.  A **place** in that tree is a list of indices: which selection of the set,
then which selection of what stands for that one, and so on.  Selections inside of inline fragments
have places only if inline fragments are expanded, and nothing below a field has one.

The walk visits places in **depth-first order**, which is the lexicographic order of the indices: a
spread comes before everything in its body, and all of its body before what is written behind it.
The places that *enclose* another are its prefixes.

* `StandsAt` — what stands at a place, and the fragments in whose bodies the place is.
* `StandsAt.unique` — a place has one selection.
* `StandsAt.spreadChain` — the fragments around a spread lead from the selection set to it, each
  spread in the definition of the one before.
* `StandsAt.fault_eq_none`, `StandsAt.expands` — a walk that is not stopped comes to every place, so
  in a selection set with an expansion everything has one.
* `StandsAt.not_expands_of_mem` — the spread of a fragment inside of its own body has none.
-/

set_option autoImplicit false

namespace RequestedFields

/-- The selection `a` stands at a place in the expansion of the selections, inside of the bodies of
the fragments `enclosing`, outermost first. -/
inductive StandsAt (fragments : FragmentTable) (mode : InlineMode) :
    List Selection → List Nat → List String → Selection → Prop
  /-- It is one of the selections. -/
  | here {s : List Selection} {i : Nat} {a : Selection} (h : s[i]? = some a) :
      StandsAt fragments mode s [i] [] a
  /-- It is in the body of a fragment that one of the selections spreads. -/
  | body {s : List Selection} {i : Nat} {name : String} {fragment : Fragment} {place : List Nat}
      {enclosing : List String} {a : Selection} (h : s[i]? = some (.spread name))
      (hdef : fragments.find? name = some fragment)
      (hbelow : StandsAt fragments mode fragment.selections place enclosing a) :
      StandsAt fragments mode s (i :: place) (name :: enclosing) a
  /-- It is in one of the selections, an inline fragment. -/
  | inside {s inner : List Selection} {i : Nat} {typeCondition : Option String} {place : List Nat}
      {enclosing : List String} {a : Selection} (h : s[i]? = some (.inline typeCondition inner))
      (hmode : mode = .expand) (hbelow : StandsAt fragments mode inner place enclosing a) :
      StandsAt fragments mode s (i :: place) enclosing a

/-- The first of the names is spread in the selections, and each of the others in the definition of
the one before it; all outside of fields, and in inline fragments only if they are expanded. -/
structure SpreadChain (fragments : FragmentTable) (mode : InlineMode) (s : List Selection)
    (names : List String) : Prop where
  /-- The first name is spread in the selections. -/
  head {first : String} (h : names.head? = some first) : first ∈ openSpreads mode s
  /-- Every other name is spread in the definition of the one before it. -/
  links : names.IsChain (Spreads fragments mode)

section

variable {fragments : FragmentTable} {mode : InlineMode} {s : List Selection} {place : List Nat}
  {enclosing : List String} {a : Selection}

/-! ## Taking a place apart -/

theorem StandsAt.exists_eq_cons (h : StandsAt fragments mode s place enclosing a) :
    ∃ i below, place = i :: below := by
  cases h with
  | here | body | inside => exact ⟨_, _, rfl⟩

theorem StandsAt.ne_nil (h : StandsAt fragments mode s place enclosing a) : place ≠ [] := by
  obtain ⟨i, below, rfl⟩ := h.exists_eq_cons
  exact List.cons_ne_nil i below

/-- No place comes before the first selection. -/
theorem StandsAt.not_lt_zero (h : StandsAt fragments mode s place enclosing a) :
    ¬ place < [0] := by
  obtain ⟨i, below, rfl⟩ := h.exists_eq_cons
  simp [List.cons_lt_cons_iff]

@[simp] theorem not_standsAt_nil : ¬ StandsAt fragments mode [] place enclosing a := by
  intro h
  cases h with
  | here hget | body hget | inside hget => cases hget

/-- All places of a selection set come before the index behind its last selection. -/
theorem StandsAt.lt_length (h : StandsAt fragments mode s place enclosing a) :
    place < [s.length] := by
  cases h with
  | here hget | body hget | inside hget =>
    exact List.cons_lt_cons_iff.2 (Or.inl (List.getElem?_eq_some_iff.1 hget).1)

/-- The places of a selection by itself begin with it. -/
theorem StandsAt.exists_eq_zero_cons {b : Selection}
    (h : StandsAt fragments mode [b] place enclosing a) : ∃ below, place = 0 :: below := by
  have hlt := h.lt_length
  obtain ⟨i, below, rfl⟩ := h.exists_eq_cons
  obtain rfl : i = 0 := by simpa [List.cons_lt_cons_iff] using hlt
  exact ⟨below, rfl⟩

/-- What stands at a place depends on the selection that its first index leads to. -/
theorem standsAt_congr {t : List Selection} {i j : Nat} (h : s[i]? = t[j]?) :
    StandsAt fragments mode s (i :: place) enclosing a ↔
      StandsAt fragments mode t (j :: place) enclosing a := by
  have hmove {s t : List Selection} {i j : Nat} (h : s[i]? = t[j]?)
      (ha : StandsAt fragments mode s (i :: place) enclosing a) :
      StandsAt fragments mode t (j :: place) enclosing a := by
    cases ha with
    | here hget => exact .here (h ▸ hget)
    | body hget hdef hbelow => exact .body (h ▸ hget) hdef hbelow
    | inside hget hmode hbelow => exact .inside (h ▸ hget) hmode hbelow
  exact ⟨hmove h, hmove h.symm⟩

@[simp] theorem standsAt_cons_succ {b : Selection} {i : Nat} :
    StandsAt fragments mode (b :: s) ((i + 1) :: place) enclosing a ↔
      StandsAt fragments mode s (i :: place) enclosing a :=
  standsAt_congr List.getElem?_cons_succ

theorem standsAt_cons_zero {b : Selection} :
    StandsAt fragments mode (b :: s) (0 :: place) enclosing a ↔
      StandsAt fragments mode [b] (0 :: place) enclosing a :=
  standsAt_congr rfl

/-- Nothing has a place below a field. -/
theorem StandsAt.of_field {i : Nat} {f : Field} (hget : s[i]? = some (.field f))
    (h : StandsAt fragments mode s (i :: place) enclosing a) :
    place = [] ∧ enclosing = [] ∧ a = .field f := by
  cases h with
  | here hget' => exact ⟨rfl, rfl, Option.some.inj (hget' ▸ hget)⟩
  | body hget' | inside hget' =>
    rw [hget] at hget'
    cases hget'

/-- At a spread and below it. -/
theorem StandsAt.of_spread {i : Nat} {name : String} (hget : s[i]? = some (.spread name))
    (h : StandsAt fragments mode s (i :: place) enclosing a) :
    place = [] ∧ enclosing = [] ∧ a = .spread name ∨
      ∃ fragment inner, fragments.find? name = some fragment ∧ enclosing = name :: inner ∧
        StandsAt fragments mode fragment.selections place inner a := by
  cases h with
  | here hget' => exact Or.inl ⟨rfl, rfl, Option.some.inj (hget' ▸ hget)⟩
  | body hget' hdef hbelow =>
    rw [hget] at hget'
    cases hget'
    exact Or.inr ⟨_, _, hdef, rfl, hbelow⟩
  | inside hget' =>
    rw [hget] at hget'
    cases hget'

/-- At an inline fragment and inside of it. -/
theorem StandsAt.of_inline {i : Nat} {typeCondition : Option String} {inner : List Selection}
    (hget : s[i]? = some (.inline typeCondition inner))
    (h : StandsAt fragments mode s (i :: place) enclosing a) :
    place = [] ∧ enclosing = [] ∧ a = .inline typeCondition inner ∨
      mode = .expand ∧ StandsAt fragments mode inner place enclosing a := by
  cases h with
  | here hget' => exact Or.inl ⟨rfl, rfl, Option.some.inj (hget' ▸ hget)⟩
  | body hget' =>
    rw [hget] at hget'
    cases hget'
  | inside hget' hmode hbelow =>
    rw [hget] at hget'
    cases hget'
    exact Or.inr ⟨hmode, hbelow⟩

/-- **Below a selection stands what a step of the walk puts in its place.** -/
theorem exists_standsAt_below_iff {b : Selection} {met : List Field} {inner : List Selection}
    (hstep : a.step fragments mode = .ok (met, inner)) (hne : place ≠ []) :
    (∃ enclosing, StandsAt fragments mode (a :: s) (0 :: place) enclosing b) ↔
      ∃ enclosing, StandsAt fragments mode inner place enclosing b := by
  have hget : (a :: s)[0]? = some a := rfl
  constructor
  · rintro ⟨enclosing, h⟩
    cases a with
    | field f => exact absurd (h.of_field hget).1 hne
    | spread name =>
      rcases h.of_spread hget with ⟨hnil, -, -⟩ | ⟨fragment, below, hdef, -, hbelow⟩
      · exact absurd hnil hne
      · rw [step_spread_of_some hdef] at hstep
        cases hstep
        exact ⟨below, hbelow⟩
    | inline typeCondition selections =>
      rcases h.of_inline hget with ⟨hnil, -, -⟩ | ⟨rfl, hbelow⟩
      · exact absurd hnil hne
      · cases hstep
        exact ⟨enclosing, hbelow⟩
  · rintro ⟨enclosing, h⟩
    cases a with
    | field f =>
      cases hstep
      exact absurd h not_standsAt_nil
    | spread name =>
      cases hdef : fragments.find? name with
      | none =>
        rw [step_spread_of_none hdef] at hstep
        cases hstep
      | some fragment =>
        rw [step_spread_of_some hdef] at hstep
        cases hstep
        exact ⟨name :: enclosing, .body hget hdef h⟩
    | inline typeCondition selections =>
      cases mode with
      | skip =>
        cases hstep
        exact absurd h not_standsAt_nil
      | expand =>
        cases hstep
        exact ⟨enclosing, .inside hget rfl h⟩

/-- **A place has one selection**, inside of the same fragments. -/
theorem StandsAt.unique {enclosing' : List String} {b : Selection}
    (h : StandsAt fragments mode s place enclosing a)
    (h' : StandsAt fragments mode s place enclosing' b) : enclosing = enclosing' ∧ a = b := by
  induction h generalizing enclosing' with
  | here hget =>
    cases h' with
    | here hget' => exact ⟨rfl, Option.some.inj (hget ▸ hget')⟩
    | body _ _ hbelow | inside _ _ hbelow => exact absurd rfl hbelow.ne_nil
  | body hget hdef hbelow ih =>
    rcases h'.of_spread hget with ⟨hnil, -, -⟩ | ⟨fragment', inner, hdef', rfl, hbelow'⟩
    · exact absurd hnil hbelow.ne_nil
    · rw [hdef] at hdef'
      cases hdef'
      obtain ⟨rfl, rfl⟩ := ih hbelow'
      exact ⟨rfl, rfl⟩
  | inside hget hmode hbelow ih =>
    rcases h'.of_inline hget with ⟨hnil, -, -⟩ | ⟨-, hbelow'⟩
    · exact absurd hnil hbelow.ne_nil
    · exact ih hbelow'

/-- What stands further along stands below the selection on the way. -/
theorem StandsAt.of_append {b : Selection} {below : List Nat} {enclosing' : List String}
    (h : StandsAt fragments mode s place enclosing b)
    (h' : StandsAt fragments mode s (place ++ below) enclosing' a) :
    ∃ inner, enclosing' = enclosing ++ inner ∧
      StandsAt fragments mode [b] (0 :: below) inner a := by
  induction h generalizing enclosing' with
  | here hget => exact ⟨enclosing', rfl, (standsAt_congr hget).1 h'⟩
  | body hget hdef hbelow ih =>
    rcases h'.of_spread hget with ⟨hnil, -, -⟩ | ⟨fragment', inner, hdef', rfl, hbelow'⟩
    · exact absurd (List.append_eq_nil_iff.1 hnil).1 hbelow.ne_nil
    · rw [hdef] at hdef'
      cases hdef'
      obtain ⟨inner, rfl, hinner⟩ := ih hbelow'
      exact ⟨inner, rfl, hinner⟩
  | inside hget _ hbelow ih =>
    rcases h'.of_inline hget with ⟨hnil, -, -⟩ | ⟨-, hbelow'⟩
    · exact absurd (List.append_eq_nil_iff.1 hnil).1 hbelow.ne_nil
    · exact ih hbelow'

/-! ## The fragments around a place -/

theorem mem_openSpreads_of_mem {name : String} (ha : a ∈ s) (h : name ∈ a.openSpreads mode) :
    name ∈ openSpreads mode s := by
  induction s with
  | nil => cases ha
  | cons b s ih =>
    rw [openSpreads, List.mem_append]
    rcases List.mem_cons.1 ha with rfl | ha
    · exact Or.inl h
    · exact Or.inr (ih ha)

/-- Every fragment around a place is defined. -/
theorem StandsAt.defined (h : StandsAt fragments mode s place enclosing a) :
    ∀ outer ∈ enclosing, fragments.find? outer ≠ none := by
  induction h with
  | here => exact fun _ h ↦ absurd h List.not_mem_nil
  | body _ hdef _ ih =>
    intro outer houter
    rcases List.mem_cons.1 houter with rfl | houter
    · simp [hdef]
    · exact ih outer houter
  | inside _ _ _ ih => exact ih

/-- **The fragments around a spread lead to it**, each spread in the definition of the one
before. -/
theorem StandsAt.spreadChain (h : StandsAt fragments mode s place enclosing a) {name : String}
    (hname : name ∈ a.openSpreads mode) : SpreadChain fragments mode s (enclosing ++ [name]) := by
  induction h with
  | here hget =>
    refine ⟨fun h ↦ ?_, .singleton _⟩
    cases h
    exact mem_openSpreads_of_mem (List.mem_of_getElem? hget) hname
  | @body _ _ outer fragment _ _ _ hget hdef _ ih =>
    obtain ⟨hhead, hlinks⟩ := ih hname
    refine ⟨fun h ↦ ?_,
      List.isChain_cons.2 ⟨fun next hnext ↦ ⟨fragment, hdef, hhead hnext⟩, hlinks⟩⟩
    cases h
    exact mem_openSpreads_of_mem (List.mem_of_getElem? hget) (List.mem_singleton.2 rfl)
  | inside hget hmode _ ih =>
    obtain ⟨hhead, hlinks⟩ := ih hname
    subst hmode
    exact ⟨fun h ↦ mem_openSpreads_of_mem (List.mem_of_getElem? hget) (hhead h), hlinks⟩

/-- What stands inside of a fragment has a place in its definition. -/
theorem StandsAt.exists_below {outer inner : List String} {name : String}
    (h : StandsAt fragments mode s place (outer ++ name :: inner) a) :
    ∃ fragment below, fragments.find? name = some fragment ∧
      StandsAt fragments mode fragment.selections below inner a := by
  generalize henclosing : outer ++ name :: inner = enclosing at h
  induction h generalizing outer with
  | here => exact absurd henclosing (List.append_ne_nil_of_right_ne_nil outer (by simp))
  | body _ hdef hbelow ih =>
    cases outer with
    | nil =>
      cases henclosing
      exact ⟨_, _, hdef, hbelow⟩
    | cons first outer => exact ih (List.cons.inj henclosing).2
  | inside _ _ _ ih => exact ih henclosing

/-! ## Walks that are not stopped -/

theorem fault_singleton_of_mem {stack : List String} (ha : a ∈ s)
    (h : (traverse fragments mode stack s).fault = none) :
    (traverse fragments mode stack [a]).fault = none := by
  obtain ⟨front, behind, rfl⟩ := List.append_of_mem ha
  rw [traverse_append, Traversal.fault_andThen_eq_none_iff, traverse_cons,
    Traversal.fault_andThen_eq_none_iff] at h
  exact h.2.1

/-- **A walk that is not stopped comes to every place**, inside of the fragments around it, and is
not stopped there either. -/
theorem StandsAt.fault_eq_none (h : StandsAt fragments mode s place enclosing a)
    {stack : List String} (hs : (traverse fragments mode stack s).fault = none) :
    (traverse fragments mode (stack ++ enclosing) [a]).fault = none := by
  induction h generalizing stack with
  | here hget =>
    rw [List.append_nil]
    exact fault_singleton_of_mem (List.mem_of_getElem? hget) hs
  | @body _ _ outer _ _ _ _ hget hdef _ ih =>
    have hspread := fault_singleton_of_mem (List.mem_of_getElem? hget) hs
    by_cases hmem : outer ∈ stack
    · rw [traverse_spread_of_mem _ _ _ hmem] at hspread
      cases hspread
    · rw [traverse_spread_of_some _ _ _ hmem hdef, Traversal.record,
        Traversal.fault_andThen_eq_none_iff] at hspread
      have hbelow := ih hspread.1
      rwa [List.append_assoc, List.singleton_append] at hbelow
  | inside hget hmode _ ih =>
    subst hmode
    have hinline := fault_singleton_of_mem (List.mem_of_getElem? hget) hs
    rw [traverse_inline_expand, Traversal.fault_andThen_eq_none_iff] at hinline
    exact ih hinline.1

/-- **In a selection set with an expansion every selection has one**, wherever it stands. -/
theorem StandsAt.expands (h : StandsAt fragments mode s place enclosing a)
    (hs : ∃ met, Expands fragments mode s met) : ∃ met, Expands fragments mode [a] met :=
  ⟨_, expands_of_traverse (h.fault_eq_none (exists_expands_iff.1 hs))⟩

/-- **The spread of a fragment inside of its own body has no expansion.** -/
theorem StandsAt.not_expands_of_mem {name : String}
    (h : StandsAt fragments mode s place enclosing (.spread name)) (hmem : name ∈ enclosing) :
    ¬ ∃ met, Expands fragments mode [.spread name] met := by
  intro hexp
  obtain ⟨outer, inner, rfl⟩ := List.append_of_mem hmem
  obtain ⟨fragment, below, hdef, hbelow⟩ := h.exists_below
  -- the walk through the spread would come to it again inside of its own body
  have hagain :
      StandsAt fragments mode [.spread name] (0 :: below) (name :: inner) (.spread name) :=
    .body rfl hdef hbelow
  have hfault := hagain.fault_eq_none (exists_expands_iff.1 hexp)
  rw [traverse_spread_of_mem _ _ _ (by simp)] at hfault
  cases hfault

end

end RequestedFields
