import RequestedFields.Proofs.CycleGuard

/-!
# Writing a fragment out

A spread stands for the selections of its fragment, so it should make no difference whether a query
spreads a fragment or has its selections written out in that place.  This file proves that: **one
spread, outside of fields, in the node that is collected or in the definition of any fragment, may
be replaced by the selections of its definition, and what is collected stays the same.**

The guard does see a difference.  Inside of selections that were written out one name less is on the
stack, so a cycle may be noticed later, and named otherwise.  This is why the proof is not about the
guarded walk but about the plain one, which has no stack, and why two cycles count as the same
outcome whatever names they list.

## What is here

* `InlinesOnce` — one spread in a selection set replaced by what it stands for.
* `SpreadInlined` — the same in a node or in a definition; the node may be the definition itself.
* `SameOutcome` — the same map, the same undefined name, or two cycles.
* `Inlined` — any number of spreads replaced, also inside of what was put in their place.  It is
  what `InlinesOnce` grows into: a definition with one spread written out is visited many times.
* `plainWalk_inlined`, `plainWalk_of_inlined` — the plain walk through either side ends as the walk
  through the other.
* `spreadInlined_sameOutcome` — the result.
-/

set_option autoImplicit false

namespace RequestedFields

/-! ## Outcomes -/

/-- Two collections gave the same map, or stopped at the same undefined name, or were both stopped
by a cycle. -/
def SameOutcome (c d : Collection) : Prop :=
  match c.result, d.result with
  | .ok fields, .ok fields' => fields = fields'
  | .error (.unknownFragment name), .error (.unknownFragment name') => name = name'
  | .error (.fragmentCycle _), .error (.fragmentCycle _) => True
  | _, _ => False

/-- Two collections have the same outcome if the plain walks end alike. -/
theorem sameOutcome_of_plainWalk {fragments fragments' : FragmentTable} {options : CollectOptions}
    {s s' : List Selection}
    (h : ∀ met ending, ending ≠ .running →
      ((∃ n, plainWalk fragments options.inlineFragments n s = ⟨met, ending⟩) ↔
        ∃ n, plainWalk fragments' options.inlineFragments n s' = ⟨met, ending⟩))
    (fields : FieldMap) :
    SameOutcome (collectInto fragments options s fields)
      (collectInto fragments' options s' fields) := by
  have hwalk := plainWalk_of_traverse fragments options.inlineFragments s
  simp only [SameOutcome, Collection.result, collectInto, Traversal.keyed]
  rcases hf : (traverse fragments options.inlineFragments [] s).fault with _ | ⟨name⟩ | ⟨names⟩
  · rw [hf] at hwalk
    obtain ⟨hf', hmet⟩ :=
      (traverse_finished_iff fragments' _ s' _).2 ((h _ .finished (by simp)).1 hwalk)
    simp only [hf', hmet]
  · rw [hf] at hwalk
    obtain ⟨hf', -⟩ :=
      (traverse_unknown_iff fragments' _ s' _ name).2
        ((h _ (.undefinedName name) (by simp)).1 hwalk)
    simp only [hf']
  · rw [hf] at hwalk
    have hendless : Endless fragments' options.inlineFragments s' := by
      intro n
      refine Decidable.byContradiction fun hended ↦ ?_
      obtain ⟨m, hm⟩ := (h _ _ hended).2 ⟨n, rfl⟩
      have hrunning := hwalk m
      rw [hm] at hrunning
      exact hended hrunning
    obtain ⟨names', hf'⟩ := (traverse_cycle_iff fragments' _ s').2 hendless
    simp only [hf']

/-! ## Writing out spreads -/

/-- One spread that is not below a field is replaced by the selections of its definition. -/
inductive InlinesOnce (fragments : FragmentTable) : List Selection → List Selection → Prop
  /-- The spread is in front. -/
  | here {name : String} {fragment : Fragment} (rest : List Selection)
      (hdef : fragments.find? name = some fragment) :
      InlinesOnce fragments (.spread name :: rest) (fragment.selections ++ rest)
  /-- It is in the inline fragment in front. -/
  | inside {s s' : List Selection} (typeCondition : Option String) (rest : List Selection)
      (h : InlinesOnce fragments s s') :
      InlinesOnce fragments (.inline typeCondition s :: rest) (.inline typeCondition s' :: rest)
  /-- It comes later. -/
  | later {s s' : List Selection} (a : Selection) (h : InlinesOnce fragments s s') :
      InlinesOnce fragments (a :: s) (a :: s')

/-- One spread is replaced by the selections of its definition, in the selections of a node or in
the definition of a fragment. -/
inductive SpreadInlined (fragments : FragmentTable) :
    List Selection → FragmentTable → List Selection → Prop
  /-- In the node. -/
  | node {s s' : List Selection} (h : InlinesOnce fragments s s') :
      SpreadInlined fragments s fragments s'
  /-- In a definition. -/
  | definition {fragment : Fragment} {body : List Selection} (s : List Selection)
      (hmem : fragment ∈ fragments.toList) (h : InlinesOnce fragments fragment.selections body) :
      SpreadInlined fragments s (fragments.insert { fragment with selections := body }) s
  /-- In a definition that is the node as well. -/
  | startingDefinition {fragment : Fragment} {body : List Selection}
      (hmem : fragment ∈ fragments.toList) (h : InlinesOnce fragments fragment.selections body) :
      SpreadInlined fragments fragment.selections
        (fragments.insert { fragment with selections := body }) body

/-- Any number of spreads that are not below a field are replaced by the selections of their
definitions, in which spreads may have been replaced in turn. -/
inductive Inlined (fragments : FragmentTable) : List Selection → List Selection → Prop
  | nil : Inlined fragments [] []
  | keep {s s' : List Selection} (a : Selection) (h : Inlined fragments s s') :
      Inlined fragments (a :: s) (a :: s')
  | inside {inner inner' s s' : List Selection} (typeCondition : Option String)
      (hinner : Inlined fragments inner inner') (h : Inlined fragments s s') :
      Inlined fragments (.inline typeCondition inner :: s) (.inline typeCondition inner' :: s')
  | spread {name : String} {fragment : Fragment} {s s' : List Selection}
      (hdef : fragments.find? name = some fragment)
      (h : Inlined fragments (fragment.selections ++ s) s') :
      Inlined fragments (.spread name :: s) s'

section

variable {fragments fragments' : FragmentTable}

theorem Inlined.refl (s : List Selection) : Inlined fragments s s := by
  induction s with
  | nil => exact .nil
  | cons a s ih => exact .keep a ih

theorem Inlined.append {s s' t t' : List Selection} (hs : Inlined fragments s s')
    (ht : Inlined fragments t t') : Inlined fragments (s ++ t) (s' ++ t') := by
  induction hs with
  | nil => exact ht
  | keep a _ ih => exact .keep a ih
  | inside typeCondition hinner _ _ ih => exact .inside typeCondition hinner ih
  | spread hdef _ ih =>
    rw [List.append_assoc] at ih
    exact .spread hdef ih

theorem InlinesOnce.inlined {s s' : List Selection} (h : InlinesOnce fragments s s') :
    Inlined fragments s s' := by
  induction h with
  | here rest hdef => exact .spread hdef (.refl _)
  | inside typeCondition rest _ ih => exact .inside typeCondition ih (.refl rest)
  | later a _ ih => exact .keep a ih

/-- The same names are defined, with spreads replaced in the definitions.  What a spread is replaced
by is taken from the first table. -/
structure TableInlined (fragments fragments' : FragmentTable) : Prop where
  /-- No name is defined in addition. -/
  none {name : String} (h : fragments.find? name = none) : fragments'.find? name = none
  /-- Every definition has one that corresponds to it. -/
  some {name : String} {fragment : Fragment} (h : fragments.find? name = some fragment) :
    ∃ fragment', fragments'.find? name = some fragment' ∧
      Inlined fragments fragment.selections fragment'.selections

theorem TableInlined.refl (fragments : FragmentTable) : TableInlined fragments fragments :=
  ⟨fun h ↦ h, fun {_ fragment} h ↦ ⟨fragment, h, .refl _⟩⟩

theorem TableInlined.insert {fragment : Fragment} {body : List Selection}
    (hmem : fragment ∈ fragments.toList) (h : InlinesOnce fragments fragment.selections body) :
    TableInlined fragments (fragments.insert { fragment with selections := body }) := by
  have hfound : fragments.find? fragment.name = .some fragment := KeyedList.find?_of_mem hmem
  constructor
  · intro name hnone
    have hne : name ≠ fragment.name := by
      rintro rfl
      rw [hfound] at hnone
      cases hnone
    rw [KeyedList.find?_insert, if_neg hne, hnone]
  · intro name other hother
    rw [KeyedList.find?_insert]
    split
    · rename_i heq
      rw [heq, hfound] at hother
      cases hother
      exact ⟨_, rfl, h.inlined⟩
    · exact ⟨other, hother, .refl _⟩

/-! ## Walking through both sides -/

/-- Two steps that meet the same and leave corresponding selections, or fail at the same name. -/
inductive StepInlined (fragments : FragmentTable) :
    Except String (List Field × List Selection) → Except String (List Field × List Selection) → Prop
  | error (name : String) : StepInlined fragments (.error name) (.error name)
  | ok {inner inner' : List Selection} (met : List Field) (h : Inlined fragments inner inner') :
      StepInlined fragments (.ok (met, inner)) (.ok (met, inner'))

theorem stepInlined_keep (htable : TableInlined fragments fragments') (mode : InlineMode)
    (a : Selection) :
    StepInlined fragments (a.step fragments mode) (a.step fragments' mode) := by
  cases a with
  | field f => exact .ok [f] .nil
  | spread name =>
    cases hdef : fragments.find? name with
    | none =>
      rw [step_spread_of_none hdef, step_spread_of_none (htable.none hdef)]
      exact .error name
    | some fragment =>
      obtain ⟨fragment', hdef', hbody⟩ := htable.some hdef
      rw [step_spread_of_some hdef, step_spread_of_some hdef']
      exact .ok [] hbody
  | inline typeCondition selections =>
    cases mode with
    | skip => exact .ok [] .nil
    | expand => exact .ok [] (.refl selections)

theorem stepInlined_inside (mode : InlineMode) (typeCondition : Option String)
    {inner inner' : List Selection} (h : Inlined fragments inner inner') :
    StepInlined fragments ((Selection.inline typeCondition inner).step fragments mode)
      ((Selection.inline typeCondition inner').step fragments' mode) := by
  cases mode with
  | skip => exact .ok [] .nil
  | expand => exact .ok [] h

/-- Where a selection stays in front, both walks take a step at once. -/
theorem StepInlined.walk {mode : InlineMode} {a a' : Selection} {s s' : List Selection}
    (hstep : StepInlined fragments (a.step fragments mode) (a'.step fragments' mode))
    (hs : Inlined fragments s s') :
    (∃ name, ∀ n, plainWalk fragments mode (n + 1) (a :: s) = ⟨[], .undefinedName name⟩ ∧
        plainWalk fragments' mode (n + 1) (a' :: s') = ⟨[], .undefinedName name⟩) ∨
      ∃ met t t', Inlined fragments t t' ∧ ∀ n,
        plainWalk fragments mode (n + 1) (a :: s) = (plainWalk fragments mode n t).after met ∧
        plainWalk fragments' mode (n + 1) (a' :: s')
          = (plainWalk fragments' mode n t').after met := by
  generalize ha : a.step fragments mode = r, ha' : a'.step fragments' mode = r' at hstep
  cases hstep with
  | error name =>
    exact Or.inl ⟨name, fun n ↦ ⟨plainWalk_succ_of_error ha n s, plainWalk_succ_of_error ha' n s'⟩⟩
  | ok met hinner =>
    exact Or.inr ⟨met, _, _, hinner.append hs,
      fun n ↦ ⟨plainWalk_succ_of_ok ha n s, plainWalk_succ_of_ok ha' n s'⟩⟩

/-- **The walk through what was written out ends as the walk through the spreads.**  Where the one
enters a fragment, the other already stands on its first selection. -/
theorem plainWalk_inlined (htable : TableInlined fragments fragments') {mode : InlineMode}
    {s s' : List Selection} (h : Inlined fragments s s') {n : Nat}
    (hn : (plainWalk fragments mode n s).ending ≠ .running) :
    ∃ m, plainWalk fragments' mode m s' = plainWalk fragments mode n s := by
  induction n generalizing s s' with
  | zero =>
    cases h with
    | nil => exact ⟨0, by simp⟩
    | keep | inside | spread => exact absurd rfl hn
  | succ n ih =>
    have both : ∀ {a a' : Selection} {t t' : List Selection},
        StepInlined fragments (a.step fragments mode) (a'.step fragments' mode) →
        Inlined fragments t t' → (plainWalk fragments mode (n + 1) (a :: t)).ending ≠ .running →
        ∃ m, plainWalk fragments' mode m (a' :: t')
          = plainWalk fragments mode (n + 1) (a :: t) := by
      intro a a' t t' hstep ht hn
      rcases hstep.walk ht with ⟨name, hw⟩ | ⟨met, u, u', hu, hw⟩
      · exact ⟨1, by rw [(hw 0).2, (hw n).1]⟩
      · rw [(hw n).1] at hn ⊢
        obtain ⟨m, hm⟩ := ih hu hn
        exact ⟨m + 1, by rw [(hw m).2, hm]⟩
    cases h with
    | nil => exact ⟨0, by simp⟩
    | keep a h => exact both (stepInlined_keep htable mode a) h hn
    | inside typeCondition hinner h =>
      exact both (stepInlined_inside mode typeCondition hinner) h hn
    | spread hdef h =>
      rw [plainWalk_succ_of_ok (step_spread_of_some hdef), PlainRun.after_nil] at hn ⊢
      exact ih h hn

/-- **The walk through the spreads ends as the walk through what was written out.**  Where the one
enters a fragment the other waits; it does not wait for ever, because what was put in the place of
that spread was put there in finitely many replacements. -/
theorem plainWalk_of_inlined (htable : TableInlined fragments fragments') {mode : InlineMode}
    {s s' : List Selection} (h : Inlined fragments s s') {n : Nat}
    (hn : (plainWalk fragments' mode n s').ending ≠ .running) :
    ∃ m, plainWalk fragments mode m s = plainWalk fragments' mode n s' := by
  induction n generalizing s s' with
  | zero =>
    induction h with
    | nil => exact ⟨0, by simp⟩
    | keep | inside => exact absurd rfl hn
    | spread hdef _ ihSpread =>
      obtain ⟨m, hm⟩ := ihSpread hn
      exact ⟨m + 1, by rw [plainWalk_succ_of_ok (step_spread_of_some hdef), PlainRun.after_nil, hm]⟩
  | succ n ih =>
    have both : ∀ {a a' : Selection} {t t' : List Selection},
        StepInlined fragments (a.step fragments mode) (a'.step fragments' mode) →
        Inlined fragments t t' → (plainWalk fragments' mode (n + 1) (a' :: t')).ending ≠ .running →
        ∃ m, plainWalk fragments mode m (a :: t)
          = plainWalk fragments' mode (n + 1) (a' :: t') := by
      intro a a' t t' hstep ht hn
      rcases hstep.walk ht with ⟨name, hw⟩ | ⟨met, u, u', hu, hw⟩
      · exact ⟨1, by rw [(hw 0).1, (hw n).2]⟩
      · rw [(hw n).2] at hn ⊢
        obtain ⟨m, hm⟩ := ih hu hn
        exact ⟨m + 1, by rw [(hw m).1, hm]⟩
    induction h with
    | nil => exact ⟨0, by simp⟩
    | keep a h => exact both (stepInlined_keep htable mode a) h hn
    | inside typeCondition hinner h =>
      exact both (stepInlined_inside mode typeCondition hinner) h hn
    | spread hdef _ ihSpread =>
      obtain ⟨m, hm⟩ := ihSpread hn
      exact ⟨m + 1, by rw [plainWalk_succ_of_ok (step_spread_of_some hdef), PlainRun.after_nil, hm]⟩

/-- Collecting through both sides has the same outcome. -/
theorem Inlined.sameOutcome (htable : TableInlined fragments fragments') {s s' : List Selection}
    (h : Inlined fragments s s') (options : CollectOptions) (fields : FieldMap) :
    SameOutcome (collectInto fragments options s fields)
      (collectInto fragments' options s' fields) := by
  refine sameOutcome_of_plainWalk (fun met ending hended ↦ ⟨?_, ?_⟩) fields
  · rintro ⟨n, hn⟩
    rw [← hn]
    exact plainWalk_inlined htable h (by rw [hn]; exact hended)
  · rintro ⟨n, hn⟩
    rw [← hn]
    exact plainWalk_of_inlined htable h (by rw [hn]; exact hended)

end

/-- **Writing a spread out preserves what is collected**, wherever it stands outside of fields and
whatever the fragments spread in turn: the map is the same, or the undefined name is the same, or
there is a cycle before and after. -/
theorem spreadInlined_sameOutcome {fragments fragments' : FragmentTable}
    {s s' : List Selection} (h : SpreadInlined fragments s fragments' s')
    (options : CollectOptions) (fields : FieldMap) :
    SameOutcome (collectInto fragments options s fields)
      (collectInto fragments' options s' fields) := by
  cases h with
  | node h => exact h.inlined.sameOutcome (.refl fragments) options fields
  | definition s hmem h =>
    exact (Inlined.refl s).sameOutcome (.insert hmem h) options fields
  | startingDefinition hmem h => exact h.inlined.sameOutcome (.insert hmem h) options fields

/-- A fragment that spreads itself, in an inline fragment behind a field. -/
def ownSpread : Fragment :=
  ⟨"a", "Query", [.field (.leaf "one"), .inline none [.spread "a", .field (.leaf "two")]]⟩

/-- The spread in a fragment's own definition is written out once. -/
theorem spreadInlined_sameOutcome_ownSpread :
    SpreadInlined (.ofList [ownSpread]) [.spread "a"]
        ((KeyedList.ofList [ownSpread]).insert { ownSpread with selections :=
          [.field (.leaf "one"), .inline none [.field (.leaf "one"),
            .inline none [.spread "a", .field (.leaf "two")], .field (.leaf "two")]] })
        [.spread "a"] ∧
      SameOutcome (collectInto (.ofList [ownSpread]) .response [.spread "a"] .empty)
        (collectInto
          ((KeyedList.ofList [ownSpread]).insert { ownSpread with selections :=
            [.field (.leaf "one"), .inline none [.field (.leaf "one"),
              .inline none [.spread "a", .field (.leaf "two")], .field (.leaf "two")]] })
          .response [.spread "a"] .empty) := by
  have hdef : (KeyedList.ofList [ownSpread] : FragmentTable).find? "a" = some ownSpread := by
    decide
  have hmem : ownSpread ∈ (KeyedList.ofList [ownSpread] : FragmentTable).toList := by
    decide
  have h := SpreadInlined.definition [.spread "a"] hmem
    (.later (.field (.leaf "one")) (.inside none [] (.here [.field (.leaf "two")] hdef)))
  exact ⟨h, spreadInlined_sameOutcome h .response .empty⟩

end RequestedFields
