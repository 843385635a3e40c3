import RequestedFields.Collection
import RequestedFields.Proofs.PlainWalk

/-!
# What the cycle guard finds out

The guarded walk `traverse` always ends; the plain walk need not.  This file says that the guard is
right about the plain walk in each of three ways, and never mistakes one for another.

* `traverse_finished_iff` — the guarded walk reaches the end exactly when the plain walk does, and
  both meet the same fields in the same order.
* `traverse_unknown_iff` — it stops at an undefined name exactly when the plain walk does, at the
  same name.
* `traverse_cycle_iff` — it reports a cycle **exactly when the plain walk never ends**.

For one direction the journal of the guarded walk is followed step by step (`follows_traverse`).
What a cycle shows on the way is that the spread at fault comes up again in its own place; that
spread may belong to a fragment entered further out, and the invariant `Follows` therefore allows
for the names on the stack, which are taken off one by one as the bodies are finished
(`Follows.leave`).

The other direction needs no argument of its own: the guarded walk ends in one of three ways and the
plain walk in no two of them.  That an endless plain walk has to come back to an open fragment is
already in the termination of `traverse`, whose measure counts the names that are not on the stack.
-/

set_option autoImplicit false

namespace RequestedFields

/-! ## Following the guarded walk -/

/-- What the plain walk does while the guarded one, inside of the fragments on `stack`, meets `met`
and ends with `fault`. -/
def Follows (fragments : FragmentTable) (mode : InlineMode) (stack : List String)
    (s : List Selection) (met : List Field) (fault : Option FragmentError) : Prop :=
  match fault with
  | none => Reaches fragments mode s met []
  | some (.unknownFragment name) =>
    fragments.find? name = none ∧ ∃ rest, Reaches fragments mode s met (.spread name :: rest)
  | some (.fragmentCycle _) =>
    ∃ name rest, Reaches fragments mode s met (.spread name :: rest) ∧
      (name ∈ stack ∨ Endless fragments mode s)

section

variable {fragments : FragmentTable} {mode : InlineMode} {stack : List String}

/-- Some steps taken before. -/
theorem Follows.prepend {s t : List Selection} {met more : List Field}
    {fault : Option FragmentError} (h : Reaches fragments mode s met t)
    (ht : Follows fragments mode stack t more fault) :
    Follows fragments mode stack s (met ++ more) fault := by
  rcases fault with _ | ⟨name⟩ | ⟨names⟩
  · exact h.trans ht
  · obtain ⟨hdef, rest, hr⟩ := ht
    exact ⟨hdef, rest, h.trans hr⟩
  · obtain ⟨name, rest, hr, hend⟩ := ht
    exact ⟨name, rest, h.trans hr, hend.imp_right h.endless⟩

/-- One step taken before. -/
theorem Follows.step {a : Selection} {inner rest : List Selection} {met more : List Field}
    {fault : Option FragmentError} (h : a.step fragments mode = .ok (met, inner))
    (ht : Follows fragments mode stack (inner ++ rest) more fault) :
    Follows fragments mode stack (a :: rest) (met ++ more) fault := by
  have hone : Reaches fragments mode (a :: rest) (met ++ []) (inner ++ rest) := .step h (.refl _)
  rw [List.append_nil] at hone
  exact ht.prepend hone

/-- What is written behind the selections is not visited if the walk stops before. -/
theorem Follows.append {s : List Selection} {met : List Field} {e : FragmentError}
    (h : Follows fragments mode stack s met (some e)) (rest : List Selection) :
    Follows fragments mode stack (s ++ rest) met (some e) := by
  cases e with
  | unknownFragment name =>
    obtain ⟨hdef, behind, hr⟩ := h
    exact ⟨hdef, behind ++ rest, hr.append rest⟩
  | fragmentCycle names =>
    obtain ⟨name, behind, hr, hend⟩ := h
    exact ⟨name, behind ++ rest, hr.append rest, hend.imp_right fun h ↦ h.append rest⟩

theorem Follows.andThen {s rest : List Selection} {t u : Traversal}
    (ht : Follows fragments mode stack s t.fields t.fault)
    (hu : Follows fragments mode stack rest u.fields u.fault) :
    Follows fragments mode stack (s ++ rest) (t.andThen u).fields (t.andThen u).fault := by
  rw [Traversal.fields_andThen, Traversal.fault_andThen]
  cases hf : t.fault with
  | none =>
    rw [hf] at ht
    simpa using hu.prepend (Reaches.append ht rest)
  | some e =>
    rw [hf] at ht
    simpa using ht.append rest

/-- **A fragment that is left takes its name off the stack.**  If its own spread comes up again
inside of its body, the body is endless. -/
theorem Follows.leave {name : String} {fragment : Fragment} {met : List Field}
    {fault : Option FragmentError} (hdef : fragments.find? name = some fragment)
    (h : Follows fragments mode (stack ++ [name]) fragment.selections met fault) :
    Follows fragments mode stack fragment.selections met fault := by
  rcases fault with _ | ⟨unknown⟩ | ⟨names⟩
  · exact h
  · exact h
  · obtain ⟨again, rest, hr, hmem | hend⟩ := h
    · rcases List.mem_append.1 hmem with hmem | hmem
      · exact ⟨again, rest, hr, Or.inl hmem⟩
      · rw [List.mem_singleton] at hmem
        subst hmem
        have hspread : Endless fragments mode (.spread again :: rest) :=
          endless_of_recurrence (step_spread_of_some hdef) hr rest
        exact ⟨again, rest, hr, Or.inr (hr.endless hspread)⟩
    · exact ⟨again, rest, hr, Or.inr hend⟩

/-- **The plain walk follows the guarded one** up to its end or to its fault. -/
theorem follows_traverse (fragments : FragmentTable) (mode : InlineMode) (stack : List String)
    (s : List Selection) :
    Follows fragments mode stack s (traverse fragments mode stack s).fields
      (traverse fragments mode stack s).fault := by
  fun_induction traverse fragments mode stack s with
  | case1 => exact .refl _
  | case2 mode stack f rest ih =>
    have hstep : (Selection.field f).step fragments mode = .ok ([f], []) := rfl
    exact Follows.step hstep ih
  | case3 mode stack name rest hmem =>
    exact ⟨name, rest, .refl _, Or.inl hmem⟩
  | case4 mode stack name rest hnew hdef =>
    exact ⟨hdef, rest, .refl _⟩
  | case5 mode stack name rest hnew fragment hdef ihBody ihRest =>
    have hbody := ihBody.leave hdef
    exact Follows.step (step_spread_of_some hdef) (hbody.andThen ihRest)
  | case6 stack typeCondition selections rest ih =>
    have hstep : (Selection.inline typeCondition selections).step fragments .skip
        = .ok ([], []) := rfl
    exact Follows.step hstep ih
  | case7 stack typeCondition selections rest ihInner ihRest =>
    have hstep : (Selection.inline typeCondition selections).step fragments .expand
        = .ok ([], selections) := rfl
    exact Follows.step hstep (ihInner.andThen ihRest)

/-! ## The three ways to end -/

theorem exists_finished_of_reaches {s : List Selection} {met : List Field}
    (h : Reaches fragments mode s met []) :
    ∃ n, plainWalk fragments mode n s = ⟨met, .finished⟩ := by
  obtain ⟨k, hk⟩ := h.exists_plainWalk
  refine ⟨k, ?_⟩
  have h0 := hk 0
  rwa [Nat.add_zero, plainWalk_nil, PlainRun.after, List.append_nil] at h0

theorem exists_undefinedName_of_reaches {s rest : List Selection} {met : List Field}
    {name : String} (h : Reaches fragments mode s met (.spread name :: rest))
    (hdef : fragments.find? name = none) :
    ∃ n, plainWalk fragments mode n s = ⟨met, .undefinedName name⟩ := by
  obtain ⟨k, hk⟩ := h.exists_plainWalk
  refine ⟨k + 1, ?_⟩
  rw [hk 1, plainWalk_succ_of_error (step_spread_of_none hdef), PlainRun.after, List.append_nil]

/-- What the plain walk does, told by the guarded one. -/
theorem plainWalk_of_traverse (fragments : FragmentTable) (mode : InlineMode)
    (s : List Selection) :
    match (traverse fragments mode [] s).fault with
    | none =>
      ∃ n, plainWalk fragments mode n s = ⟨(traverse fragments mode [] s).fields, .finished⟩
    | some (.unknownFragment name) =>
      ∃ n, plainWalk fragments mode n s
        = ⟨(traverse fragments mode [] s).fields, .undefinedName name⟩
    | some (.fragmentCycle _) => Endless fragments mode s := by
  have h := follows_traverse fragments mode [] s
  rcases hf : (traverse fragments mode [] s).fault with _ | ⟨name⟩ | ⟨names⟩
  · rw [hf] at h
    exact exists_finished_of_reaches h
  · rw [hf] at h
    obtain ⟨hdef, rest, hr⟩ := h
    exact exists_undefinedName_of_reaches hr hdef
  · rw [hf] at h
    obtain ⟨name, rest, -, hmem | hend⟩ := h
    · cases hmem
    · exact hend

/-- **The guarded walk reaches the end exactly when the plain one does**, with the same fields. -/
theorem traverse_finished_iff (fragments : FragmentTable) (mode : InlineMode)
    (s : List Selection) (met : List Field) :
    ((traverse fragments mode [] s).fault = none ∧ (traverse fragments mode [] s).fields = met) ↔
      ∃ n, plainWalk fragments mode n s = ⟨met, .finished⟩ := by
  have h := plainWalk_of_traverse fragments mode s
  constructor
  · rintro ⟨hf, rfl⟩
    rw [hf] at h
    exact h
  · rintro ⟨n, hn⟩
    rcases hf : (traverse fragments mode [] s).fault with _ | ⟨name⟩ | ⟨names⟩
    · rw [hf] at h
      obtain ⟨m, hm⟩ := h
      exact ⟨rfl, (ended_unique hm hn (by simp) (by simp)).1⟩
    · rw [hf] at h
      obtain ⟨m, hm⟩ := h
      exact absurd (ended_unique hm hn (by simp) (by simp)).2 (by simp)
    · rw [hf] at h
      exact absurd (h n) (by simp [hn])

/-- **The guarded walk stops at an undefined name exactly when the plain one does.** -/
theorem traverse_unknown_iff (fragments : FragmentTable) (mode : InlineMode)
    (s : List Selection) (met : List Field) (name : String) :
    ((traverse fragments mode [] s).fault = some (.unknownFragment name) ∧
        (traverse fragments mode [] s).fields = met) ↔
      ∃ n, plainWalk fragments mode n s = ⟨met, .undefinedName name⟩ := by
  have h := plainWalk_of_traverse fragments mode s
  constructor
  · rintro ⟨hf, rfl⟩
    rw [hf] at h
    exact h
  · rintro ⟨n, hn⟩
    rcases hf : (traverse fragments mode [] s).fault with _ | ⟨other⟩ | ⟨names⟩
    · rw [hf] at h
      obtain ⟨m, hm⟩ := h
      exact absurd (ended_unique hm hn (by simp) (by simp)).2 (by simp)
    · rw [hf] at h
      obtain ⟨m, hm⟩ := h
      obtain ⟨hmet, hname⟩ := ended_unique hm hn (by simp) (by simp)
      rw [PlainEnd.undefinedName.inj hname]
      exact ⟨rfl, hmet⟩
    · rw [hf] at h
      exact absurd (h n) (by simp [hn])

/-- **The guarded walk reports a cycle exactly when the plain one never ends.** -/
theorem traverse_cycle_iff (fragments : FragmentTable) (mode : InlineMode)
    (s : List Selection) :
    (∃ names, (traverse fragments mode [] s).fault = some (.fragmentCycle names)) ↔
      Endless fragments mode s := by
  have h := plainWalk_of_traverse fragments mode s
  constructor
  · rintro ⟨names, hf⟩
    rw [hf] at h
    exact h
  · intro hend
    rcases hf : (traverse fragments mode [] s).fault with _ | ⟨name⟩ | ⟨names⟩
    · rw [hf] at h
      obtain ⟨n, hn⟩ := h
      exact absurd (hend n) (by simp [hn])
    · rw [hf] at h
      obtain ⟨n, hn⟩ := h
      exact absurd (hend n) (by simp [hn])
    · exact ⟨names, rfl⟩

end

/-! ## Collecting without and with the guard -/

/-- **Collecting does what the plain walk says.**  A collection is not stopped exactly when the
plain walk finishes, and then what was put into the map, in this order, is what that walk has met.
It is stopped at an undefined name exactly when that walk comes to the name, and by a cycle exactly
when that walk is running after any number of steps. -/
theorem collectInto_agrees_with_plainWalk (fragments : FragmentTable) (options : CollectOptions)
    (selections : List Selection) (fields : FieldMap) :
    let c := collectInto fragments options selections fields
    let plain := fun n ↦ plainWalk fragments options.inlineFragments n selections
    (c.fault = none ↔ ∃ n met, plain n = ⟨met, .finished⟩) ∧
      (∀ n met, plain n = ⟨met, .finished⟩ →
        c.steps.filterMap Step.field? = met ∧
          c.fields = fields.insertAll (met.map fun f ↦ (options.key.of f, f))) ∧
      (∀ name, c.fault = some (.unknownFragment name) ↔
        ∃ n met, plain n = ⟨met, .undefinedName name⟩) ∧
      ((∃ names, c.fault = some (.fragmentCycle names)) ↔ ∀ n, (plain n).ending = .running) := by
  refine ⟨⟨fun hf ↦ ?_, fun ⟨n, met, hn⟩ ↦ ?_⟩, fun n met hn ↦ ?_, fun name ↦
    ⟨fun hf ↦ ?_, fun ⟨n, met, hn⟩ ↦ ?_⟩, traverse_cycle_iff fragments _ selections⟩
  · obtain ⟨n, hn⟩ := (traverse_finished_iff fragments _ selections _).1 ⟨hf, rfl⟩
    exact ⟨n, _, hn⟩
  · exact ((traverse_finished_iff fragments _ selections met).2 ⟨n, hn⟩).1
  · have hmet := ((traverse_finished_iff fragments _ selections met).2 ⟨n, hn⟩).2
    refine ⟨hmet, ?_⟩
    rw [← hmet]
    rfl
  · obtain ⟨n, hn⟩ := (traverse_unknown_iff fragments _ selections _ name).1 ⟨hf, rfl⟩
    exact ⟨n, _, hn⟩
  · exact ((traverse_unknown_iff fragments _ selections met name).2 ⟨n, hn⟩).1

end RequestedFields
