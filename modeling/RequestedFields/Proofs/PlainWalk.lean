import RequestedFields.Traversal

/-!
# The plain walk

`traverse` carries the names of the fragments it is inside of and refuses to enter one of them
again.  This file is about the walk **without that guard**: it meets fields, goes into the body of
every spread fragment, stops at a name that is not defined, and through a fragment that leads back
to itself it goes on for ever.  It is what a selection set *means*; the guard only has to find out
in time what this walk would do.

The plain walk needs no stack.  What it still has to visit is one list of selections, and a step
replaces the first of them by what stands for it.  As nothing bounds the number of steps, they are
counted out beforehand, and a walk whose steps are used up is `running`.

## What is here

* `Selection.step` — what one step does with the selection in front.
* `plainWalk` — a number of steps, with the fields met and where the walk then stands.
* `Reaches` — the same without counting: what is left to visit after some steps.
* `Endless` — the walk is running after any number of steps.
* `plainWalk_add`, `ended_unique` — an ended walk does not change any more, so it ends in one way.
* `endless_of_recurrence` — a selection that comes up again in its own place is visited for ever.
-/

set_option autoImplicit false

namespace RequestedFields

/-! ## Steps -/

/-- One step of the plain walk: the fields met and what is to be visited in place of the selection,
or the name that is not defined. -/
def Selection.step (fragments : FragmentTable) (mode : InlineMode) :
    Selection → Except String (List Field × List Selection)
  | .field f => .ok ([f], [])
  | .spread name =>
    match fragments.find? name with
    | none => .error name
    | some fragment => .ok ([], fragment.selections)
  | .inline _ selections =>
    match mode with
    | .skip => .ok ([], [])
    | .expand => .ok ([], selections)

/-- Where a plain walk stands when its steps are used up. -/
inductive PlainEnd where
  /-- Nothing is left to visit. -/
  | finished
  /-- The spread of this name is to be visited, and the name is not defined. -/
  | undefinedName (name : String)
  /-- There is more to visit. -/
  | running
  deriving DecidableEq, Repr

/-- The fields that a plain walk has met, and where it stands. -/
structure PlainRun where
  fields : List Field
  ending : PlainEnd
  deriving DecidableEq

/-- The same run after some fields met before it. -/
def PlainRun.after (met : List Field) (r : PlainRun) : PlainRun := ⟨met ++ r.fields, r.ending⟩

@[simp] theorem PlainRun.after_nil (r : PlainRun) : r.after [] = r := rfl

theorem PlainRun.after_append (met more : List Field) (r : PlainRun) :
    r.after (met ++ more) = (r.after more).after met := by
  rw [after, after, after, List.append_assoc]

/-- That many steps of the plain walk. -/
def plainWalk (fragments : FragmentTable) (mode : InlineMode) : Nat → List Selection → PlainRun
  | _, [] => ⟨[], .finished⟩
  | 0, _ :: _ => ⟨[], .running⟩
  | n + 1, s :: rest =>
    match s.step fragments mode with
    | .error name => ⟨[], .undefinedName name⟩
    | .ok (met, inner) => (plainWalk fragments mode n (inner ++ rest)).after met

section

variable {fragments : FragmentTable} {mode : InlineMode}

@[simp] theorem plainWalk_nil (n : Nat) : plainWalk fragments mode n [] = ⟨[], .finished⟩ := by
  cases n <;> rfl

theorem plainWalk_succ_of_ok {a : Selection} {met : List Field} {inner : List Selection}
    (h : a.step fragments mode = .ok (met, inner)) (n : Nat) (rest : List Selection) :
    plainWalk fragments mode (n + 1) (a :: rest)
      = (plainWalk fragments mode n (inner ++ rest)).after met := by
  rw [plainWalk, h]

theorem plainWalk_succ_of_error {a : Selection} {name : String}
    (h : a.step fragments mode = .error name) (n : Nat) (rest : List Selection) :
    plainWalk fragments mode (n + 1) (a :: rest) = ⟨[], .undefinedName name⟩ := by
  rw [plainWalk, h]

theorem step_spread_of_some {name : String} {fragment : Fragment}
    (h : fragments.find? name = some fragment) :
    (Selection.spread name).step fragments mode = .ok ([], fragment.selections) := by
  rw [Selection.step, h]

theorem step_spread_of_none {name : String} (h : fragments.find? name = none) :
    (Selection.spread name).step fragments mode = .error name := by
  rw [Selection.step, h]

/-- **An ended walk does not change any more**, however many steps are added. -/
theorem plainWalk_add {n : Nat} {s : List Selection}
    (h : (plainWalk fragments mode n s).ending ≠ .running) (k : Nat) :
    plainWalk fragments mode (n + k) s = plainWalk fragments mode n s := by
  induction n generalizing s with
  | zero =>
    cases s with
    | nil => simp
    | cons a rest => exact absurd rfl h
  | succ n ih =>
    cases s with
    | nil => simp
    | cons a rest =>
      rw [Nat.succ_add]
      cases hstep : a.step fragments mode with
      | error name => rw [plainWalk_succ_of_error hstep, plainWalk_succ_of_error hstep]
      | ok next =>
        obtain ⟨met, inner⟩ := next
        rw [plainWalk_succ_of_ok hstep] at h
        rw [plainWalk_succ_of_ok hstep, plainWalk_succ_of_ok hstep, ih h]

/-- **A walk ends in one way only**, with the same fields met. -/
theorem ended_unique {n m : Nat} {s : List Selection} {met met' : List Field}
    {ending ending' : PlainEnd} (h : plainWalk fragments mode n s = ⟨met, ending⟩)
    (h' : plainWalk fragments mode m s = ⟨met', ending'⟩) (hended : ending ≠ .running)
    (hended' : ending' ≠ .running) : met = met' ∧ ending = ending' := by
  have hn : (plainWalk fragments mode n s).ending ≠ .running := by rw [h]; exact hended
  have hm : (plainWalk fragments mode m s).ending ≠ .running := by rw [h']; exact hended'
  have heq := plainWalk_add hn m
  rw [Nat.add_comm, plainWalk_add hm n, h, h'] at heq
  obtain ⟨hmet, hending⟩ := PlainRun.mk.inj heq
  exact ⟨hmet.symm, hending.symm⟩

end

/-! ## What is left to visit -/

/-- After some steps of the plain walk through the first list, in which `met` was met, the last list
is left to visit. -/
inductive Reaches (fragments : FragmentTable) (mode : InlineMode) :
    List Selection → List Field → List Selection → Prop
  | refl (s : List Selection) : Reaches fragments mode s [] s
  | step {a : Selection} {inner rest t : List Selection} {met more : List Field}
      (h : a.step fragments mode = .ok (met, inner))
      (next : Reaches fragments mode (inner ++ rest) more t) :
      Reaches fragments mode (a :: rest) (met ++ more) t

/-- The plain walk through these selections never ends. -/
def Endless (fragments : FragmentTable) (mode : InlineMode) (s : List Selection) : Prop :=
  ∀ n, (plainWalk fragments mode n s).ending = .running

section

variable {fragments : FragmentTable} {mode : InlineMode}

/-- A step that meets no field. -/
theorem Reaches.enter {a : Selection} {inner rest t : List Selection} {met : List Field}
    (h : a.step fragments mode = .ok ([], inner))
    (next : Reaches fragments mode (inner ++ rest) met t) :
    Reaches fragments mode (a :: rest) met t := by
  have hstep := Reaches.step h next
  rwa [List.nil_append] at hstep

theorem Reaches.trans {s t u : List Selection} {met more : List Field}
    (h : Reaches fragments mode s met t) (h' : Reaches fragments mode t more u) :
    Reaches fragments mode s (met ++ more) u := by
  induction h with
  | refl => exact h'
  | step hstep _ ih =>
    rw [List.append_assoc]
    exact .step hstep (ih h')

/-- What is written behind the selections stays behind what is left of them. -/
theorem Reaches.append {s t : List Selection} {met : List Field}
    (h : Reaches fragments mode s met t) (rest : List Selection) :
    Reaches fragments mode (s ++ rest) met (t ++ rest) := by
  induction h with
  | refl => exact .refl _
  | step hstep _ ih =>
    rw [List.append_assoc] at ih
    exact .step hstep ih

/-- The steps of a `Reaches`, counted. -/
theorem Reaches.exists_plainWalk {s t : List Selection} {met : List Field}
    (h : Reaches fragments mode s met t) :
    ∃ k, ∀ n, plainWalk fragments mode (k + n) s = (plainWalk fragments mode n t).after met := by
  induction h with
  | refl => exact ⟨0, fun n ↦ by rw [Nat.zero_add, PlainRun.after_nil]⟩
  | step hstep _ ih =>
    obtain ⟨k, hk⟩ := ih
    refine ⟨k + 1, fun n ↦ ?_⟩
    rw [Nat.succ_add, plainWalk_succ_of_ok hstep, hk, PlainRun.after_append]

/-- On the way to something that is running after up to `n` steps, a walk is running after `n`. -/
theorem Reaches.running {s t : List Selection} {met : List Field}
    (h : Reaches fragments mode s met t) {n : Nat}
    (ht : ∀ m ≤ n, (plainWalk fragments mode m t).ending = .running) :
    (plainWalk fragments mode n s).ending = .running := by
  induction h generalizing n with
  | refl => exact ht n (Nat.le_refl n)
  | step hstep _ ih =>
    cases n with
    | zero => rfl
    | succ n =>
      rw [plainWalk_succ_of_ok hstep]
      exact ih fun m hm ↦ ht m (Nat.le_succ_of_le hm)

theorem Reaches.endless {s t : List Selection} {met : List Field}
    (h : Reaches fragments mode s met t) (ht : Endless fragments mode t) :
    Endless fragments mode s :=
  fun _ ↦ h.running fun m _ ↦ ht m

theorem Endless.append {s : List Selection} (h : Endless fragments mode s)
    (rest : List Selection) : Endless fragments mode (s ++ rest) := by
  intro n
  induction n generalizing s with
  | zero =>
    cases s with
    | nil => exact absurd (h 0) (by simp)
    | cons a s => rfl
  | succ n ih =>
    cases s with
    | nil => exact absurd (h 0) (by simp)
    | cons a s =>
      cases hstep : a.step fragments mode with
      | error name => exact absurd (h 1) (by simp [plainWalk_succ_of_error hstep])
      | ok next =>
        obtain ⟨met, inner⟩ := next
        have hinner : Endless fragments mode (inner ++ s) := by
          intro m
          have hm := h (m + 1)
          rwa [plainWalk_succ_of_ok hstep] at hm
        rw [List.cons_append, plainWalk_succ_of_ok hstep, ← List.append_assoc]
        exact ih hinner

/-- **A selection that comes up again in its own place is visited for ever**, whatever is to be
visited behind it. -/
theorem endless_of_recurrence {a : Selection} {met more : List Field}
    {inner behind : List Selection} (h : a.step fragments mode = .ok (met, inner))
    (again : Reaches fragments mode inner more (a :: behind)) (rest : List Selection) :
    Endless fragments mode (a :: rest) := by
  intro n
  induction n using Nat.strongRecOn generalizing rest with
  | ind n ih =>
    cases n with
    | zero => rfl
    | succ n =>
      -- one step is certain, so up to `n` steps are left when `a` comes up again
      rw [plainWalk_succ_of_ok h]
      exact (again.append rest).running fun m hm ↦ ih m (Nat.lt_succ_of_le hm) (behind ++ rest)

end

end RequestedFields
