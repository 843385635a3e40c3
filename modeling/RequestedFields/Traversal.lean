import RequestedFields.KeyedList
import RequestedFields.Selection

/-!
# Traversing a selection set

Everything this library answers about a query starts with one walk: through a selection set from
left to right, into the body of every fragment that is spread, into or past every inline fragment,
and never below a field.  `traverse` is that walk.  It returns the **journal** of what it did — the
fields it met, the fragments it entered and left, the inline fragments it passed over — and, if it
had to stop early, the **fault** it stopped at.  The fields that are requested, the events that are
reported and the fragments that are open at any moment are all read off the journal.

## Cycles

A fragment may spread another that leads back to it, and then expanding it would never end.  The
walk therefore carries the names of the fragments it is inside of, outermost first, and refuses to
enter one of them again.  Entering the same fragment twice *one after the other* is no cycle: the
name is on the stack only between its `enter` and its `leave`.

The guard is also why the walk ends: every entry takes one more defined name onto the stack
(`unentered_lt`), and between two entries the selections get smaller.  That pair, compared
lexicographically, is the measure of `traverse`; no bound is passed in and no table is too cyclic.

## What is here

* `FragmentTable`, `FragmentError`, `InlineMode` — what the walk looks names up in, what can be
  wrong with a spread, and what is done at an inline fragment.
* `Step`, `Traversal` — the journal and its fault, with `record` and `andThen`.
* `traverse`, with one equation per kind of selection, `traverse_append` and `traverse_cons`.
* `traverseAll` — several selection sets, each from an empty stack, up to the first fault.
-/

set_option autoImplicit false

namespace RequestedFields

/-- Fragment definitions by name, in the order in which the names were first defined. -/
abbrev FragmentTable := KeyedList Fragment.name

/-- What can be wrong with the spread of a fragment. -/
inductive FragmentError where
  /-- No fragment of that name is defined. -/
  | unknownFragment (name : String)
  /-- The fragment is already being expanded.  The names are all fragments being expanded, outermost
  first, and then the one met again. -/
  | fragmentCycle (names : List String)
  deriving DecidableEq, Repr

/-- The error as it is shown to a user. -/
def FragmentError.message : FragmentError → String
  | .unknownFragment name => "Unknown fragment named '" ++ name ++ "'"
  | .fragmentCycle names => "Fragment cycle detected: " ++ " -> ".intercalate names

/-- What is done with an inline fragment. -/
inductive InlineMode where
  /-- It is passed over. -/
  | skip
  /-- Its selections are visited in its place. -/
  | expand
  deriving DecidableEq, Repr

/-- One entry of the journal of a walk. -/
inductive Step where
  /-- A field was met. -/
  | field (field : Field)
  /-- The body of a spread fragment begins. -/
  | enter (fragment : String)
  /-- The body of a spread fragment is finished. -/
  | leave (fragment : String)
  /-- An inline fragment was passed over. -/
  | skip (typeCondition : Option String)
  deriving DecidableEq

/-- The field of a step that meets one. -/
def Step.field? : Step → Option Field
  | .field f => some f
  | _ => none

/-- What a walk did, and what stopped it if it did not reach the end. -/
structure Traversal where
  steps : List Step
  fault : Option FragmentError
  deriving DecidableEq

namespace Traversal

/-- The walk over nothing. -/
def done : Traversal := ⟨[], none⟩

/-- The walk that stops at once. -/
def stop (e : FragmentError) : Traversal := ⟨[], some e⟩

/-- A step and then a walk. -/
def record (s : Step) (t : Traversal) : Traversal := ⟨s :: t.steps, t.fault⟩

/-- One walk and then another, unless the first was stopped.  The second is then not even begun. -/
@[macro_inline]
def andThen (t u : Traversal) : Traversal :=
  match t.fault with
  | some e => ⟨t.steps, some e⟩
  | none => ⟨t.steps ++ u.steps, u.fault⟩

/-- The fields met, in order and as often as they were met. -/
def fields (t : Traversal) : List Field := t.steps.filterMap Step.field?

@[simp] theorem done_andThen (t : Traversal) : done.andThen t = t := rfl

@[simp] theorem stop_andThen (e : FragmentError) (t : Traversal) :
    (stop e).andThen t = stop e := rfl

@[simp] theorem andThen_done (t : Traversal) : t.andThen done = t := by
  cases t with
  | mk steps fault => cases fault <;> simp [andThen, done]

@[simp] theorem record_andThen (s : Step) (t u : Traversal) :
    (record s t).andThen u = record s (t.andThen u) := by
  cases t with
  | mk steps fault => cases fault <;> rfl

theorem andThen_assoc (t u v : Traversal) : (t.andThen u).andThen v = t.andThen (u.andThen v) := by
  rcases t with ⟨s, _ | e⟩ <;> rcases u with ⟨s', _ | e'⟩ <;> simp [andThen]

@[simp] theorem fields_done : done.fields = [] := rfl

@[simp] theorem fields_stop (e : FragmentError) : (stop e).fields = [] := rfl

theorem andThen_of_none {t : Traversal} (h : t.fault = none) (u : Traversal) :
    t.andThen u = ⟨t.steps ++ u.steps, u.fault⟩ := by
  rw [andThen, h]

theorem andThen_of_some {t : Traversal} {e : FragmentError} (h : t.fault = some e)
    (u : Traversal) : t.andThen u = t := by
  cases t
  cases h
  rfl

theorem fault_andThen (t u : Traversal) : (t.andThen u).fault = t.fault.or u.fault := by
  rcases t with ⟨steps, _ | e⟩ <;> rfl

theorem fault_andThen_eq_none_iff {t u : Traversal} :
    (t.andThen u).fault = none ↔ t.fault = none ∧ u.fault = none := by
  rw [fault_andThen, Option.or_eq_none_iff]

theorem fault_andThen_eq_some_iff {t u : Traversal} {e : FragmentError} :
    (t.andThen u).fault = some e ↔ t.fault = some e ∨ t.fault = none ∧ u.fault = some e := by
  rw [fault_andThen, Option.or_eq_some_iff]

theorem steps_andThen (t u : Traversal) :
    (t.andThen u).steps = if t.fault = none then t.steps ++ u.steps else t.steps := by
  rcases t with ⟨steps, _ | e⟩ <;> rfl

theorem fields_andThen (t u : Traversal) :
    (t.andThen u).fields = if t.fault = none then t.fields ++ u.fields else t.fields := by
  rw [fields, steps_andThen]
  split
  · exact List.filterMap_append
  · rfl

theorem fields_andThen_of_none {t : Traversal} (h : t.fault = none) (u : Traversal) :
    (t.andThen u).fields = t.fields ++ u.fields := by
  rw [fields_andThen, if_pos h]

theorem fields_andThen_of_some {t : Traversal} {e : FragmentError} (h : t.fault = some e)
    (u : Traversal) : (t.andThen u).fields = t.fields := by
  rw [fields_andThen, if_neg (h ▸ Option.some_ne_none e)]

theorem fields_record (s : Step) (t : Traversal) :
    (record s t).fields = s.field?.toList ++ t.fields := by
  cases s <;> rfl

@[simp] theorem fields_record_field (f : Field) (t : Traversal) :
    (record (.field f) t).fields = f :: t.fields := rfl

end Traversal

/-! ## The walk -/

/-- The number of defined fragments that are not being expanded. -/
def unentered (fragments : FragmentTable) (stack : List String) : Nat :=
  fragments.keys.countP (fun n => n ∉ stack)

private theorem countP_lt_of_mem {α : Type} {p q : α → Bool} {l : List α} {a : α}
    (hsub : ∀ x, q x = true → p x = true) (ha : a ∈ l) (hp : p a = true) (hq : q a = false) :
    l.countP q < l.countP p := by
  induction l with
  | nil => cases ha
  | cons b l ih =>
    have hle : l.countP q ≤ l.countP p := List.countP_mono_left fun x _ => hsub x
    rw [List.countP_cons, List.countP_cons]
    rcases List.mem_cons.1 ha with rfl | ha
    · simp [hp, hq]; omega
    · have := ih ha
      have hb : (if q b = true then 1 else 0) ≤ (if p b = true then 1 else 0) := by
        by_cases h : q b = true
        · simp [h, hsub b h]
        · simp [h]
      omega

/-- Entering a defined fragment leaves fewer to be entered. -/
theorem unentered_lt {fragments : FragmentTable} {stack : List String} {name : String}
    {fragment : Fragment} (hnew : name ∉ stack) (hdef : fragments.find? name = some fragment) :
    unentered fragments (stack ++ [name]) < unentered fragments stack := by
  refine countP_lt_of_mem (a := name) ?_ (KeyedList.mem_keys_of_find? hdef) ?_ ?_
  · intro n hn
    simp only [List.mem_append, not_or, decide_eq_true_eq] at hn ⊢
    exact hn.1
  · simpa using hnew
  · simp

/-- Walk through a selection set inside of the fragments on `stack`. -/
def traverse (fragments : FragmentTable) (mode : InlineMode) (stack : List String) :
    List Selection → Traversal
  | [] => .done
  | .field f :: rest => .record (.field f) (traverse fragments mode stack rest)
  | .spread name :: rest =>
    if _ : name ∈ stack then .stop (.fragmentCycle (stack ++ [name]))
    else
      match _ : fragments.find? name with
      | none => .stop (.unknownFragment name)
      | some fragment =>
        .record (.enter name)
          ((traverse fragments mode (stack ++ [name]) fragment.selections).andThen
            (.record (.leave name) (traverse fragments mode stack rest)))
  | .inline typeCondition selections :: rest =>
    match mode with
    | .skip => .record (.skip typeCondition) (traverse fragments .skip stack rest)
    | .expand =>
      (traverse fragments .expand stack selections).andThen (traverse fragments .expand stack rest)
termination_by selections => (unentered fragments stack, sizeOf selections)
decreasing_by
  all_goals first
    | exact Prod.Lex.left _ _ (unentered_lt ‹_› ‹_›)
    | exact Prod.Lex.right _ (by
        simp only [List.cons.sizeOf_spec, Selection.inline.sizeOf_spec]
        omega)

section Equations

variable (fragments : FragmentTable) (mode : InlineMode) (stack : List String)

@[simp] theorem traverse_nil : traverse fragments mode stack [] = .done := by rw [traverse]

@[simp] theorem traverse_field (f : Field) (rest : List Selection) :
    traverse fragments mode stack (.field f :: rest)
      = .record (.field f) (traverse fragments mode stack rest) := by
  rw [traverse]

/-- The spread of a fragment that is being expanded stops the walk, defined or not. -/
theorem traverse_spread_of_mem {name : String} (h : name ∈ stack) (rest : List Selection) :
    traverse fragments mode stack (.spread name :: rest)
      = .stop (.fragmentCycle (stack ++ [name])) := by
  rw [traverse, dif_pos h]

/-- The spread of a fragment that is not defined stops the walk. -/
theorem traverse_spread_of_none {name : String} (h : name ∉ stack)
    (hdef : fragments.find? name = none) (rest : List Selection) :
    traverse fragments mode stack (.spread name :: rest) = .stop (.unknownFragment name) := by
  rw [traverse, dif_neg h]
  split
  · rfl
  · next h' => rw [hdef] at h'; cases h'

/-- Any other spread is entered, its body visited in its place, and left. -/
theorem traverse_spread_of_some {name : String} (h : name ∉ stack) {fragment : Fragment}
    (hdef : fragments.find? name = some fragment) (rest : List Selection) :
    traverse fragments mode stack (.spread name :: rest)
      = .record (.enter name)
          ((traverse fragments mode (stack ++ [name]) fragment.selections).andThen
            (.record (.leave name) (traverse fragments mode stack rest))) := by
  rw [traverse, dif_neg h]
  split
  · next h' => rw [hdef] at h'; cases h'
  · next h' => rw [hdef] at h'; cases h'; rfl

@[simp] theorem traverse_inline_skip (typeCondition : Option String)
    (selections rest : List Selection) :
    traverse fragments .skip stack (.inline typeCondition selections :: rest)
      = .record (.skip typeCondition) (traverse fragments .skip stack rest) := by
  rw [traverse]

@[simp] theorem traverse_inline_expand (typeCondition : Option String)
    (selections rest : List Selection) :
    traverse fragments .expand stack (.inline typeCondition selections :: rest)
      = (traverse fragments .expand stack selections).andThen
          (traverse fragments .expand stack rest) := by
  rw [traverse]

/-- A walk through two selection sets written one after the other. -/
theorem traverse_append (s t : List Selection) :
    traverse fragments mode stack (s ++ t)
      = (traverse fragments mode stack s).andThen (traverse fragments mode stack t) := by
  induction s with
  | nil => simp
  | cons a s ih =>
    rw [List.cons_append]
    cases a with
    | field f => simp [ih]
    | spread name =>
      by_cases hnew : name ∈ stack
      · simp [traverse_spread_of_mem fragments mode stack hnew]
      · cases hdef : fragments.find? name with
        | none => simp [traverse_spread_of_none fragments mode stack hnew hdef]
        | some fragment =>
          simp [traverse_spread_of_some fragments mode stack hnew hdef, ih,
            Traversal.andThen_assoc]
    | inline typeCondition selections =>
      cases mode with
      | skip => simp [ih]
      | expand => simp [ih, Traversal.andThen_assoc]

/-- A walk through one selection and then through those behind it. -/
theorem traverse_cons (a : Selection) (s : List Selection) :
    traverse fragments mode stack (a :: s)
      = (traverse fragments mode stack [a]).andThen (traverse fragments mode stack s) := by
  rw [← traverse_append, List.singleton_append]

end Equations

/-- Walk through several selection sets one after the other, inside of no fragment, up to the first
fault. -/
def traverseAll (fragments : FragmentTable) (mode : InlineMode) : List (List Selection) → Traversal
  | [] => .done
  | s :: sets => (traverse fragments mode [] s).andThen (traverseAll fragments mode sets)

/-- As no fragment is open between two of them, the sets could as well be written as one. -/
theorem traverseAll_eq_flatten (fragments : FragmentTable) (mode : InlineMode)
    (sets : List (List Selection)) :
    traverseAll fragments mode sets = traverse fragments mode [] sets.flatten := by
  induction sets with
  | nil => simp [traverseAll]
  | cons s sets ih => rw [traverseAll, ih, List.flatten_cons, traverse_append]

theorem traverseAll_append (fragments : FragmentTable) (mode : InlineMode)
    (sets sets' : List (List Selection)) :
    traverseAll fragments mode (sets ++ sets')
      = (traverseAll fragments mode sets).andThen (traverseAll fragments mode sets') := by
  simp only [traverseAll_eq_flatten, List.flatten_append, traverse_append]

end RequestedFields
