import Mathlib.Data.List.Induction
import Mathlib.Data.List.Nodup
import Mathlib.Logic.Relation
import Mathlib.Order.WellFounded
import RequestedFields.Proofs.PathExtension
import RequestedFields.Proofs.Places

/-!
# One stack for all open fragments

`traverse` is told the fragments that are open, and tells every walk that it begins its own.  A walk
can as well be done with **one stack** that is pushed to when a fragment is entered and popped when
it is left, whatever is on it then.  Nothing in such a walk says that it ends, that a name is taken
off by the one that put it on, or that a walk through several selection sets does not carry a name
from one of them to the next.  All of this is so, and it is why passing the names along comes to the
same.

* **It ends**, for every table, cyclic or not (`exists_visits`).  A call that is made on the way has
  fewer fragments left that are not open, or as many and less to go through, and so no calls go on
  for ever (`Visit.wellFounded_calls`).
* **It is balanced**: where it comes to the end it leaves the stack as it found it
  (`Visits.stack_eq`).
* **What is open makes a chain**, from the selections where the walk began to the call that is being
  worked on: each name is spread in the definition of the one before it, all of them are defined and
  none of them stands there twice, so there are no more of them than definitions
  (`Visit.ledTo_of_calls`, `Visit.LedTo.length_le`).

The induction for the last of these needs to know of a call not only what is open but also where its
selections come from: what they spread may come next (`Visit.LedTo.next`).

* `Visits`, `VisitsAll` — walks with a stack, through a selection set and through several.
* `visits_iff`, `visitsAll_iff` — they do what `traverse` does.
* `Visit`, `Visit.Calls` — the calls of such a walk, and which of them make which others.
* `AtLevel`, `atLevel_iff` — what a level begins with where a path is followed with one stack.
* `VisitsPath`, `visitsPath_iff` — the whole path on one stack, and that it is followed so as
  `PathWalk.ofRoot` follows it.
* `stack_invariant` — all of it, for collecting and for following a path.
-/

set_option autoImplicit false

namespace RequestedFields

/-! ## Walks with a stack -/

/-- A walk through a selection set on a stack: what it writes into the journal, and the stack that
it leaves or the error that it is stopped by. -/
inductive Visits (fragments : FragmentTable) (mode : InlineMode) :
    List String → List Selection → List Step → Except FragmentError (List String) → Prop
  | nil (stack : List String) : Visits fragments mode stack [] [] (.ok stack)
  | field {stack : List String} {rest : List Selection} {steps : List Step}
      {r : Except FragmentError (List String)} (f : Field)
      (h : Visits fragments mode stack rest steps r) :
      Visits fragments mode stack (.field f :: rest) (.field f :: steps) r
  /-- The fragment is open already. -/
  | cycle {stack : List String} {name : String} (hopen : name ∈ stack) (rest : List Selection) :
      Visits fragments mode stack (.spread name :: rest) []
        (.error (.fragmentCycle (stack ++ [name])))
  /-- There is no such fragment. -/
  | unknown {stack : List String} {name : String} (hnew : name ∉ stack)
      (hdef : fragments.find? name = none) (rest : List Selection) :
      Visits fragments mode stack (.spread name :: rest) [] (.error (.unknownFragment name))
  /-- The name is pushed, the body is visited, and then the last name is popped. -/
  | body {stack stack' : List String} {name : String} {fragment : Fragment}
      {rest : List Selection} {inner steps : List Step} {r : Except FragmentError (List String)}
      (hnew : name ∉ stack) (hdef : fragments.find? name = some fragment)
      (hbody : Visits fragments mode (stack ++ [name]) fragment.selections inner (.ok stack'))
      (h : Visits fragments mode stack'.dropLast rest steps r) :
      Visits fragments mode stack (.spread name :: rest)
        (.enter name :: (inner ++ .leave name :: steps)) r
  /-- The body is not visited to its end, and nothing is popped any more. -/
  | bodyStopped {stack : List String} {name : String} {fragment : Fragment} {inner : List Step}
      {e : FragmentError} (hnew : name ∉ stack) (hdef : fragments.find? name = some fragment)
      (hbody : Visits fragments mode (stack ++ [name]) fragment.selections inner (.error e))
      (rest : List Selection) :
      Visits fragments mode stack (.spread name :: rest) (.enter name :: inner) (.error e)
  | skip {stack : List String} {rest : List Selection} {steps : List Step}
      {r : Except FragmentError (List String)} (hmode : mode = .skip)
      (typeCondition : Option String) (selections : List Selection)
      (h : Visits fragments mode stack rest steps r) :
      Visits fragments mode stack (.inline typeCondition selections :: rest)
        (.skip typeCondition :: steps) r
  | inside {stack stack' : List String} {selections rest : List Selection}
      {inner steps : List Step} {r : Except FragmentError (List String)} (hmode : mode = .expand)
      (typeCondition : Option String)
      (hinner : Visits fragments mode stack selections inner (.ok stack'))
      (h : Visits fragments mode stack' rest steps r) :
      Visits fragments mode stack (.inline typeCondition selections :: rest) (inner ++ steps) r
  | insideStopped {stack : List String} {selections : List Selection} {inner : List Step}
      {e : FragmentError} (hmode : mode = .expand) (typeCondition : Option String)
      (hinner : Visits fragments mode stack selections inner (.error e)) (rest : List Selection) :
      Visits fragments mode stack (.inline typeCondition selections :: rest) inner (.error e)

/-- Walks through several selection sets one after the other, each on the stack that the one before
it has left. -/
inductive VisitsAll (fragments : FragmentTable) (mode : InlineMode) :
    List String → List (List Selection) → List Step → Except FragmentError (List String) → Prop
  | nil (stack : List String) : VisitsAll fragments mode stack [] [] (.ok stack)
  | next {stack stack' : List String} {s : List Selection} {sets : List (List Selection)}
      {inner steps : List Step} {r : Except FragmentError (List String)}
      (hfirst : Visits fragments mode stack s inner (.ok stack'))
      (h : VisitsAll fragments mode stack' sets steps r) :
      VisitsAll fragments mode stack (s :: sets) (inner ++ steps) r
  | stopped {stack : List String} {s : List Selection} {inner : List Step} {e : FragmentError}
      (hfirst : Visits fragments mode stack s inner (.error e)) (sets : List (List Selection)) :
      VisitsAll fragments mode stack (s :: sets) inner (.error e)

/-- What is left of a stack by a walk that gives it back: the stack as it was, or the error. -/
def leaves (stack : List String) : Option FragmentError → Except FragmentError (List String)
  | none => .ok stack
  | some e => .error e

section

variable {fragments : FragmentTable} {mode : InlineMode} {stack stack' : List String}
  {s : List Selection} {steps : List Step} {r : Except FragmentError (List String)}

theorem leaves_eq_ok_iff {fault : Option FragmentError} :
    leaves stack fault = .ok stack' ↔ fault = none ∧ stack = stack' := by
  cases fault <;> simp [leaves]

theorem leaves_eq_error_iff {fault : Option FragmentError} {e : FragmentError} :
    leaves stack fault = .error e ↔ fault = some e := by
  cases fault <;> simp [leaves]

/-! ## The same walk -/

/-- A fragment that is entered with a stack, if the walks through its body and behind it give the
stack back. -/
theorem visits_spread {name : String} {fragment : Fragment} {rest : List Selection}
    {t u : Traversal} (hnew : name ∉ stack) (hdef : fragments.find? name = some fragment)
    (hbody : Visits fragments mode (stack ++ [name]) fragment.selections t.steps
      (leaves (stack ++ [name]) t.fault))
    (hrest : Visits fragments mode stack rest u.steps (leaves stack u.fault)) :
    Visits fragments mode stack (.spread name :: rest)
      (Traversal.record (.enter name) (t.andThen (.record (.leave name) u))).steps
      (leaves stack
        (Traversal.record (.enter name) (t.andThen (.record (.leave name) u))).fault) := by
  rcases t with ⟨inner, _ | e⟩
  · have hpopped : Visits fragments mode (stack ++ [name]).dropLast rest u.steps
        (leaves stack u.fault) := by rwa [List.dropLast_concat]
    exact .body hnew hdef hbody hpopped
  · exact .bodyStopped hnew hdef hbody rest

/-- An inline fragment that is expanded. -/
theorem visits_inline {selections rest : List Selection} {t u : Traversal}
    (typeCondition : Option String)
    (hinner : Visits fragments .expand stack selections t.steps (leaves stack t.fault))
    (hrest : Visits fragments .expand stack rest u.steps (leaves stack u.fault)) :
    Visits fragments .expand stack (.inline typeCondition selections :: rest)
      (t.andThen u).steps (leaves stack (t.andThen u).fault) := by
  rcases t with ⟨inner, _ | e⟩
  · exact .inside rfl typeCondition hinner hrest
  · exact .insideStopped rfl typeCondition hinner rest

/-- **What a walk does to which the open fragments are passed, can be done with a stack.** -/
theorem visits_traverse (fragments : FragmentTable) (mode : InlineMode) (stack : List String)
    (s : List Selection) :
    Visits fragments mode stack s (traverse fragments mode stack s).steps
      (leaves stack (traverse fragments mode stack s).fault) := by
  fun_induction traverse fragments mode stack s with
  | case1 mode stack => exact .nil stack
  | case2 mode stack f rest ih => exact .field f ih
  | case3 mode stack name rest hopen => exact .cycle hopen rest
  | case4 mode stack name rest hnew hdef => exact .unknown hnew hdef rest
  | case5 mode stack name rest hnew fragment hdef ihBody ihRest =>
    exact visits_spread hnew hdef ihBody ihRest
  | case6 stack typeCondition selections rest ih => exact .skip rfl typeCondition selections ih
  | case7 stack typeCondition selections rest ihInner ihRest =>
    exact visits_inline typeCondition ihInner ihRest

/-- **What a walk does with a stack, is what it does if the open fragments are passed to it.** -/
theorem Visits.traverse_eq (h : Visits fragments mode stack s steps r) :
    (traverse fragments mode stack s).steps = steps ∧
      leaves stack (traverse fragments mode stack s).fault = r := by
  induction h with
  | nil stack =>
    rw [traverse_nil]
    exact ⟨rfl, rfl⟩
  | field f _ ih =>
    obtain ⟨rfl, rfl⟩ := ih
    rw [traverse_field]
    exact ⟨rfl, rfl⟩
  | cycle hopen rest =>
    rw [traverse_spread_of_mem _ _ _ hopen]
    exact ⟨rfl, rfl⟩
  | unknown hnew hdef rest =>
    rw [traverse_spread_of_none _ _ _ hnew hdef]
    exact ⟨rfl, rfl⟩
  | body hnew hdef _ _ ihBody ih =>
    obtain ⟨rfl, hinner⟩ := ihBody
    obtain ⟨hnone, rfl⟩ := leaves_eq_ok_iff.1 hinner
    -- the walk through the body leaves the name on the stack that was put there for it
    rw [List.dropLast_concat] at ih
    obtain ⟨rfl, rfl⟩ := ih
    rw [traverse_spread_of_some _ _ _ hnew hdef, Traversal.andThen_of_none hnone]
    exact ⟨rfl, rfl⟩
  | bodyStopped hnew hdef _ rest ihBody =>
    obtain ⟨rfl, hinner⟩ := ihBody
    have hfault := leaves_eq_error_iff.1 hinner
    rw [traverse_spread_of_some _ _ _ hnew hdef, Traversal.andThen_of_some hfault]
    exact ⟨rfl, congrArg (leaves _) hfault⟩
  | skip hmode typeCondition selections _ ih =>
    subst hmode
    obtain ⟨rfl, rfl⟩ := ih
    rw [traverse_inline_skip]
    exact ⟨rfl, rfl⟩
  | inside hmode typeCondition _ _ ihInner ih =>
    subst hmode
    obtain ⟨rfl, hinner⟩ := ihInner
    obtain ⟨hnone, rfl⟩ := leaves_eq_ok_iff.1 hinner
    obtain ⟨rfl, rfl⟩ := ih
    rw [traverse_inline_expand, Traversal.andThen_of_none hnone]
    exact ⟨rfl, rfl⟩
  | insideStopped hmode typeCondition _ rest ihInner =>
    subst hmode
    obtain ⟨rfl, hinner⟩ := ihInner
    have hfault := leaves_eq_error_iff.1 hinner
    rw [traverse_inline_expand, Traversal.andThen_of_some hfault]
    exact ⟨rfl, congrArg (leaves _) hfault⟩

/-- **Both walks are the same.** -/
theorem visits_iff : Visits fragments mode stack s steps r ↔
    (traverse fragments mode stack s).steps = steps ∧
      leaves stack (traverse fragments mode stack s).fault = r := by
  refine ⟨Visits.traverse_eq, ?_⟩
  rintro ⟨rfl, rfl⟩
  exact visits_traverse fragments mode stack s

/-- **A walk that comes to the end leaves the stack as it found it.** -/
theorem Visits.stack_eq (h : Visits fragments mode stack s steps (.ok stack')) :
    stack' = stack :=
  (leaves_eq_ok_iff.1 h.traverse_eq.2).2.symm

/-- **A walk with a stack ends**, whatever the table and whatever is on the stack. -/
theorem exists_visits (fragments : FragmentTable) (mode : InlineMode) (stack : List String)
    (s : List Selection) : ∃ steps r, Visits fragments mode stack s steps r :=
  ⟨_, _, visits_traverse fragments mode stack s⟩

/-! ## Several selection sets -/

theorem visitsAll_traverse (fragments : FragmentTable) (mode : InlineMode) (stack : List String)
    (sets : List (List Selection)) :
    VisitsAll fragments mode stack sets (traverse fragments mode stack sets.flatten).steps
      (leaves stack (traverse fragments mode stack sets.flatten).fault) := by
  induction sets with
  | nil =>
    rw [List.flatten_nil, traverse_nil]
    exact .nil stack
  | cons s sets ih =>
    have hfirst := visits_traverse fragments mode stack s
    rw [List.flatten_cons, traverse_append]
    cases hf : (traverse fragments mode stack s).fault with
    | none =>
      rw [hf] at hfirst
      rw [Traversal.andThen_of_none hf]
      exact .next hfirst ih
    | some e =>
      rw [hf] at hfirst
      rw [Traversal.andThen_of_some hf, hf]
      exact .stopped hfirst sets

theorem VisitsAll.traverse_eq {sets : List (List Selection)}
    (h : VisitsAll fragments mode stack sets steps r) :
    (traverse fragments mode stack sets.flatten).steps = steps ∧
      leaves stack (traverse fragments mode stack sets.flatten).fault = r := by
  induction h with
  | nil stack =>
    rw [List.flatten_nil, traverse_nil]
    exact ⟨rfl, rfl⟩
  | next hfirst _ ih =>
    obtain ⟨rfl, hstack⟩ := hfirst.traverse_eq
    obtain ⟨hnone, rfl⟩ := leaves_eq_ok_iff.1 hstack
    obtain ⟨rfl, rfl⟩ := ih
    rw [List.flatten_cons, traverse_append, Traversal.andThen_of_none hnone]
    exact ⟨rfl, rfl⟩
  | stopped hfirst sets =>
    obtain ⟨rfl, herror⟩ := hfirst.traverse_eq
    have hfault := leaves_eq_error_iff.1 herror
    rw [List.flatten_cons, traverse_append, Traversal.andThen_of_some hfault]
    exact ⟨rfl, congrArg (leaves _) hfault⟩

/-- **On one stack, several selection sets are visited as one**: none finds a name that another has
left on it. -/
theorem visitsAll_iff {sets : List (List Selection)} :
    VisitsAll fragments mode stack sets steps r ↔
      (traverse fragments mode stack sets.flatten).steps = steps ∧
        leaves stack (traverse fragments mode stack sets.flatten).fault = r := by
  refine ⟨VisitsAll.traverse_eq, ?_⟩
  rintro ⟨rfl, rfl⟩
  exact visitsAll_traverse fragments mode stack sets

theorem VisitsAll.stack_eq {sets : List (List Selection)}
    (h : VisitsAll fragments mode stack sets steps (.ok stack')) : stack' = stack :=
  (leaves_eq_ok_iff.1 h.traverse_eq.2).2.symm

end

/-! ## The calls of a walk -/

/-- A call: the stack that it begins with, and the selections that it is to go through. -/
structure Visit where
  stack : List String
  selections : List Selection

/-- One call makes another on its way: it has come to a spread or to an inline fragment, with the
stack that it has at that moment. -/
inductive Visit.Calls (fragments : FragmentTable) (mode : InlineMode) : Visit → Visit → Prop
  /-- For the body of a fragment, with the name pushed. -/
  | body {stack stack' : List String} {front : List Selection} {steps : List Step} {name : String}
      {fragment : Fragment} (hfront : Visits fragments mode stack front steps (.ok stack'))
      (hnew : name ∉ stack') (hdef : fragments.find? name = some fragment)
      (behind : List Selection) :
      Calls fragments mode ⟨stack, front ++ .spread name :: behind⟩
        ⟨stack' ++ [name], fragment.selections⟩
  /-- For the selections of an inline fragment. -/
  | inside {stack stack' : List String} {front : List Selection} {steps : List Step}
      (hfront : Visits fragments mode stack front steps (.ok stack')) (hmode : mode = .expand)
      (typeCondition : Option String) (selections behind : List Selection) :
      Calls fragments mode ⟨stack, front ++ .inline typeCondition selections :: behind⟩
        ⟨stack', selections⟩

/-- What is so of every call of a walk through `s`. -/
structure Visit.LedTo (fragments : FragmentTable) (mode : InlineMode) (s : List Selection)
    (v : Visit) : Prop where
  /-- No fragment is open twice. -/
  distinct : v.stack.Nodup
  /-- Every open fragment is defined. -/
  defined : ∀ name ∈ v.stack, fragments.find? name ≠ none
  /-- The open fragments lead here, each spread in the definition of the one before. -/
  chain : SpreadChain fragments mode s v.stack
  /-- They lead on to what the selections spread. -/
  next : ∀ name ∈ openSpreads mode v.selections, SpreadChain fragments mode s (v.stack ++ [name])

section

variable {fragments : FragmentTable} {mode : InlineMode} {s : List Selection} {v w : Visit}

theorem SpreadChain.concat {names : List String} {a b : String}
    (h : SpreadChain fragments mode s (names ++ [a])) (hab : Spreads fragments mode a b) :
    SpreadChain fragments mode s (names ++ [a] ++ [b]) where
  head hfirst := h.head (by simpa using hfirst)
  links := h.links.append (.singleton b) (by simpa using hab)

/-- Nothing is open where the walk begins. -/
theorem Visit.ledTo_root (fragments : FragmentTable) (mode : InlineMode) (s : List Selection) :
    Visit.LedTo fragments mode s ⟨[], s⟩ where
  distinct := .nil
  defined _ h := absurd h List.not_mem_nil
  chain := ⟨nofun, .nil⟩
  next name hname := ⟨fun h ↦ Option.some.inj h ▸ hname, .singleton name⟩

/-- **Every call hands it on** to the calls that it makes. -/
theorem Visit.LedTo.calls (h : v.LedTo fragments mode s) (hcall : v.Calls fragments mode w) :
    w.LedTo fragments mode s := by
  cases hcall with
  | @body stack stack' front _ name fragment hfront hnew hdef behind =>
    obtain rfl := hfront.stack_eq
    have hname : name ∈ openSpreads mode (front ++ .spread name :: behind) :=
      mem_openSpreads_of_mem (List.mem_append_right _ List.mem_cons_self) List.mem_cons_self
    have hdistinct : (stack' ++ [name]).Nodup := List.concat_eq_append ▸ h.distinct.concat hnew
    have hdefined : ∀ outer ∈ stack' ++ [name], fragments.find? outer ≠ none :=
      List.forall_mem_append.2 ⟨h.defined, by simp [hdef]⟩
    exact ⟨hdistinct, hdefined, h.next name hname,
      fun other hother ↦ (h.next name hname).concat ⟨fragment, hdef, hother⟩⟩
  | @inside stack _ front _ hfront hmode typeCondition selections behind =>
    obtain rfl := hfront.stack_eq
    subst hmode
    refine ⟨h.distinct, h.defined, h.chain, fun name hname ↦ h.next name ?_⟩
    exact mem_openSpreads_of_mem (List.mem_append_right _ List.mem_cons_self) hname

/-- **What is open at a call makes a chain** from the selections where the walk began. -/
theorem Visit.ledTo_of_calls
    (h : Relation.ReflTransGen (Visit.Calls fragments mode) ⟨[], s⟩ v) :
    v.LedTo fragments mode s := by
  induction h with
  | refl => exact Visit.ledTo_root fragments mode s
  | tail _ hcall ih => exact ih.calls hcall

/-- There are no more open fragments than definitions. -/
theorem Visit.LedTo.length_le (h : v.LedTo fragments mode s) :
    v.stack.length ≤ fragments.size := by
  have hkeys : v.stack ⊆ fragments.keys := fun name hname ↦ by
    obtain ⟨fragment, hdef⟩ := Option.ne_none_iff_exists'.1 (h.defined name hname)
    exact KeyedList.mem_keys_of_find? hdef
  exact (h.distinct.length_le_of_subset hkeys).trans_eq (List.length_map _)

/-- **No calls go on for ever.** -/
theorem Visit.wellFounded_calls (fragments : FragmentTable) (mode : InlineMode) :
    WellFounded fun w v : Visit ↦ v.Calls fragments mode w := by
  -- fewer fragments are left to enter, or as many and fewer selections
  let measure (v : Visit) : Nat × Nat := (unentered fragments v.stack, sizeOf v.selections)
  refine Subrelation.wf ?_
    (InvImage.wf measure (WellFounded.prod_lex wellFounded_lt wellFounded_lt))
  intro w v hcall
  cases hcall with
  | body hfront hnew hdef behind =>
    obtain rfl := hfront.stack_eq
    exact Prod.Lex.left _ _ (unentered_lt hnew hdef)
  | @inside _ _ front _ hfront _ typeCondition selections behind =>
    obtain rfl := hfront.stack_eq
    have hmem : Selection.inline typeCondition selections
        ∈ front ++ .inline typeCondition selections :: behind := by simp
    have hlt : sizeOf selections
        < sizeOf (front ++ .inline typeCondition selections :: behind) := by
      have := List.sizeOf_lt_of_mem hmem
      rw [Selection.inline.sizeOf_spec] at this
      omega
    exact Prod.Lex.right _ hlt

end

/-! ## From level to level -/

/-- A path is followed with one stack: the keys of `walked` have led to the selection sets of a
level, which begins with what the levels above have left on the stack. -/
inductive AtLevel (fragments : FragmentTable) (root : List Selection) :
    List String → List (List Selection) → List String → Prop
  | root : AtLevel fragments root [] [root] []
  | next {walked stack stack' : List String} {sets : List (List Selection)} {steps : List Step}
      {found : List Field} (habove : AtLevel fragments root walked sets stack)
      (hsets : VisitsAll fragments .expand stack sets steps (.ok stack')) {key : String}
      (hfound : matchesOf key (steps.filterMap Step.field?) = found) (hne : found ≠ []) :
      AtLevel fragments root (walked ++ [key]) (found.map Field.selections) stack'

section

variable {fragments : FragmentTable} {root : List Selection} {walked stack : List String}
  {sets : List (List Selection)}

/-- What is found on a level, is found by a walk on the empty stack. -/
theorem outcome_level_eq_ok_iff_visitsAll {key : String} {found : List Field} :
    (PathWalk.level fragments walked sets key).outcome = .ok found ↔
      ∃ steps, VisitsAll fragments .expand [] sets steps (.ok []) ∧
        matchesOf key (steps.filterMap Step.field?) = found ∧ found ≠ [] := by
  rw [PathWalk.outcome_level_eq_ok_iff, Traversal.fields]
  constructor
  · rintro ⟨hfault, hne, hfound⟩
    exact ⟨_, visitsAll_iff.2 ⟨rfl, leaves_eq_ok_iff.2 ⟨hfault, rfl⟩⟩, hfound, hne⟩
  · rintro ⟨steps, hsets, hfound, hne⟩
    obtain ⟨rfl, hleft⟩ := hsets.traverse_eq
    exact ⟨(leaves_eq_ok_iff.1 hleft).1, hne, hfound⟩

/-- **Every level begins with an empty stack**, and what it has to go through is what the path leads
to. -/
theorem atLevel_iff : AtLevel fragments root walked sets stack ↔
    PathWalk.reached fragments root walked = .ok sets ∧ stack = [] := by
  constructor
  · intro h
    induction h with
    | root => exact ⟨rfl, rfl⟩
    | @next walked _ _ sets _ found _ hsets key hfound hne ih =>
      obtain ⟨hreached, rfl⟩ := ih
      obtain rfl := hsets.stack_eq
      have hlevel : (PathWalk.level fragments walked sets key).outcome = .ok found :=
        outcome_level_eq_ok_iff_visitsAll.2 ⟨_, hsets, hfound, hne⟩
      exact ⟨PathWalk.reached_concat_eq_ok_iff.2 ⟨_, _, hreached, hlevel, rfl⟩, rfl⟩
  · rintro ⟨hreached, rfl⟩
    induction walked using List.reverseRecOn generalizing sets with
    | nil =>
      cases hreached
      exact .root
    | append_singleton walked key ih =>
      obtain ⟨above, found, habove, hlevel, rfl⟩ := PathWalk.reached_concat_eq_ok_iff.1 hreached
      obtain ⟨steps, hsets, hfound, hne⟩ := outcome_level_eq_ok_iff_visitsAll.1 hlevel
      exact .next (ih habove) hsets hfound hne

end

/-! ## A whole path -/

/-- One level on a stack: its selection sets are visited, and then it is judged.  What is found
comes with the stack that the next level begins with. -/
inductive VisitsLevel (fragments : FragmentTable) (walked stack : List String)
    (sets : List (List Selection)) (key : String) :
    List Step → Except PathError (List Field × List String) → Prop
  | stopped {steps : List Step} {e : FragmentError}
      (hsets : VisitsAll fragments .expand stack sets steps (.error e)) :
      VisitsLevel fragments walked stack sets key steps (.error (.fragment e))
  | notFound {steps : List Step} {stack' : List String}
      (hsets : VisitsAll fragments .expand stack sets steps (.ok stack'))
      (hnone : matchesOf key (steps.filterMap Step.field?) = []) :
      VisitsLevel fragments walked stack sets key steps (.error (.fieldNotFound (walked ++ [key])))
  | found {steps : List Step} {stack' : List String} {found : List Field}
      (hsets : VisitsAll fragments .expand stack sets steps (.ok stack'))
      (hfound : matchesOf key (steps.filterMap Step.field?) = found) (hne : found ≠ []) :
      VisitsLevel fragments walked stack sets key steps (.ok (found, stack'))

/-- The levels from `key` on, all on one stack, up to the last or to the first that fails. -/
inductive VisitsLevels (fragments : FragmentTable) :
    (walked stack : List String) → (sets : List (List Selection)) → (key : String) →
      (rest : List String) → List Step → Except PathError (List Field) → Prop
  | failed {walked stack : List String} {sets : List (List Selection)} {key : String}
      {steps : List Step} {e : PathError}
      (h : VisitsLevel fragments walked stack sets key steps (.error e)) (rest : List String) :
      VisitsLevels fragments walked stack sets key rest steps (.error e)
  | arrived {walked stack stack' : List String} {sets : List (List Selection)} {key : String}
      {steps : List Step} {found : List Field}
      (h : VisitsLevel fragments walked stack sets key steps (.ok (found, stack'))) :
      VisitsLevels fragments walked stack sets key [] steps (.ok found)
  | next {walked stack stack' rest : List String} {sets : List (List Selection)}
      {key next : String} {steps below : List Step} {found : List Field}
      {o : Except PathError (List Field)}
      (h : VisitsLevel fragments walked stack sets key steps (.ok (found, stack')))
      (hbelow : VisitsLevels fragments (walked ++ [key]) stack' (found.map Field.selections) next
        rest below o) :
      VisitsLevels fragments walked stack sets key (next :: rest) (steps ++ below) o

/-- A path is followed from the selection set of an operation with one stack, which is empty in the
beginning. -/
inductive VisitsPath (fragments : FragmentTable) (root : List Selection) :
    List String → List Step → Except PathError (List Field) → Prop
  | emptyPath : VisitsPath fragments root [] [] (.error .emptyPath)
  | levels {key : String} {rest : List String} {steps : List Step}
      {o : Except PathError (List Field)}
      (h : VisitsLevels fragments [] [] [root] key rest steps o) :
      VisitsPath fragments root (key :: rest) steps o

section

variable {fragments : FragmentTable} {root : List Selection} {walked stack rest : List String}
  {sets : List (List Selection)} {key : String} {steps : List Step}

/-- A level that begins with the empty stack leaves the empty stack for the next. -/
theorem visitsLevel_level (fragments : FragmentTable) (walked : List String)
    (sets : List (List Selection)) (key : String) :
    VisitsLevel fragments walked [] sets key (PathWalk.level fragments walked sets key).steps
      ((PathWalk.level fragments walked sets key).outcome.map fun found ↦ (found, [])) := by
  have hvisits := visitsAll_traverse fragments .expand [] sets
  rw [PathWalk.steps_level, PathWalk.outcome_level]
  cases hfault : (traverse fragments .expand [] sets.flatten).fault with
  | some e =>
    rw [hfault] at hvisits
    exact .stopped hvisits
  | none =>
    rw [hfault] at hvisits
    cases hmatches : matchesOf key (traverse fragments .expand [] sets.flatten).fields with
    | nil => exact .notFound hvisits hmatches
    | cons f others => exact .found hvisits hmatches (List.cons_ne_nil f others)

/-- **A level on the empty stack is a level.** -/
theorem VisitsLevel.level_eq {r : Except PathError (List Field × List String)}
    (h : VisitsLevel fragments walked [] sets key steps r) :
    PathWalk.level fragments walked sets key = ⟨steps, r.map Prod.fst⟩ := by
  have hlevel : PathWalk.level fragments walked sets key
      = ⟨(PathWalk.level fragments walked sets key).steps,
          (PathWalk.level fragments walked sets key).outcome⟩ := rfl
  rw [hlevel, PathWalk.steps_level, PathWalk.outcome_level]
  cases h with
  | stopped hsets =>
    obtain ⟨rfl, hleft⟩ := hsets.traverse_eq
    rw [leaves_eq_error_iff.1 hleft]
    rfl
  | notFound hsets hnone =>
    obtain ⟨rfl, hleft⟩ := hsets.traverse_eq
    rw [(leaves_eq_ok_iff.1 hleft).1, Traversal.fields, hnone]
    rfl
  | found hsets hfound hne =>
    obtain ⟨rfl, hleft⟩ := hsets.traverse_eq
    obtain ⟨f, others, rfl⟩ := List.exists_cons_of_ne_nil hne
    rw [(leaves_eq_ok_iff.1 hleft).1, Traversal.fields, hfound]
    rfl

/-- The next level begins with the stack that this one began with. -/
theorem VisitsLevel.stack_eq {found : List Field} {stack' : List String}
    (h : VisitsLevel fragments walked stack sets key steps (.ok (found, stack'))) :
    stack' = stack := by
  cases h with
  | found hsets _ _ => exact hsets.stack_eq

/-- **What levels give on one stack, they give each on its own**: the stack that is handed from one
to the next is empty. -/
theorem VisitsLevels.follow_eq {o : Except PathError (List Field)}
    (h : VisitsLevels fragments walked stack sets key rest steps o) (hstack : stack = []) :
    PathWalk.follow fragments walked sets key rest = ⟨steps, o⟩ := by
  induction h with
  | failed h rest =>
    subst hstack
    cases rest with
    | nil => rw [PathWalk.follow, h.level_eq]; rfl
    | cons next rest => rw [PathWalk.follow_cons, h.level_eq]; rfl
  | arrived h =>
    subst hstack
    rw [PathWalk.follow, h.level_eq]
    rfl
  | next h _ ih =>
    -- the levels below begin with what this one has left
    have hbelow := ih (h.stack_eq.trans hstack)
    subst hstack
    rw [PathWalk.follow_cons, h.level_eq]
    simp only [Except.map, PathWalk.andThen, hbelow]

theorem visitsLevels_follow (fragments : FragmentTable) (walked : List String)
    (sets : List (List Selection)) (key : String) (rest : List String) :
    VisitsLevels fragments walked [] sets key rest
      (PathWalk.follow fragments walked sets key rest).steps
      (PathWalk.follow fragments walked sets key rest).outcome := by
  induction rest generalizing walked sets key with
  | nil =>
    have hlevel := visitsLevel_level fragments walked sets key
    rw [PathWalk.follow]
    cases houtcome : (PathWalk.level fragments walked sets key).outcome with
    | error e =>
      rw [houtcome] at hlevel
      exact .failed hlevel []
    | ok found =>
      rw [houtcome] at hlevel
      exact .arrived hlevel
  | cons next rest ih =>
    have hlevel := visitsLevel_level fragments walked sets key
    rw [PathWalk.follow_cons, PathWalk.andThen]
    cases houtcome : (PathWalk.level fragments walked sets key).outcome with
    | error e =>
      rw [houtcome] at hlevel
      exact .failed hlevel (next :: rest)
    | ok found =>
      rw [houtcome] at hlevel
      exact .next hlevel (ih (walked ++ [key]) _ next)

/-- **A path that is followed with one stack is followed as it is without.** -/
theorem visitsPath_iff {path : List String} {o : Except PathError (List Field)} :
    VisitsPath fragments root path steps o ↔
      PathWalk.ofRoot fragments root path = ⟨steps, o⟩ := by
  constructor
  · intro h
    cases h with
    | emptyPath => rfl
    | levels h => exact h.follow_eq rfl
  · intro h
    cases path with
    | nil =>
      cases h
      exact .emptyPath
    | cons key rest =>
      have hlevels := visitsLevels_follow fragments [] [root] key rest
      rw [PathWalk.ofRoot] at h
      rw [h] at hlevels
      exact .levels hlevels

end

/-! ## The invariant -/

/-- **The invariant of the stack.**  Every call that is made where a walk begins with an empty stack
finds distinct names on it, all defined, each of them spread in the definition of the one before,
and no more than there are definitions; the call ends, and if it comes to the end of its selections,
it leaves the stack as it found it.  No calls go on for ever.

Walks that begin so are those that collect the fields of a selection set, whatever the options, and
those through the selection sets of every level of a path, where one stack is used for all of
them.  A path that is followed with one stack from its first level to its last reports what it does,
and leads to the nodes or fails, as it does when each walk begins its own. -/
theorem stack_invariant (fragments : FragmentTable) :
    (∀ mode s v, Relation.ReflTransGen (Visit.Calls fragments mode) ⟨[], s⟩ v →
      v.LedTo fragments mode s ∧ v.stack.length ≤ fragments.size ∧
        (∃ steps r, Visits fragments mode v.stack v.selections steps r) ∧
        ∀ steps stack', Visits fragments mode v.stack v.selections steps (.ok stack') →
          stack' = v.stack) ∧
    (∀ mode, WellFounded fun w v : Visit ↦ v.Calls fragments mode w) ∧
    (∀ options s fields steps r, Visits fragments options.inlineFragments [] s steps r ↔
      (collectInto fragments options s fields).steps = steps ∧
        leaves [] (collectInto fragments options s fields).fault = r) ∧
    (∀ root path steps o, VisitsPath fragments root path steps o ↔
      PathWalk.ofRoot fragments root path = ⟨steps, o⟩) ∧
    (∀ root walked sets stack, AtLevel fragments root walked sets stack ↔
      PathWalk.reached fragments root walked = .ok sets ∧ stack = []) ∧
    ∀ root walked sets stack, AtLevel fragments root walked sets stack →
      (∀ steps r, VisitsAll fragments .expand stack sets steps r ↔
        (traverseAll fragments .expand sets).steps = steps ∧
          leaves [] (traverseAll fragments .expand sets).fault = r) ∧
      ∀ before s behind steps stack', sets = before ++ s :: behind →
        VisitsAll fragments .expand stack before steps (.ok stack') → stack' = [] := by
  refine ⟨fun mode s v hv ↦ ?_, Visit.wellFounded_calls fragments,
    fun options s fields steps r ↦ visits_iff, fun root path steps o ↦ visitsPath_iff,
    fun root walked sets stack ↦ atLevel_iff, fun root walked sets stack hlevel ↦ ?_⟩
  · have hled := Visit.ledTo_of_calls hv
    exact ⟨hled, hled.length_le, exists_visits fragments mode v.stack v.selections,
      fun steps stack' ↦ Visits.stack_eq⟩
  · obtain ⟨-, rfl⟩ := atLevel_iff.1 hlevel
    refine ⟨fun steps r ↦ ?_, fun before s behind steps stack' _ ↦ VisitsAll.stack_eq⟩
    rw [traverseAll_eq_flatten]
    exact visitsAll_iff

end RequestedFields
