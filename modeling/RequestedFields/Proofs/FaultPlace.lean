import Mathlib.Data.List.Nodup
import RequestedFields.Collection
import RequestedFields.PathWalk
import RequestedFields.Proofs.FieldsBefore

/-!
# The place of a fault

A walk that is stopped reports an undefined name, or the names of a cycle.  This file says what such
an error **certifies**: somewhere in the expansion stands a spread that is at fault for just the
reason given, the names in the error lead to it, and nothing in front of it is at fault.

`FaultAt` is that certificate, and it is worth as much as the error itself: a selection set has at
most one (`FaultAt.unique`), and a walk is stopped by an error exactly if the error has one
(`fault_traverse_eq_some_iff`).  So the guard never names a cycle that is not there, never leaves a
stale name on its stack, and never overlooks a fault and reports a later one.

The stack at the moment of the fault is where the names come from.  For the induction it has to be
told apart what was on it from the beginning and what was entered since, which is what `Stopped`
does; `Stopped.cons`, `Stopped.body` and `Stopped.inside` carry it to the place around.

* `ClearUpTo` — everything in front of a place has an expansion, except what encloses the place.
* `ReachedAt`, `FaultAt` — a spread that is come to with nothing at fault before it, and a spread
  that is at fault.
* `stop_induction`, `exists_stopped` — how a walk comes to be stopped; where it stops, and what it
  has met by then.
* `fault_eq_some_iff_faultAt` — the certificates of collections and of the levels of a path.
-/

set_option autoImplicit false

namespace RequestedFields

/-! ## Certificates -/

section

variable (fragments : FragmentTable) (mode : InlineMode) (s : List Selection)

/-- Everything that comes before a place in depth-first order and does not enclose it has an
expansion. -/
def ClearUpTo (place : List Nat) : Prop :=
  ∀ (earlier : List Nat) (enclosing : List String) (a : Selection),
    StandsAt fragments mode s earlier enclosing a → earlier < place → ¬ earlier <+: place →
      ∃ met, Expands fragments mode [a] met

/-- The spread of a fragment that is come to with nothing at fault before it. -/
structure ReachedAt (place : List Nat) (enclosing : List String) (name : String) : Prop where
  /-- The spread stands at the place, inside of the fragments `enclosing`. -/
  standsAt : StandsAt fragments mode s place enclosing (.spread name)
  /-- These fragments lead to it, each spread in the definition of the one before. -/
  chain : SpreadChain fragments mode s (enclosing ++ [name])
  /-- None of them is inside of itself. -/
  distinct : enclosing.Nodup
  /-- All of them are defined. -/
  defined : ∀ outer ∈ enclosing, fragments.find? outer ≠ none
  /-- Nothing before it is at fault. -/
  clear : ClearUpTo fragments mode s place

/-- The spread at a place is at fault, and this is the error. -/
inductive FaultAt : List Nat → FragmentError → Prop
  /-- It names no fragment that is defined. -/
  | unknownFragment {place : List Nat} {enclosing : List String} {name : String}
      (h : ReachedAt fragments mode s place enclosing name)
      (hdef : fragments.find? name = none) : FaultAt place (.unknownFragment name)
  /-- It is inside of the body of the fragment that it names. -/
  | fragmentCycle {place : List Nat} {enclosing : List String} {name : String}
      (h : ReachedAt fragments mode s place enclosing name)
      (honce : enclosing.count name = 1) : FaultAt place (.fragmentCycle (enclosing ++ [name]))

end

/-- What is wrong with the spread of a name inside of the given fragments. -/
def Blames (fragments : FragmentTable) (enclosing : List String) (name : String) :
    FragmentError → Prop
  | .unknownFragment unknown => unknown = name ∧ fragments.find? name = none
  | .fragmentCycle names => names = enclosing ++ [name] ∧ name ∈ enclosing

/-- Where a walk inside of the fragments on `stack` stops: the spread of `name`, inside of the
fragments `enclosing` that were entered since.  It has met the fields `met` by then. -/
structure Stopped (fragments : FragmentTable) (mode : InlineMode) (stack : List String)
    (s : List Selection) (met : List Field) (e : FragmentError) (place : List Nat)
    (enclosing : List String) (name : String) : Prop where
  /-- The spread stands at the place. -/
  standsAt : StandsAt fragments mode s place enclosing (.spread name)
  /-- Nothing before it is at fault. -/
  clear : ClearUpTo fragments mode s place
  /-- The fields met are those in front of it. -/
  fields : ∃ placed, FieldsBefore fragments mode s place placed ∧ placed.map Prod.snd = met
  /-- No fragment was entered inside of itself. -/
  distinct : stack.Nodup → (stack ++ enclosing).Nodup
  /-- The error says what is wrong with it. -/
  blame : Blames fragments (stack ++ enclosing) name e

section

variable {fragments : FragmentTable} {mode : InlineMode} {stack : List String}
  {s : List Selection} {a : Selection} {place : List Nat} {enclosing : List String} {name : String}
  {met : List Field} {e : FragmentError}

/-! ## Where a walk stops -/

/-- Nothing is in front of the first selection. -/
theorem clearUpTo_zero : ClearUpTo fragments mode s [0] :=
  fun _ _ _ h hlt ↦ absurd hlt h.not_lt_zero

/-- One selection more in front, which expands. -/
theorem ClearUpTo.cons (ha : ∃ front, Expands fragments mode [a] front)
    (h : ClearUpTo fragments mode s place) : ClearUpTo fragments mode (a :: s) (shifted place) := by
  intro earlier _ b hstands hlt hnot
  rcases exists_standsAt_cons_iff.1 ⟨_, hstands⟩ with ⟨_, hfront⟩ | ⟨q, rfl, _, hq⟩
  · exact hfront.expands ha
  · exact h q _ b hq (shifted_lt_shifted_iff.1 hlt) (mt shifted_isPrefix_shifted_iff.2 hnot)

/-- What stands for a selection is below it, and the selection encloses it. -/
theorem ClearUpTo.below {inner : List Selection} (hstep : a.step fragments mode = .ok ([], inner))
    (h : ClearUpTo fragments mode inner place) :
    ClearUpTo fragments mode (a :: s) (0 :: place) := by
  intro earlier _ b hstands hlt hnot
  obtain ⟨i, below, rfl⟩ := hstands.exists_eq_cons
  rcases List.cons_lt_cons_iff.1 hlt with hi | ⟨rfl, hbelow⟩
  · exact absurd hi (Nat.not_lt_zero i)
  · rw [List.cons_prefix_cons] at hnot
    have hne : below ≠ [] := fun hnil ↦ hnot ⟨rfl, hnil ▸ List.nil_prefix⟩
    obtain ⟨_, hinner⟩ := (exists_standsAt_below_iff hstep hne).1 ⟨_, hstands⟩
    exact h below _ b hinner hbelow fun hpre ↦ hnot ⟨rfl, hpre⟩

/-- A walk stops at the first selection. -/
theorem stopped_zero (hblame : Blames fragments stack name e) (rest : List Selection) :
    Stopped fragments mode stack (.spread name :: rest) [] e [0] [] name where
  standsAt := .here rfl
  clear := clearUpTo_zero
  fields := ⟨[], fieldsBefore_zero, rfl⟩
  distinct h := by rwa [List.append_nil]
  blame := by rwa [List.append_nil]

/-- **A walk stops behind a selection** that it has come to the end of. -/
theorem Stopped.cons {front : List Field} (ha : Expands fragments mode [a] front)
    (h : Stopped fragments mode stack s met e place enclosing name) :
    Stopped fragments mode stack (a :: s) (front ++ met) e (shifted place) enclosing name := by
  obtain ⟨i, below, rfl⟩ := h.standsAt.exists_eq_cons
  obtain ⟨placed, hplaced, rfl⟩ := h.fields
  obtain ⟨first, hfirst, rfl⟩ := ha.exists_fieldsBefore
  exact {
    standsAt := standsAt_cons_succ.2 h.standsAt
    clear := h.clear.cons ⟨_, ha⟩
    fields := ⟨_, hfirst.cons hplaced, by simp [Function.comp_def]⟩
    distinct := h.distinct
    blame := h.blame }

/-- **A walk stops in the body of a fragment**, whose name is then on the stack. -/
theorem Stopped.body {outer : String} {fragment : Fragment} (hnew : outer ∉ stack)
    (hdef : fragments.find? outer = some fragment)
    (h : Stopped fragments mode (stack ++ [outer]) fragment.selections met e place enclosing name)
    (rest : List Selection) :
    Stopped fragments mode stack (.spread outer :: rest) met e (0 :: place) (outer :: enclosing)
      name := by
  have hstep : (Selection.spread outer).step fragments mode = .ok ([], fragment.selections) :=
    step_spread_of_some hdef
  have hstack : stack ++ [outer] ++ enclosing = stack ++ outer :: enclosing := by simp
  obtain ⟨placed, hplaced, rfl⟩ := h.fields
  exact {
    standsAt := .body rfl hdef h.standsAt
    clear := h.clear.below hstep
    fields := ⟨_, hplaced.below hstep rest, by simp [Function.comp_def]⟩
    distinct := fun hnodup ↦ by
      have houter : (stack ++ [outer]).Nodup := by
        refine List.nodup_append.2 ⟨hnodup, by simp, fun a ha b hb heq ↦ hnew ?_⟩
        rwa [← List.mem_singleton.1 hb, ← heq]
      exact hstack ▸ h.distinct houter
    blame := hstack ▸ h.blame }

/-- **A walk stops in an inline fragment.** -/
theorem Stopped.inside {inner : List Selection}
    (h : Stopped fragments .expand stack inner met e place enclosing name)
    (typeCondition : Option String) (rest : List Selection) :
    Stopped fragments .expand stack (.inline typeCondition inner :: rest) met e (0 :: place)
      enclosing name := by
  have hstep : (Selection.inline typeCondition inner).step fragments .expand
      = .ok ([], inner) := rfl
  obtain ⟨placed, hplaced, rfl⟩ := h.fields
  exact {
    standsAt := .inside rfl rfl h.standsAt
    clear := h.clear.below hstep
    fields := ⟨_, hplaced.below hstep rest, by simp [Function.comp_def]⟩
    distinct := h.distinct
    blame := h.blame }

/-- **How a walk comes to be stopped**: at the first selection, behind it, or inside of it. -/
@[elab_as_elim]
theorem stop_induction
    {motive : (mode : InlineMode) → (stack : List String) → (s : List Selection) →
      (traverse fragments mode stack s).fault = some e → Prop}
    (here : ∀ mode stack name rest h, Blames fragments stack name e →
      traverse fragments mode stack (.spread name :: rest) = .stop e →
        motive mode stack (.spread name :: rest) h)
    (behind : ∀ mode stack a rest h hrest, (traverse fragments mode stack [a]).fault = none →
      motive mode stack rest hrest → motive mode stack (a :: rest) h)
    (body : ∀ mode stack outer fragment rest h hbody, outer ∉ stack →
      fragments.find? outer = some fragment →
      motive mode (stack ++ [outer]) fragment.selections hbody →
        motive mode stack (.spread outer :: rest) h)
    (inside : ∀ stack typeCondition inner rest h hinner, motive .expand stack inner hinner →
      motive .expand stack (.inline typeCondition inner :: rest) h)
    (h : (traverse fragments mode stack s).fault = some e) : motive mode stack s h := by
  have split : ∀ {mode : InlineMode} {stack : List String} {a : Selection} {rest : List Selection},
      (traverse fragments mode stack (a :: rest)).fault = some e →
      (traverse fragments mode stack [a]).fault = some e ∨
        (traverse fragments mode stack [a]).fault = none ∧
          (traverse fragments mode stack rest).fault = some e := by
    intro mode stack a rest h
    rwa [traverse_cons, Traversal.fault_andThen_eq_some_iff] at h
  induction mode, stack, s using traverse.induct fragments with
  | case1 =>
    rw [traverse_nil] at h
    cases h
  | case2 mode stack f rest ih =>
    rcases split h with hfield | ⟨hfield, hrest⟩
    · rw [traverse_field, traverse_nil] at hfield
      cases hfield
    · exact behind mode stack (.field f) rest h hrest hfield (ih hrest)
  | case3 mode stack name rest hmem =>
    have hwalk := traverse_spread_of_mem fragments mode stack hmem rest
    obtain rfl : .fragmentCycle (stack ++ [name]) = e := by rw [hwalk] at h; exact Option.some.inj h
    exact here mode stack name rest h ⟨rfl, hmem⟩ hwalk
  | case4 mode stack name rest hnew hdef =>
    have hwalk := traverse_spread_of_none fragments mode stack hnew hdef rest
    obtain rfl : .unknownFragment name = e := by rw [hwalk] at h; exact Option.some.inj h
    exact here mode stack name rest h ⟨rfl, hdef⟩ hwalk
  | case5 mode stack outer rest hnew fragment hdef ihBody ihRest =>
    rcases split h with hspread | ⟨hspread, hrest⟩
    · rw [traverse_spread_of_some fragments mode stack hnew hdef, traverse_nil, Traversal.record,
        Traversal.fault_andThen_eq_some_iff] at hspread
      rcases hspread with hbody | ⟨-, hdone⟩
      · exact body mode stack outer fragment rest h hbody hnew hdef (ihBody hbody)
      · cases hdone
    · exact behind mode stack (.spread outer) rest h hrest hspread (ihRest hrest)
  | case6 stack typeCondition selections rest ih =>
    rcases split h with hskip | ⟨hskip, hrest⟩
    · rw [traverse_inline_skip, traverse_nil] at hskip
      cases hskip
    · exact behind .skip stack (.inline typeCondition selections) rest h hrest hskip (ih hrest)
  | case7 stack typeCondition selections rest ihInner ihRest =>
    rcases split h with hinline | ⟨hinline, hrest⟩
    · rw [traverse_inline_expand, traverse_nil, Traversal.andThen_done] at hinline
      exact inside stack typeCondition selections rest h hinline (ihInner hinline)
    · exact behind .expand stack (.inline typeCondition selections) rest h hrest hinline
        (ihRest hrest)

/-- **A walk that is stopped stops at a spread**, with an error that says what is wrong with it, and
has met the fields in front of it. -/
theorem exists_stopped (h : (traverse fragments mode stack s).fault = some e) :
    ∃ place enclosing name, Stopped fragments mode stack s
      (traverse fragments mode stack s).fields e place enclosing name := by
  induction h using stop_induction with
  | here mode stack name rest _ hblame hwalk =>
    rw [hwalk]
    exact ⟨_, _, _, stopped_zero hblame rest⟩
  | behind mode stack a rest _ _ hfront ih =>
    obtain ⟨place, enclosing, name, hstopped⟩ := ih
    rw [traverse_cons, Traversal.fields_andThen_of_none hfront]
    exact ⟨_, _, _, hstopped.cons (expands_of_traverse hfront)⟩
  | body mode stack outer fragment rest _ hbody hnew hdef ih =>
    obtain ⟨place, enclosing, name, hstopped⟩ := ih
    rw [traverse_spread_of_some fragments mode stack hnew hdef, Traversal.fields_record,
      Traversal.fields_andThen_of_some hbody]
    exact ⟨_, _, _, hstopped.body hnew hdef rest⟩
  | inside stack typeCondition inner rest _ hinner ih =>
    obtain ⟨place, enclosing, name, hstopped⟩ := ih
    rw [traverse_inline_expand, Traversal.fields_andThen_of_some hinner]
    exact ⟨_, _, _, hstopped.inside typeCondition rest⟩

/-! ## One certificate -/

theorem faultAt_iff : FaultAt fragments mode s place e ↔
    ∃ enclosing name, ReachedAt fragments mode s place enclosing name ∧
      Blames fragments enclosing name e := by
  constructor
  · intro h
    cases h with
    | unknownFragment hreached hdef => exact ⟨_, _, hreached, rfl, hdef⟩
    | fragmentCycle hreached honce =>
      exact ⟨_, _, hreached, rfl, List.count_pos_iff.1 (honce ▸ Nat.one_pos)⟩
  · rintro ⟨enclosing, name, hreached, hblame⟩
    cases e with
    | unknownFragment unknown =>
      obtain ⟨rfl, hdef⟩ := hblame
      exact .unknownFragment hreached hdef
    | fragmentCycle names =>
      obtain ⟨rfl, hmem⟩ := hblame
      exact .fragmentCycle hreached (List.count_eq_one_of_mem hreached.distinct hmem)

/-- A spread with which something is wrong has no expansion. -/
theorem Blames.not_expands (h : Blames fragments enclosing name e)
    (hstands : StandsAt fragments mode s place enclosing (.spread name)) :
    ¬ ∃ met, Expands fragments mode [.spread name] met := by
  cases e with
  | unknownFragment unknown =>
    rintro ⟨met, hexp⟩
    cases hexp with
    | spread hdef _ _ =>
      rw [h.2] at hdef
      cases hdef
  | fragmentCycle names => exact hstands.not_expands_of_mem h.2

/-- There is one thing wrong with a spread inside of defined fragments. -/
theorem Blames.unique {e' : FragmentError} (h : Blames fragments enclosing name e)
    (h' : Blames fragments enclosing name e')
    (hdefined : ∀ outer ∈ enclosing, fragments.find? outer ≠ none) : e = e' := by
  rcases e with ⟨unknown⟩ | ⟨names⟩ <;> rcases e' with ⟨unknown'⟩ | ⟨names'⟩
  · rw [h.1, h'.1]
  · exact absurd h.2 (hdefined name h'.2)
  · exact absurd h'.2 (hdefined name h.2)
  · rw [h.1, h'.1]

/-- **No spread at fault comes before another that is reached**: neither in front of it, where
nothing is at fault, nor around it, where every fragment was entered. -/
theorem ReachedAt.not_lt {place' : List Nat} {enclosing' : List String} {name' : String}
    (h : ReachedAt fragments mode s place enclosing name)
    (hblame : Blames fragments enclosing name e)
    (h' : ReachedAt fragments mode s place' enclosing' name') : ¬ place < place' := by
  intro hlt
  by_cases hpre : place <+: place'
  · obtain ⟨below, rfl⟩ := hpre
    obtain ⟨inner, rfl, hinner⟩ := h.standsAt.of_append h'.standsAt
    rcases hinner.of_spread rfl with ⟨rfl, -, -⟩ | ⟨fragment, rest, hdef, rfl, -⟩
    · rw [List.append_nil] at hlt
      exact List.lt_irrefl place hlt
    · cases e with
      | unknownFragment unknown =>
        rw [hblame.2] at hdef
        cases hdef
      | fragmentCycle names =>
        have hdisjoint := (List.nodup_append.1 h'.distinct).2.2
        exact hdisjoint name hblame.2 name List.mem_cons_self rfl
  · exact hblame.not_expands h.standsAt (h'.clear place enclosing _ h.standsAt hlt hpre)

/-- **A selection set has one spread at fault**, and one error. -/
theorem FaultAt.unique {place' : List Nat} {e' : FragmentError}
    (h : FaultAt fragments mode s place e) (h' : FaultAt fragments mode s place' e') :
    place = place' ∧ e = e' := by
  obtain ⟨enclosing, name, hreached, hblame⟩ := faultAt_iff.1 h
  obtain ⟨enclosing', name', hreached', hblame'⟩ := faultAt_iff.1 h'
  obtain rfl : place = place' :=
    List.le_antisymm (hreached'.not_lt hblame' hreached) (hreached.not_lt hblame hreached')
  obtain ⟨rfl, hspread⟩ := hreached.standsAt.unique hreached'.standsAt
  cases hspread
  exact ⟨rfl, hblame.unique hblame' hreached.defined⟩

/-- **Where a walk stops that began inside of no fragment, a spread is at fault.** -/
theorem Stopped.faultAt (h : Stopped fragments mode [] s met e place enclosing name) :
    FaultAt fragments mode s place e := by
  have hname : name ∈ (Selection.spread name).openSpreads mode := List.mem_singleton.2 rfl
  have hreached : ReachedAt fragments mode s place enclosing name :=
    ⟨h.standsAt, h.standsAt.spreadChain hname, h.distinct .nil, h.standsAt.defined, h.clear⟩
  exact faultAt_iff.2 ⟨enclosing, name, hreached, h.blame⟩

/-- A walk that is stopped has a certificate, and has met the fields in front of its place. -/
theorem exists_faultAt (h : (traverse fragments mode [] s).fault = some e) :
    ∃ place placed, FaultAt fragments mode s place e ∧
      FieldsBefore fragments mode s place placed ∧
      placed.map Prod.snd = (traverse fragments mode [] s).fields := by
  obtain ⟨place, enclosing, name, hstopped⟩ := exists_stopped h
  obtain ⟨placed, hplaced, hmet⟩ := hstopped.fields
  exact ⟨place, placed, hstopped.faultAt, hplaced, hmet⟩

/-- **A walk is stopped by an error exactly if the error has a certificate.** -/
theorem fault_traverse_eq_some_iff :
    (traverse fragments mode [] s).fault = some e ↔ ∃ place, FaultAt fragments mode s place e := by
  constructor
  · intro h
    obtain ⟨place, _, hfault, -⟩ := exists_faultAt h
    exact ⟨place, hfault⟩
  · rintro ⟨place, hfault⟩
    obtain ⟨enclosing, name, hreached, hblame⟩ := faultAt_iff.1 hfault
    cases hwalk : (traverse fragments mode [] s).fault with
    | none =>
      have hexp := hreached.standsAt.expands (exists_expands_iff.2 hwalk)
      exact absurd hexp (hblame.not_expands hreached.standsAt)
    | some e' =>
      obtain ⟨place', _, hfault', -⟩ := exists_faultAt hwalk
      rw [(hfault'.unique hfault).2]

end

/-- **What a fault certifies.**  A collection is stopped by an error exactly if a spread in the
expansion of its selection set is at fault for that reason, with nothing at fault before it and the
names of the error leading to it.  A level of a path is stopped by an error exactly if this holds of
one of its selection sets, with all fragments expanded, and those before it have expansions. -/
theorem fault_eq_some_iff_faultAt (fragments : FragmentTable) :
    (∀ options s fields e, (collectInto fragments options s fields).fault = some e ↔
      ∃ place, FaultAt fragments options.inlineFragments s place e) ∧
    ∀ walked sets key e,
      (PathWalk.level fragments walked sets key).outcome = .error (.fragment e) ↔
        ∃ before s behind place, sets = before ++ s :: behind ∧
          (∀ t ∈ before, ∃ met, Expands fragments .expand t met) ∧
          FaultAt fragments .expand s place e := by
  refine ⟨fun options s fields e ↦ fault_traverse_eq_some_iff, fun walked sets key e ↦ ?_⟩
  have hlevel : (PathWalk.level fragments walked sets key).outcome = .error (.fragment e) ↔
      (traverseAll fragments .expand sets).fault = some e := by
    rw [PathWalk.level]
    dsimp only
    cases (traverseAll fragments .expand sets).fault with
    | some e' => simp
    | none => cases matchesOf key (traverseAll fragments .expand sets).fields <;> simp
  rw [hlevel, fault_traverseAll_eq_some_iff]
  simp only [exists_expands_iff, fault_traverse_eq_some_iff, exists_and_left]

/-- The names of a cycle begin with the fragment that leads to it, which is not part of it. -/
example : (collect (.ofList [⟨"a", "T", [.spread "b"]⟩, ⟨"b", "T", [.spread "d", .spread "c"]⟩,
    ⟨"c", "T", [.spread "b"]⟩, ⟨"d", "T", []⟩]) .default [.spread "d", .spread "a"]).fault
      = some (.fragmentCycle ["a", "b", "c", "b"]) := by
  cbv

end RequestedFields
