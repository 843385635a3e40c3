import RequestedFields.Proofs.FaultPlace
import RequestedFields.Trace

/-!
# What a walk reports

Of a walk a host is told the fragments that are entered and the inline fragments that are passed
over, in this order and as often as it happens.  The events can be said without the walk, along the
selections alone: a field gives none, a spread gives its own and then those of the body, an inline
fragment gives either one event or those of its selections (`Reports`).  A selection set has such a
list exactly if it has an expansion.

Where a spread is at fault there is no list for the whole, but there is one **up to that spread**
(`ReportsUpTo`), which gives no event itself.  All fragments around it have been entered and none of
them has been left, and what stands in front of it, there and in all of them, is complete.

* `reports_iff` — a walk comes to the end exactly if there is a list for the whole, and reports it.
* `exists_stopped_reporting` — a walk that is stopped reports the list up to the place where it is.
* `stopped_reporting_iff` — so the list is known by the place of the spread at fault.
-/

set_option autoImplicit false

namespace RequestedFields

/-! ## The events along the selections -/

/-- The events of a selection set, in depth-first order. -/
inductive Reports (fragments : FragmentTable) : InlineMode → List Selection → List Event → Prop
  | nil (mode : InlineMode) : Reports fragments mode [] []
  /-- A field is not reported. -/
  | field {mode : InlineMode} {rest : List Selection} {events : List Event} (f : Field)
      (h : Reports fragments mode rest events) : Reports fragments mode (.field f :: rest) events
  /-- A fragment is entered, and then come the events of its body. -/
  | spread {mode : InlineMode} {name : String} {fragment : Fragment} {rest : List Selection}
      {inner events : List Event} (hdef : fragments.find? name = some fragment)
      (hbody : Reports fragments mode fragment.selections inner)
      (h : Reports fragments mode rest events) :
      Reports fragments mode (.spread name :: rest) (.entered name :: (inner ++ events))
  /-- An inline fragment is skipped, and that is all there is of it. -/
  | skip {rest : List Selection} {events : List Event} (typeCondition : Option String)
      (selections : List Selection) (h : Reports fragments .skip rest events) :
      Reports fragments .skip (.inline typeCondition selections :: rest)
        (.skipped typeCondition :: events)
  /-- An inline fragment that is expanded is not reported, but what is inside of it is. -/
  | expand {selections rest : List Selection} {inner events : List Event}
      (typeCondition : Option String) (hinner : Reports fragments .expand selections inner)
      (h : Reports fragments .expand rest events) :
      Reports fragments .expand (.inline typeCondition selections :: rest) (inner ++ events)

/-- The events of a selection set up to the spread at a place. -/
inductive ReportsUpTo (fragments : FragmentTable) :
    InlineMode → List Selection → List Nat → List Event → Prop
  /-- It is the first selection. -/
  | here (mode : InlineMode) (name : String) (rest : List Selection) :
      ReportsUpTo fragments mode (.spread name :: rest) [0] []
  /-- It is behind the first selection. -/
  | behind {mode : InlineMode} {a : Selection} {rest : List Selection} {i : Nat} {place : List Nat}
      {front events : List Event} (hfront : Reports fragments mode [a] front)
      (h : ReportsUpTo fragments mode rest (i :: place) events) :
      ReportsUpTo fragments mode (a :: rest) ((i + 1) :: place) (front ++ events)
  /-- It is in the body of the fragment that is spread first. -/
  | body {mode : InlineMode} {name : String} {fragment : Fragment} {place : List Nat}
      {events : List Event} (hdef : fragments.find? name = some fragment)
      (h : ReportsUpTo fragments mode fragment.selections place events) (rest : List Selection) :
      ReportsUpTo fragments mode (.spread name :: rest) (0 :: place) (.entered name :: events)
  /-- It is in the inline fragment that comes first. -/
  | inside {selections : List Selection} {place : List Nat} {events : List Event}
      (typeCondition : Option String) (h : ReportsUpTo fragments .expand selections place events)
      (rest : List Selection) :
      ReportsUpTo fragments .expand (.inline typeCondition selections :: rest) (0 :: place) events

/-- What is reported of a walk. -/
def Traversal.events (t : Traversal) : List Event := eventsOf t.steps

@[simp] theorem Traversal.events_record_enter (name : String) (t : Traversal) :
    (record (.enter name) t).events = .entered name :: t.events := rfl

@[simp] theorem Traversal.events_record_leave (name : String) (t : Traversal) :
    (record (.leave name) t).events = t.events := rfl

theorem Traversal.events_andThen (t u : Traversal) :
    (t.andThen u).events = if t.fault = none then t.events ++ u.events else t.events := by
  rw [events, steps_andThen]
  split
  · exact eventsOf_append _ _
  · rfl

theorem Traversal.events_andThen_of_none {t : Traversal} (h : t.fault = none) (u : Traversal) :
    (t.andThen u).events = t.events ++ u.events := by
  rw [events_andThen, if_pos h]

theorem Traversal.events_andThen_of_some {t : Traversal} {e : FragmentError} (h : t.fault = some e)
    (u : Traversal) : (t.andThen u).events = t.events := by
  rw [events_andThen, if_neg (h ▸ Option.some_ne_none e)]

section

variable {fragments : FragmentTable} {mode : InlineMode} {stack : List String}
  {s : List Selection} {events : List Event}

/-! ## Walks that come to the end -/

/-- **A walk that comes to the end reports the events of the whole.** -/
theorem reports_of_traverse (h : (traverse fragments mode stack s).fault = none) :
    Reports fragments mode s (traverse fragments mode stack s).events := by
  fun_induction traverse fragments mode stack s with
  | case1 mode => exact .nil mode
  | case2 mode stack f rest ih => exact .field f (ih h)
  | case3 mode stack name rest hmem => cases h
  | case4 mode stack name rest hnew hdef => cases h
  | case5 mode stack name rest hnew fragment hdef ihBody ihRest =>
    rw [Traversal.record, Traversal.fault_andThen_eq_none_iff] at h
    rw [Traversal.events_record_enter, Traversal.events_andThen_of_none h.1,
      Traversal.events_record_leave]
    exact .spread hdef (ihBody h.1) (ihRest h.2)
  | case6 stack typeCondition selections rest ih => exact .skip typeCondition selections (ih h)
  | case7 stack typeCondition selections rest ihInner ihRest =>
    rw [Traversal.fault_andThen_eq_none_iff] at h
    rw [Traversal.events_andThen_of_none h.1]
    exact .expand typeCondition (ihInner h.1) (ihRest h.2)

/-- What has events as a whole has an expansion. -/
theorem Reports.exists_expands (h : Reports fragments mode s events) :
    ∃ met, Expands fragments mode s met := by
  induction h with
  | nil mode => exact ⟨[], .nil mode⟩
  | field f _ ih =>
    obtain ⟨met, hmet⟩ := ih
    exact ⟨f :: met, .field f hmet⟩
  | spread hdef _ _ ihBody ih =>
    obtain ⟨inner, hinner⟩ := ihBody
    obtain ⟨met, hmet⟩ := ih
    exact ⟨inner ++ met, .spread hdef hinner hmet⟩
  | skip typeCondition selections _ ih =>
    obtain ⟨met, hmet⟩ := ih
    exact ⟨met, .skip typeCondition selections hmet⟩
  | expand typeCondition _ _ ihInner ih =>
    obtain ⟨inner, hinner⟩ := ihInner
    obtain ⟨met, hmet⟩ := ih
    exact ⟨inner ++ met, .expand typeCondition hinner hmet⟩

/-- A selection set has one list of events. -/
theorem Reports.unique {events' : List Event} (h : Reports fragments mode s events)
    (h' : Reports fragments mode s events') : events = events' := by
  induction h generalizing events' with
  | nil => cases h'; rfl
  | field f _ ih =>
    cases h' with
    | field _ h' => exact ih h'
  | spread hdef _ _ ihBody ih =>
    cases h' with
    | spread hdef' hbody' h' =>
      rw [hdef] at hdef'
      cases hdef'
      rw [ihBody hbody', ih h']
  | skip typeCondition selections _ ih =>
    cases h' with
    | skip _ _ h' => rw [ih h']
  | expand typeCondition _ _ ihInner ih =>
    cases h' with
    | expand _ hinner' h' => rw [ihInner hinner', ih h']

/-- **A walk comes to the end exactly if there are events of the whole**, and these are what it
reports. -/
theorem reports_iff : Reports fragments mode s events ↔
    (traverse fragments mode [] s).fault = none ∧
      (traverse fragments mode [] s).events = events := by
  constructor
  · intro h
    have hfault := exists_expands_iff.1 h.exists_expands
    exact ⟨hfault, (reports_of_traverse hfault).unique h⟩
  · rintro ⟨hfault, rfl⟩
    exact reports_of_traverse hfault

/-! ## Walks that are stopped -/

theorem ReportsUpTo.exists_eq_cons {place : List Nat}
    (h : ReportsUpTo fragments mode s place events) : ∃ i below, place = i :: below := by
  cases h with
  | here | behind | body | inside => exact ⟨_, _, rfl⟩

/-- One selection more in front. -/
theorem ReportsUpTo.cons {a : Selection} {front : List Event} {place : List Nat}
    (hfront : Reports fragments mode [a] front) (h : ReportsUpTo fragments mode s place events) :
    ReportsUpTo fragments mode (a :: s) (shifted place) (front ++ events) := by
  obtain ⟨i, below, rfl⟩ := h.exists_eq_cons
  exact .behind hfront h

/-- There is one list of events up to a place. -/
theorem ReportsUpTo.unique {place : List Nat} {events' : List Event}
    (h : ReportsUpTo fragments mode s place events)
    (h' : ReportsUpTo fragments mode s place events') : events = events' := by
  induction h generalizing events' with
  | here =>
    cases h' with
    | here => rfl
    | body _ h' =>
      obtain ⟨_, _, heq⟩ := h'.exists_eq_cons
      cases heq
  | behind hfront _ ih =>
    cases h' with
    | behind hfront' h' => rw [hfront.unique hfront', ih h']
  | body hdef h rest ih =>
    cases h' with
    | here =>
      obtain ⟨_, _, heq⟩ := h.exists_eq_cons
      cases heq
    | body hdef' h' =>
      rw [hdef] at hdef'
      cases hdef'
      rw [ih h']
  | inside typeCondition _ rest ih =>
    cases h' with
    | inside _ h' => exact ih h'

/-- **A walk that is stopped reports the events up to the spread** where it is stopped, whatever
fields it has met by then. -/
theorem exists_stopped_reporting {e : FragmentError}
    (h : (traverse fragments mode stack s).fault = some e) :
    ∃ met place enclosing name, Stopped fragments mode stack s met e place enclosing name ∧
      ReportsUpTo fragments mode s place (traverse fragments mode stack s).events := by
  induction h using stop_induction with
  | here mode stack name rest _ hblame hwalk =>
    rw [hwalk]
    exact ⟨_, _, _, _, stopped_zero hblame rest, .here mode name rest⟩
  | behind mode stack a rest _ _ hfront ih =>
    obtain ⟨met, place, enclosing, name, hstopped, hreports⟩ := ih
    rw [traverse_cons, Traversal.events_andThen_of_none hfront]
    exact ⟨_, _, _, _, hstopped.cons (expands_of_traverse hfront),
      hreports.cons (reports_of_traverse hfront)⟩
  | body mode stack outer fragment rest _ hbody hnew hdef ih =>
    obtain ⟨met, place, enclosing, name, hstopped, hreports⟩ := ih
    rw [traverse_spread_of_some fragments mode stack hnew hdef, Traversal.events_record_enter,
      Traversal.events_andThen_of_some hbody]
    exact ⟨_, _, _, _, hstopped.body hnew hdef rest, .body hdef hreports rest⟩
  | inside stack typeCondition inner rest _ hinner ih =>
    obtain ⟨met, place, enclosing, name, hstopped, hreports⟩ := ih
    rw [traverse_inline_expand, Traversal.events_andThen_of_some hinner]
    exact ⟨_, _, _, _, hstopped.inside typeCondition rest, .inside typeCondition hreports rest⟩

/-- **A walk is stopped by an error exactly if a spread is at fault**, and then it reports the
events up to the place of that spread. -/
theorem stopped_reporting_iff {e : FragmentError} :
    (traverse fragments mode [] s).fault = some e ∧
        (traverse fragments mode [] s).events = events ↔
      ∃ place, FaultAt fragments mode s place e ∧ ReportsUpTo fragments mode s place events := by
  constructor
  · rintro ⟨hfault, rfl⟩
    obtain ⟨_, place, _, _, hstopped, hreports⟩ := exists_stopped_reporting hfault
    exact ⟨place, hstopped.faultAt, hreports⟩
  · rintro ⟨place, hfaultAt, hreports⟩
    have hfault := fault_traverse_eq_some_iff.2 ⟨place, hfaultAt⟩
    obtain ⟨_, place', _, _, hstopped, hreports'⟩ := exists_stopped_reporting hfault
    -- there is no other spread at fault than the one where the walk was stopped
    obtain ⟨rfl, -⟩ := hstopped.faultAt.unique hfaultAt
    exact ⟨hfault, hreports'.unique hreports⟩

end

end RequestedFields
