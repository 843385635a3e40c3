import Mathlib.Control.Monad.Basic
import RequestedFields.Proofs.PathExtension
import RequestedFields.Proofs.Reports

/-!
# What following a path reports

A path is followed level by level, and the first level where something is wrong is the last that is
looked at.  For the events only one of the things that can be wrong matters: a spread at fault cuts
them off, whereas a level without a match has been read to its end.  So a path is, for a host that
listens, **one walk through the selection sets of all levels**, in the order in which they are
scanned, and only the end is reported in addition: the path and the number of its nodes, if there
are any.

The selection sets of a level are the ones that the keys before it lead to, which is asked of the
shorter path, so nothing has to be said about the scan of the longer one.

* `ReportsAll` — the events of several selection sets, up to the first that is at fault.
* `PathWalk.scanned` — the selection sets that are scanned for a path, level by level.
* `PathWalk.scan_ofRoot` — following a path is a walk through these.
* `events_depthFirst` — what is reported of a collection and of a path in the text of a query.
-/

set_option autoImplicit false

namespace RequestedFields

/-! ## Several selection sets -/

/-- The events of several selection sets one after the other, up to the first of them that is at
fault, and its error. -/
inductive ReportsAll (fragments : FragmentTable) (mode : InlineMode) :
    List (List Selection) → List Event → Option FragmentError → Prop
  | nil : ReportsAll fragments mode [] [] none
  /-- The first has events as a whole. -/
  | next {s : List Selection} {sets : List (List Selection)} {front events : List Event}
      {fault : Option FragmentError} (hfront : Reports fragments mode s front)
      (h : ReportsAll fragments mode sets events fault) :
      ReportsAll fragments mode (s :: sets) (front ++ events) fault
  /-- The first is at fault, and nothing behind it is looked at. -/
  | cut {s : List Selection} {place : List Nat} {events : List Event} {e : FragmentError}
      (hfault : FaultAt fragments mode s place e) (h : ReportsUpTo fragments mode s place events)
      (sets : List (List Selection)) : ReportsAll fragments mode (s :: sets) events (some e)

/-- A walk through several selection sets reports their events. -/
theorem reportsAll_traverseAll (fragments : FragmentTable) (mode : InlineMode)
    (sets : List (List Selection)) :
    ReportsAll fragments mode sets (traverseAll fragments mode sets).events
      (traverseAll fragments mode sets).fault := by
  induction sets with
  | nil => exact .nil
  | cons s sets ih =>
    rw [traverseAll, Traversal.fault_andThen]
    cases hfault : (traverse fragments mode [] s).fault with
    | none =>
      rw [Traversal.events_andThen_of_none hfault, Option.none_or]
      exact .next (reports_of_traverse hfault) ih
    | some e =>
      rw [Traversal.events_andThen_of_some hfault, Option.some_or]
      obtain ⟨place, hfaultAt, hreports⟩ := stopped_reporting_iff.1 ⟨hfault, rfl⟩
      exact .cut hfaultAt hreports sets

/-- **Several selection sets have one list of events**, which is what a walk through them
reports. -/
theorem reportsAll_iff {fragments : FragmentTable} {mode : InlineMode}
    {sets : List (List Selection)} {events : List Event} {fault : Option FragmentError} :
    ReportsAll fragments mode sets events fault ↔
      (traverseAll fragments mode sets).events = events ∧
        (traverseAll fragments mode sets).fault = fault := by
  constructor
  · intro h
    induction h with
    | nil => exact ⟨rfl, rfl⟩
    | next hfront _ ih =>
      obtain ⟨hnone, rfl⟩ := reports_iff.1 hfront
      rw [traverseAll, Traversal.events_andThen_of_none hnone, Traversal.fault_andThen, hnone,
        Option.none_or, ih.1]
      exact ⟨rfl, ih.2⟩
    | cut hfaultAt hreports sets =>
      obtain ⟨hfault, rfl⟩ := stopped_reporting_iff.2 ⟨_, hfaultAt, hreports⟩
      rw [traverseAll, Traversal.events_andThen_of_some hfault, Traversal.fault_andThen, hfault]
      exact ⟨rfl, Option.some_or⟩
  · rintro ⟨rfl, rfl⟩
    exact reportsAll_traverseAll fragments mode sets

/-! ## The levels of a path -/

/-- The fault of a spread, if this is what is wrong with a path. -/
def PathError.fault? : PathError → Option FragmentError
  | .fragment e => some e
  | .emptyPath | .fieldNotFound _ => none

namespace PathWalk

/-- The selection sets that a path leads to, none if there is something wrong with it. -/
def setsAt (fragments : FragmentTable) (root : List Selection) (path : List String) :
    List (List Selection) :=
  match reached fragments root path with
  | .error _ => []
  | .ok sets => sets

/-- The selection sets that are scanned for a path: level by level those that the keys before the
level lead to. -/
def scanned (fragments : FragmentTable) (root : List Selection) (path : List String) :
    List (List Selection) :=
  (List.range path.length).flatMap fun walked ↦ setsAt fragments root (path.take walked)

theorem scanned_concat (fragments : FragmentTable) (root : List Selection) (path : List String)
    (key : String) :
    scanned fragments root (path ++ [key])
      = scanned fragments root path ++ setsAt fragments root path := by
  have hbefore : ∀ walked ∈ List.range path.length,
      setsAt fragments root ((path ++ [key]).take walked)
        = setsAt fragments root (path.take walked) := by
    intro walked hwalked
    rw [List.take_append_of_le_length (Nat.le_of_lt (List.mem_range.1 hwalked))]
  rw [scanned, List.length_append, List.length_singleton, List.range_succ, List.flatMap_append,
    List.flatMap_singleton, List.take_left, List.flatMap_congr hbefore, scanned]

/-- Following a path as a walk through selection sets, which only a spread can stop. -/
def scan (w : PathWalk) : Traversal :=
  ⟨w.steps, match w.outcome with
    | .error e => e.fault?
    | .ok _ => none⟩

theorem scan_level (fragments : FragmentTable) (walked : List String)
    (sets : List (List Selection)) (key : String) :
    (level fragments walked sets key).scan = traverseAll fragments .expand sets := by
  rw [level]
  rcases traverseAll fragments .expand sets with ⟨steps, _ | e⟩
  · cases matchesOf key (Traversal.fields ⟨steps, none⟩) with
    | nil => simp only [scan, PathError.fault?]
    | cons f found => simp only [scan]
  · rfl

/-- One key more is one level more to be scanned, unless there is something wrong before it. -/
theorem scan_ofRoot_concat (fragments : FragmentTable) (root : List Selection)
    (path : List String) (key : String) :
    (ofRoot fragments root (path ++ [key])).scan
      = (ofRoot fragments root path).scan.andThen
          (traverseAll fragments .expand (setsAt fragments root path)) := by
  cases path with
  | nil =>
    -- not to have a key yet is an error of a path, but none that stops a scan
    exact scan_level fragments [] [root] key
  | cons first rest =>
    rw [ofRoot_concat, setsAt, reached, if_neg (List.cons_ne_nil first rest)]
    cases houtcome : (ofRoot fragments root (first :: rest)).outcome with
    | error e => simp only [Except.map, traverseAll, Traversal.andThen_done, scan, houtcome]
    | ok nodes =>
      dsimp only [Except.map]
      rw [← scan_level fragments (first :: rest) _ key]
      simp only [scan, houtcome, Traversal.andThen]

/-- **Following a path is a walk through the selection sets of its levels.** -/
theorem scan_ofRoot (fragments : FragmentTable) (root : List Selection) (path : List String) :
    (ofRoot fragments root path).scan
      = traverseAll fragments .expand (scanned fragments root path) := by
  induction path using List.reverseRecOn with
  | nil => rfl
  | append_singleton path key ih =>
    rw [scan_ofRoot_concat, scanned_concat, traverseAll_append, ih]

theorem fault_scan_eq_some_iff {w : PathWalk} {e : FragmentError} :
    w.scan.fault = some e ↔ w.outcome = .error (.fragment e) := by
  rcases w with ⟨steps, (_ | path | e') | nodes⟩ <;> simp [scan, PathError.fault?]

end PathWalk

/-! ## The end -/

/-- What is reported when a path has been followed to its end: the path, which is shown with its
keys joined, and how many nodes it leads to. -/
def closing (path : List String) : Except DocumentError ResolverInfo → List Event
  | .error _ => []
  | .ok info => [.resolved path info.fieldNodes.length]

theorem Document.events_resolvePath (definitions : List Fragment) (root : List Selection)
    (path : List String) :
    (resolvePath definitions root path).events
      = eventsOf (PathWalk.ofRoot (.ofList definitions) root path).steps
        ++ closing path (resolvePath definitions root path).outcome := by
  simp only [resolvePath, ResolverInfo.ofLists]
  cases (PathWalk.ofRoot (.ofList definitions) root path).outcome with
  | error e => rw [closing, List.append_nil]
  | ok nodes => rfl

/-- No step of a walk is the end of a path. -/
theorem resolved_notMem_eventsOf (steps : List Step) (path : List String) (nodes : Nat) :
    .resolved path nodes ∉ eventsOf steps := by
  intro h
  obtain ⟨step, -, hstep⟩ := List.mem_filterMap.1 h
  cases step <;> cases hstep

/-- **Events follow the traversal.**  A collection that comes to the end reports the events of its
selection set in depth-first order, and one that is stopped reports those in front of the spread at
fault; neither the keys nor what is in the map already make a difference.  A path in the text of a
query reports the events of the selection sets that are scanned for it, level by level, all
fragments expanded and up to the spread at fault if there is one, and then its end, which it has
exactly if it leads to nodes. -/
theorem events_depthFirst (fragments : FragmentTable) :
    (∀ options s fields events,
      (collectInto fragments options s fields).fault = none ∧
          eventsOf (collectInto fragments options s fields).steps = events ↔
        Reports fragments options.inlineFragments s events) ∧
    (∀ options s fields e events,
      (collectInto fragments options s fields).fault = some e ∧
          eventsOf (collectInto fragments options s fields).steps = events ↔
        ∃ place, FaultAt fragments options.inlineFragments s place e ∧
          ReportsUpTo fragments options.inlineFragments s place events) ∧
    (∀ source operation d root path, Document.read source = .ok d →
      d.selectOperation operation = .ok root → .ofList d.fragments = fragments →
        (∃ events fault,
          ReportsAll fragments .expand (PathWalk.scanned fragments root path) events fault) ∧
        ∀ events fault,
          ReportsAll fragments .expand (PathWalk.scanned fragments root path) events fault ↔
            (∀ e, fault = some e ↔
              (resolveText source operation path).outcome = .error (.path (.fragment e))) ∧
            (∀ other nodes, .resolved other nodes ∉ events) ∧
            (resolveText source operation path).events
              = events ++ closing path (resolveText source operation path).outcome) := by
  refine ⟨fun options s fields events ↦ reports_iff.symm,
    fun options s fields e events ↦ stopped_reporting_iff, ?_⟩
  rintro source operation d root path hread hselect rfl
  refine ⟨⟨_, _, reportsAll_traverseAll _ _ _⟩, fun events fault ↦ ?_⟩
  have hfault : ∀ e, (PathWalk.ofRoot (.ofList d.fragments) root path).scan.fault = some e ↔
      (Document.resolvePath d.fragments root path).outcome = .error (.path (.fragment e)) := by
    intro e
    rw [PathWalk.fault_scan_eq_some_iff, Document.outcome_resolvePath]
    cases (PathWalk.ofRoot (.ofList d.fragments) root path).outcome <;> simp
  have hevents := Document.events_resolvePath d.fragments root path
  rw [resolveText_of_read hread hselect, reportsAll_iff, ← PathWalk.scan_ofRoot]
  constructor
  · rintro ⟨rfl, rfl⟩
    exact ⟨hfault, fun _ _ ↦ resolved_notMem_eventsOf _ _ _, hevents⟩
  · -- the end is known from the outcome, so what stands in front of it is known as well
    rintro ⟨hsame, -, hlist⟩
    exact ⟨List.append_cancel_right (hevents.symm.trans hlist),
      Option.ext fun e ↦ (hfault e).trans (hsame e).symm⟩

/-- Two nodes of one key, the second in a fragment that the first one spreads again. -/
def twiceRoot : List Selection :=
  [.field ⟨none, "a", [.spread "F", .inline (some "T") [.field (.leaf "b")]]⟩, .spread "F"]

/-- The text that asks for them. -/
def twiceText : String :=
  "{a{...F ...on T{b}} ...F} fragment F on T{a{b} ...G} fragment G on T{c}"

/-- The document that it is read as. -/
def twiceDocument : Document :=
  ⟨[.operation none twiceRoot,
    .fragment ⟨"F", "T", [.field ⟨none, "a", [.field (.leaf "b")]⟩, .spread "G"]⟩,
    .fragment ⟨"G", "T", [.field (.leaf "c")]⟩]⟩

/-- Both fragments are entered at each of the two levels. -/
theorem events_depthFirst_twice :
    Document.read twiceText = .ok twiceDocument ∧
      twiceDocument.selectOperation none = .ok twiceRoot ∧
      (resolveText twiceText none ["a", "b"]).events
        = [.entered "F", .entered "G", .entered "F", .entered "G", .resolved ["a", "b"] 2] ∧
      ReportsAll (.ofList twiceDocument.fragments) .expand
        (PathWalk.scanned (.ofList twiceDocument.fragments) twiceRoot ["a", "b"])
        [.entered "F", .entered "G", .entered "F", .entered "G"] none := by
  have hread : Document.read twiceText = .ok twiceDocument := by
    decide +kernel
  have hwalk : (PathWalk.ofRoot (.ofList twiceDocument.fragments) twiceRoot ["a", "b"]).outcome
      = .ok [.leaf "b", .leaf "b"] := by
    cbv
  have hsteps : eventsOf
      (PathWalk.ofRoot (.ofList twiceDocument.fragments) twiceRoot ["a", "b"]).steps
        = [.entered "F", .entered "G", .entered "F", .entered "G"] := by
    cbv
  have houtcome : (resolveText twiceText none ["a", "b"]).outcome
      = .ok ⟨[.leaf "b", .leaf "b"], .ofList twiceDocument.fragments⟩ := by
    rw [resolveText_of_read hread rfl, Document.outcome_resolvePath, hwalk]
  have hevents : (resolveText twiceText none ["a", "b"]).events
      = [.entered "F", .entered "G", .entered "F", .entered "G", .resolved ["a", "b"] 2] := by
    rw [resolveText_of_read hread rfl] at houtcome ⊢
    rw [Document.events_resolvePath, hsteps, houtcome]
    rfl
  have hpath := (events_depthFirst (.ofList twiceDocument.fragments)).2.2 twiceText none
    twiceDocument twiceRoot ["a", "b"] hread rfl rfl
  refine ⟨hread, rfl, hevents, (hpath.2 _ _).2 ⟨?_, ?_, ?_⟩⟩
  · intro e
    simp [houtcome]
  · intro path nodes
    simp
  · rw [hevents, houtcome]
    rfl

end RequestedFields
