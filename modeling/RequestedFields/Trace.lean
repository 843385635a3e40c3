import RequestedFields.Json
import RequestedFields.Traversal

/-!
# Events

What the library reports while it works, for a host that listens: **entering the body of a
fragment**, **passing over an inline fragment**, and **having resolved a path**.  The first two are
read off the journal of a walk; meeting a field and leaving a fragment are not reported, and a
spread at fault is not either.
-/

set_option autoImplicit false

namespace RequestedFields

/-- Something reported to the host. -/
inductive Event where
  /-- The body of a spread fragment begins. -/
  | entered (fragment : String)
  /-- An inline fragment was passed over. -/
  | skipped (typeCondition : Option String)
  /-- A path of a document led to that many nodes. -/
  | resolved (path : List String) (nodes : Nat)
  deriving DecidableEq, Repr

/-- How much a host has to ask for to be told. -/
inductive EventLevel where
  | debug
  | trace
  deriving DecidableEq, Repr

/-- A level by name. -/
def EventLevel.text : EventLevel → String
  | .debug => "DEBUG"
  | .trace => "TRACE"

namespace Event

/-- The level of an event. -/
def level : Event → EventLevel
  | .entered _ => .trace
  | .skipped _ => .debug
  | .resolved _ _ => .debug

/-- What is said about an event. -/
def message : Event → String
  | .entered _ => "Inlining fragment spread"
  | .skipped _ => "Skipping inline fragment while flattening selection set"
  | .resolved _ _ => "Resolved field nodes from document"

/-- What is said about this event in particular.  An inline fragment without a type condition has
nothing to say. -/
def fields : Event → List (String × Json)
  | .entered fragment => [("fragment", .string fragment)]
  | .skipped none => []
  | .skipped (some typeCondition) => [("type_condition", .string typeCondition)]
  | .resolved path nodes =>
    [("path", .string (".".intercalate path)), ("field_nodes", .ofNat nodes)]

end Event

/-- The event of a step, if the step is reported. -/
def Step.event? : Step → Option Event
  | .enter fragment => some (.entered fragment)
  | .skip typeCondition => some (.skipped typeCondition)
  | .field _ => none
  | .leave _ => none

/-- The events of a journal. -/
def eventsOf (steps : List Step) : List Event := steps.filterMap Step.event?

@[simp] theorem eventsOf_nil : eventsOf [] = [] := rfl

theorem eventsOf_append (s t : List Step) : eventsOf (s ++ t) = eventsOf s ++ eventsOf t :=
  List.filterMap_append

end RequestedFields
