import RequestedFields.CollectOptions
import RequestedFields.ResolverInfo

/-!
# Collecting the requested fields

Collecting turns a selection set into a **field map**: each key once, at the place where it was
first met, with the field it was last met with.  Fragments are expanded on the way, so the map says
what is requested, however the query spells it.

Fields can be collected into a map that already holds some, to merge several selection sets
(`collectInto`).  When a spread is at fault, the fields met before it stay in the map: a collection
is the map *and* the fault, not one or the other.

## What is here

* `FieldMap`, `collectInto`, `collect`, `collectRoot`.
* `collectInto_append` — one selection set after another is the same as both written as one.
* `descend` — collect, go to the field under a key, collect below it, and so on.
-/

set_option autoImplicit false

namespace RequestedFields

/-- Requested fields by key. -/
abbrev FieldMap := KeyedList (Prod.fst : String × Field → String)

/-- The field under a key. -/
def FieldMap.field? (m : FieldMap) (key : String) : Option Field := (m.find? key).map Prod.snd

/-- A field map, what was done to fill it, and the fault at which that stopped, if it did. -/
structure Collection where
  fields : FieldMap
  steps : List Step
  fault : Option FragmentError

/-- The map of a collection that was not stopped. -/
def Collection.result (c : Collection) : Except FragmentError FieldMap :=
  match c.fault with
  | none => .ok c.fields
  | some e => .error e

theorem Collection.result_eq_ok_iff {c : Collection} {fields : FieldMap} :
    c.result = .ok fields ↔ c.fault = none ∧ c.fields = fields := by
  rw [result]
  cases c.fault <;> simp

/-- The fields of a walk, each with its key. -/
def Traversal.keyed (t : Traversal) (key : KeyChoice) : List (String × Field) :=
  t.fields.map (fun f => (key.of f, f))

/-- Collect the fields of a selection set into a map. -/
def collectInto (fragments : FragmentTable) (options : CollectOptions)
    (selections : List Selection) (fields : FieldMap) : Collection :=
  let t := traverse fragments options.inlineFragments [] selections
  ⟨fields.insertAll (t.keyed options.key), t.steps, t.fault⟩

/-- Collect the fields of a selection set. -/
def collect (fragments : FragmentTable) (options : CollectOptions)
    (selections : List Selection) : Collection :=
  collectInto fragments options selections .empty

/-- Collect the fields below the first node of the field being resolved, if there is one. -/
def collectRoot (info : ResolverInfo) (options : CollectOptions) : Option Collection :=
  info.fieldNodes.head?.map (fun f => collect info.fragments options f.selections)

/-- Why the fields below the field being resolved could not be collected. -/
inductive RootError where
  /-- No node is known to select the field. -/
  | missingFieldNodes
  /-- A spread is at fault. -/
  | fragment (error : FragmentError)
  deriving DecidableEq, Repr

/-- The error as it is shown to a user. -/
def RootError.message : RootError → String
  | .missingFieldNodes => "The resolve context does not hold any field node"
  | .fragment error => error.message

/-! ## Going down -/

/-- How a descent ended. -/
inductive DescentEnd where
  /-- Every key was found. -/
  | arrived
  /-- The last map has no field under this key. -/
  | missing (key : String)
  /-- The last collection was stopped. -/
  | fault (error : FragmentError)
  deriving DecidableEq, Repr

/-- The field maps from level to level, what was done to fill them, and how the descent ended. -/
structure Descent where
  levels : List FieldMap
  steps : List Step
  ending : DescentEnd

/-- Collect the fields of a selection set, go to the field under the first key, collect the fields
below it, and so on to the last key. -/
def descend (fragments : FragmentTable) (options : CollectOptions) :
    List Selection → List String → Descent
  | selections, keys =>
    let c := collect fragments options selections
    match c.fault with
    | some e => ⟨[], c.steps, .fault e⟩
    | none =>
      match keys with
      | [] => ⟨[c.fields], c.steps, .arrived⟩
      | key :: rest =>
        match c.fields.field? key with
        | none => ⟨[c.fields], c.steps, .missing key⟩
        | some f =>
          let below := descend fragments options f.selections rest
          ⟨c.fields :: below.levels, c.steps ++ below.steps, below.ending⟩

/-! ## Merging -/

/-- What is collected into a map from one selection set and then, unless that was stopped, from a
second, is collected from the two written as one. -/
theorem collectInto_append (fragments : FragmentTable) (options : CollectOptions)
    (s t : List Selection) (fields : FieldMap) :
    collectInto fragments options (s ++ t) fields
      = let first := collectInto fragments options s fields
        match first.fault with
        | some _ => first
        | none =>
          let second := collectInto fragments options t first.fields
          ⟨second.fields, first.steps ++ second.steps, second.fault⟩ := by
  simp only [collectInto, traverse_append, Traversal.keyed]
  rcases traverse fragments options.inlineFragments [] s with ⟨steps, _ | e⟩
  · simp [Traversal.andThen, Traversal.fields, KeyedList.insertAll_append]
  · rfl

end RequestedFields
