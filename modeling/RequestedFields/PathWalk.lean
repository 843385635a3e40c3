import RequestedFields.Traversal

/-!
# Following a response path

A field of a response is reached from the operation by a **path** of response keys.  The nodes of
the query that select it are found level by level: of all the selection sets reached so far, in
order, take every field with the next key; the selection sets of those fields are the next level.
Fragments of both kinds are expanded, whatever their type conditions, and fields with another key
are not looked into.

A level is read to its end before it is judged, so a fault in any of its spreads comes before
"nothing matched".

## What is here

* `PathError` — an empty path, a level where nothing matched, or a spread at fault.
* `PathWalk` — the journal of all levels and the nodes, or the error.
* `matchesOf`, `PathWalk.level`, `PathWalk.follow`, `PathWalk.ofRoot` — the matches of a level, one
  level, the rest of a path, a whole path.
-/

set_option autoImplicit false

namespace RequestedFields

/-- Why a path does not lead to a field. -/
inductive PathError where
  /-- The path has no key. -/
  | emptyPath
  /-- Nothing matches the last of these keys, which lead from the operation. -/
  | fieldNotFound (path : List String)
  /-- A spread is at fault. -/
  | fragment (error : FragmentError)
  deriving DecidableEq, Repr

/-- The error as it is shown to a user. -/
def PathError.message : PathError → String
  | .emptyPath => "The path to the resolved field is empty"
  | .fieldNotFound path => "No field found at '" ++ ".".intercalate path ++ "'"
  | .fragment error => error.message

/-- What was done to follow a path, and the nodes at its end. -/
structure PathWalk where
  steps : List Step
  outcome : Except PathError (List Field)

/-- The fields with a response key, in order and as often as they were met. -/
def matchesOf (key : String) (fields : List Field) : List Field :=
  fields.filter (fun f => f.responseKey = key)

theorem matchesOf_append (key : String) (fields others : List Field) :
    matchesOf key (fields ++ others) = matchesOf key fields ++ matchesOf key others :=
  List.filter_append fields others

namespace PathWalk

/-- One level: the fields with the key `key` in the selection sets that the keys of `walked` have
led to. -/
def level (fragments : FragmentTable) (walked : List String) (sets : List (List Selection))
    (key : String) : PathWalk :=
  let t := traverseAll fragments .expand sets
  ⟨t.steps,
    match t.fault with
    | some e => .error (.fragment e)
    | none =>
      match matchesOf key t.fields with
      | [] => .error (.fieldNotFound (walked ++ [key]))
      | found => .ok found⟩

/-- The levels from `key` on, where the keys of `walked` have led to the given selection sets. -/
def follow (fragments : FragmentTable) :
    (walked : List String) → (sets : List (List Selection)) → (key : String) →
      (rest : List String) → PathWalk
  | walked, sets, key, [] => level fragments walked sets key
  | walked, sets, key, next :: rest =>
    let here := level fragments walked sets key
    match here.outcome with
    | .error e => ⟨here.steps, .error e⟩
    | .ok found =>
      let below := follow fragments (walked ++ [key]) (found.map Field.selections) next rest
      ⟨here.steps ++ below.steps, below.outcome⟩

/-- Follow a path from the selection set of an operation. -/
def ofRoot (fragments : FragmentTable) (root : List Selection) : List String → PathWalk
  | [] => ⟨[], .error .emptyPath⟩
  | key :: rest => follow fragments [] [root] key rest

end PathWalk

end RequestedFields
