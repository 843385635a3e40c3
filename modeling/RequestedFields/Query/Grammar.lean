import RequestedFields.Query.Token
import RequestedFields.Query.Written
import RequestedFields.Reader

/-!
# The grammar of a query text

A query document is a sequence of definitions: operations and fragments.  Each rule of the grammar
is a reader of tokens, and **the next token alone decides** which way a rule goes, so a text is
wrong at the first token that fits nowhere.  What is read is put together as it is written
(`WrittenDefinition`); variables, arguments and directives have to be well formed but leave no trace
in it.

```text
document   : definition+
definition : set | ("query" | "mutation" | "subscription") [Name] [variables] directives set
           | "fragment" Name "on" Name directives set
variables  : "(" ("$" Name ":" type ["=" constant])+ ")"
type       : (Name | "[" type "]") ["!"]
set        : "{" selection+ "}"
selection  : Name [":" Name] [arguments] directives [set]
           | "..." "on" Name directives set | "..." Name directives | "..." directives set
arguments  : "(" (Name ":" value)+ ")"
directives : ("@" Name [arguments])*
value      : Name | literal | "$" Name | "[" value* "]" | "{" (Name ":" value)* "}"
```

A constant is a value without variables.  Names that look like keywords are ordinary names wherever
a keyword is not asked for; after `...`, `on` always begins a type condition.

## Nesting

**At most 50 brackets may be open at once**, of whatever kind; the one that would be the 51st does
not fit.  Every rule that opens brackets is told how many it may still open (`room`), and hands on
one fewer to what stands inside of them.  That number is also what the recursion of the grammar goes
down on.
-/

set_option autoImplicit false

namespace RequestedFields.Query

namespace Grammar

open Reader

/-- The number of brackets that may be open at once. -/
def maxNesting : Nat := 50

/-- A name. -/
def name : Reader Token String
  | .name text :: rest => .ok (text, rest)
  | stuck => .error stuck

/-- A word, which is a name with a given text. -/
def word (text : String) : Reader Token Unit := expect (.name text)

/-- Whether the next token is `t`. -/
def nextIs (t : Token) : Reader Token Bool := do
  return (← peek) = some t

/-- A name, if the next token is one. -/
def name? : Reader Token (Option String)
  | .name text :: rest => .ok (some text, rest)
  | tokens => .ok (none, tokens)

/-! ## Values and types -/

/-- A value without brackets. -/
def scalar (constant : Bool) : Reader Token Unit := do
  match ← peek with
  | some (.name _) => skip
  | some (.literal _) => skip
  | some .dollar =>
    if constant then misfit
    else
      skip
      discard name
  | _ => misfit

/-- A value, or only a constant. -/
def value (constant : Bool) : (room : Nat) → Reader Token Unit
  | 0 => scalar constant
  | room + 1 => do
    match ← peek with
    | some .bracketOpen =>
      skip
      discard (manyUntil .bracketClose (value constant room))
    | some .braceOpen =>
      skip
      discard (manyUntil .braceClose do
        discard name
        expect .colon
        value constant room)
    | _ => scalar constant

/-- The mark of a type that is not null. -/
def bang? : Reader Token Unit := do
  if ← nextIs .bang then skip

/-- A type. -/
def type : (room : Nat) → Reader Token Unit
  | 0 => do
    discard name
    bang?
  | room + 1 => do
    if ← nextIs .bracketOpen then
      skip
      type room
      expect .bracketClose
    else
      discard name
    bang?

/-! ## Variables, arguments and directives -/

/-- Nothing, or one item or more in parentheses. -/
def parenthesized? (room : Nat) (item : (room : Nat) → Reader Token Unit) : Reader Token Unit := do
  if ← nextIs .parenOpen then
    match room with
    | 0 => misfit
    | room + 1 =>
      skip
      discard (someUntil .parenClose (item room))

/-- The definition of a variable. -/
def variableDefinition (room : Nat) : Reader Token Unit := do
  expect .dollar
  discard name
  expect .colon
  type room
  if ← nextIs .equals then
    skip
    value true room

/-- An argument. -/
def argument (room : Nat) : Reader Token Unit := do
  discard name
  expect .colon
  value false room

/-- Directives, as many as there are. -/
def directives (room : Nat) : Reader Token Unit :=
  discard (repeatWhile (· = .atSign) do
    skip
    discard name
    parenthesized? room argument)

/-! ## Selections -/

/-- A field, with `set` to read the selections below it. -/
def field (room : Nat) (set : Reader Token (List WrittenSelection)) :
    Reader Token WrittenSelection := do
  let first ← name
  let second ← if ← nextIs .colon then do
      skip
      some <$> name
    else
      pure none
  parenthesized? room argument
  directives room
  let below ← if ← nextIs .braceOpen then set else pure []
  match second with
  | none => return .field ⟨none, first, below⟩
  | some name => return .field ⟨some first, name, below⟩

/-- A spread or an inline fragment, with `set` to read its selections. -/
def fragmentSelection (room : Nat) (set : Reader Token (List WrittenSelection)) :
    Reader Token WrittenSelection := do
  expect .ellipsis
  match ← name? with
  | some "on" =>
    let typeCondition ← name
    directives room
    return .inline (some typeCondition) (← set)
  | some fragment =>
    directives room
    return .spread fragment
  | none =>
    directives room
    return .inline none (← set)

/-- A selection, with `set` to read the selections inside of it. -/
def selection (room : Nat) (set : Reader Token (List WrittenSelection)) :
    Reader Token WrittenSelection := do
  if ← nextIs .ellipsis then fragmentSelection room set else field room set

/-- A selection set. -/
def selectionSet : (room : Nat) → Reader Token (List WrittenSelection)
  | 0 => misfit
  | room + 1 => do
    expect .braceOpen
    someUntil .braceClose (selection room (selectionSet room))

/-! ## Definitions -/

/-- The words that an operation can begin with. -/
def operationWords : List String := ["query", "mutation", "subscription"]

/-- An operation that begins with a word. -/
def operation (room : Nat) : Reader Token WrittenDefinition := do
  skip
  let operationName ← name?
  parenthesized? room variableDefinition
  directives room
  return .operation (.worded operationName (← selectionSet room))

/-- A fragment definition. -/
def fragment (room : Nat) : Reader Token WrittenDefinition := do
  word "fragment"
  let fragmentName ← name
  word "on"
  let typeCondition ← name
  directives room
  return .fragment ⟨fragmentName, typeCondition, ← selectionSet room⟩

/-- A definition. -/
def definition (room : Nat) : Reader Token WrittenDefinition := do
  match ← peek with
  | some .braceOpen => return .operation (.bare (← selectionSet room))
  | some (.name text) =>
    if text ∈ operationWords then operation room else fragment room
  | _ => misfit

/-- A document, which is one definition or more up to the last token. -/
def document : Reader Token (List WrittenDefinition) := do
  let first ← definition maxNesting
  let rest ← repeatWhile (fun _ => true) (definition maxNesting)
  return first :: rest

end Grammar

end RequestedFields.Query
