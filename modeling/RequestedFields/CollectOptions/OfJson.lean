import RequestedFields.CollectOptions
import RequestedFields.Json
import RequestedFields.Text.Quoted

/-!
# Reading options from JSON

A host keeps the options of a collection in its own configuration, where they are an **object** with
the members `key` and `inline_fragments`, in any order, or a **list** of the two in that order.
What is missing keeps its default; what is too much is refused, and so is every member of another
name.

A choice is written as its name, or as an object with that name as its only member and nothing, that
is null, under it.

The first thing that is wrong, in the order of the text, decides the error.  The length of a list is
looked at last, after its two elements.
-/

set_option autoImplicit false

namespace RequestedFields

/-- What was asked for where a value of another type was found. -/
inductive Expected where
  | options
  | choice
  | nothing
  deriving DecidableEq, Repr

/-- What was asked for, as it is named to a user. -/
def Expected.phrase : Expected → String
  | .options => "struct FlattenOptions"
  | .choice => "string or map"
  | .nothing => "unit"

/-- A value as a message tells what was found. -/
def Json.described : Json → String
  | .null => "null"
  | .boolean value => "boolean `" ++ toString value ++ "`"
  | .number (.integer value) => "integer `" ++ toString value ++ "`"
  | .number (.decimal value) => "floating point `" ++ value.text ++ "`"
  | .string value => "string " ++ Text.quoted value
  | .list _ => "sequence"
  | .object _ => "map"

/-- What is wrong with a JSON value that should be options. -/
inductive OptionsError where
  /-- A value of another type was found. -/
  | invalidType (found : Json) (expected : Expected)
  /-- There is no option of this name. -/
  | unknownMember (name : String)
  /-- There is no choice of this name; these are the ones there are. -/
  | unknownChoice (name : String) (choices : String × String)
  /-- An object that should name a choice does not have exactly one member. -/
  | notOneMember
  /-- A list of this length has more than two elements. -/
  | tooLong (length : Nat)

/-- The error as it is shown to a user. -/
def OptionsError.message : OptionsError → String
  | .invalidType found expected =>
    "invalid type: " ++ found.described ++ ", expected " ++ expected.phrase
  | .unknownMember name =>
    "unknown field `" ++ name ++ "`, expected `key` or `inline_fragments`"
  | .unknownChoice name (first, second) =>
    "unknown variant `" ++ name ++ "`, expected `" ++ first ++ "` or `" ++ second ++ "`"
  | .notOneMember => "invalid value: map, expected map with a single key"
  | .tooLong length =>
    "invalid length " ++ toString length ++ ", expected fewer elements in array"

namespace CollectOptions

/-- Read a choice by its name. -/
def readName {α : Type} (ofText? : String → Option α) (choices : String × String) (name : String) :
    Except OptionsError α :=
  match ofText? name with
  | some choice => .ok choice
  | none => .error (.unknownChoice name choices)

/-- Read a choice: its name, or an object with nothing under that name. -/
def readChoice {α : Type} (ofText? : String → Option α) (choices : String × String) :
    Json → Except OptionsError α
  | .string name => readName ofText? choices name
  | .object [(name, content)] => do
    let choice ← readName ofText? choices name
    match content with
    | .null => return choice
    | other => throw (.invalidType other .nothing)
  | .object _ => throw .notOneMember
  | other => throw (.invalidType other .choice)

/-- Read what a field is collected under. -/
def readKey : Json → Except OptionsError KeyChoice :=
  readChoice KeyChoice.ofText? (KeyChoice.name.text, KeyChoice.responseKey.text)

/-- Read what is done with inline fragments. -/
def readInlineFragments : Json → Except OptionsError InlineMode :=
  readChoice InlineMode.ofText? (InlineMode.skip.text, InlineMode.expand.text)

/-- Read one member of an object into the options. -/
def readMember (options : CollectOptions) : String × Json → Except OptionsError CollectOptions
  | ("key", value) => do return options.withKey (← readKey value)
  | ("inline_fragments", value) => do
    return options.withInlineFragments (← readInlineFragments value)
  | (name, _) => throw (.unknownMember name)

/-- Read options. -/
def ofJson : Json → Except OptionsError CollectOptions
  | .object members => members.foldlM readMember default
  | .list [] => return default
  | .list [key] => do return default.withKey (← readKey key)
  | .list (key :: inlineFragments :: more) => do
    let options : CollectOptions := ⟨← readKey key, ← readInlineFragments inlineFragments⟩
    if more.isEmpty then return options else throw (.tooLong (more.length + 2))
  | other => throw (.invalidType other .options)

end CollectOptions

end RequestedFields
