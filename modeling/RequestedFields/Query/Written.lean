import RequestedFields.Selection

/-!
# Selections as they are written

The grammar builds a query text up from what is written in it: fields, spreads and inline fragments,
and around them operations and fragment definitions.  What is **asked for** is read off that, one
part at a time and without looking back at the text: a written field asks for a field, a written
fragment defines a fragment, and an operation, in whichever form it is written, has a selection set
and perhaps a name.

Only what one of these conversions looks at is kept of a text.  Variables, arguments and directives
are not: the grammar makes sure that they are well formed, and that is all that becomes of them.

* `WrittenField`, `WrittenSelection`, `WrittenOperation`, `WrittenFragment`, `WrittenDefinition`.
* `WrittenSelection.toSelection`, `WrittenFragment.toFragment`, `WrittenOperation.name?`,
  `WrittenOperation.set` — what they ask for.
* `Definition`, `WrittenDefinition.toDefinition` — the same for whole definitions.
-/

set_option autoImplicit false

namespace RequestedFields.Query

/-! ## What is written -/

mutual

/-- A field: one name, or an alias and a name, and the selections in the braces behind it.  A field
without braces has none. -/
structure WrittenField where
  alias? : Option String
  name : String
  set : List WrittenSelection

/-- An entry of a selection set. -/
inductive WrittenSelection where
  /-- A field. -/
  | field (field : WrittenField)
  /-- Three dots and the name of a fragment. -/
  | spread (fragment : String)
  /-- Three dots and braces, with the name of a type between them if there is a condition. -/
  | inline (typeCondition : Option String) (set : List WrittenSelection)

end

/-- An operation. -/
inductive WrittenOperation where
  /-- Braces alone, which are a query without a name. -/
  | bare (set : List WrittenSelection)
  /-- A word that says which operation it is, perhaps a name, and braces. -/
  | worded (name : Option String) (set : List WrittenSelection)

/-- A fragment definition. -/
structure WrittenFragment where
  name : String
  typeCondition : String
  set : List WrittenSelection

/-- One of the definitions that a document consists of. -/
inductive WrittenDefinition where
  | operation (operation : WrittenOperation)
  | fragment (fragment : WrittenFragment)

/-! ## What is asked for -/

mutual

/-- The field that a written field asks for. -/
def WrittenField.toField : WrittenField → Field
  | ⟨label, name, set⟩ => ⟨label, name, toSelections set⟩

/-- The selection that a written one stands for. -/
def WrittenSelection.toSelection : WrittenSelection → Selection
  | .field f => .field f.toField
  | .spread fragment => .spread fragment
  | .inline typeCondition set => .inline typeCondition (toSelections set)

/-- The selections that written ones stand for, in their order. -/
def toSelections : List WrittenSelection → List Selection
  | [] => []
  | s :: rest => s.toSelection :: toSelections rest

end

/-- The name of an operation, which braces alone do not have. -/
def WrittenOperation.name? : WrittenOperation → Option String
  | .bare _ => none
  | .worded name _ => name

/-- What stands in the braces of an operation. -/
def WrittenOperation.set : WrittenOperation → List WrittenSelection
  | .bare set => set
  | .worded _ set => set

/-- The fragment that is defined. -/
def WrittenFragment.toFragment (f : WrittenFragment) : Fragment :=
  ⟨f.name, f.typeCondition, toSelections f.set⟩

/-- A definition of a query document. -/
inductive Definition where
  /-- A query, mutation or subscription. -/
  | operation (name : Option String) (selections : List Selection)
  /-- A fragment. -/
  | fragment (fragment : Fragment)
  deriving DecidableEq

/-- The definition that a written one stands for. -/
def WrittenDefinition.toDefinition : WrittenDefinition → Definition
  | .operation o => .operation o.name? (toSelections o.set)
  | .fragment f => .fragment f.toFragment

end RequestedFields.Query
