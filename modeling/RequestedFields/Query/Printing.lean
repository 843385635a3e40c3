import RequestedFields.Query.Token
import RequestedFields.Selection

/-!
# Printing query text

The plain way to write selections down: an anonymous operation and then the fragment definitions,
all tokens separated by one space.  A field with nothing below it is written without braces; an
inline fragment always has them.

What is printed is first a list of tokens (`ofQuery`) and then a text (`Token.join`), so that what
the grammar makes of the tokens and what the lexer makes of the text can be looked at apart.
-/

set_option autoImplicit false

namespace RequestedFields.Query

/-- Tokens written one after the other with a space between them. -/
def Token.join (tokens : List Token) : String := " ".intercalate (tokens.map Token.spelling)

namespace Printing

/-- Selections in braces. -/
def braced (selections : List Token) : List Token := .braceOpen :: selections ++ [.braceClose]

mutual

/-- A field. -/
def ofField : Field → List Token
  | ⟨label, name, selections⟩ =>
    (match label with
      | none => [.name name]
      | some key => [.name key, .colon, .name name]) ++
    (match selections with
      | [] => []
      | first :: rest => braced (ofSelection first ++ ofSelections rest))

/-- A selection. -/
def ofSelection : Selection → List Token
  | .field f => ofField f
  | .spread fragment => [.ellipsis, .name fragment]
  | .inline typeCondition selections =>
    .ellipsis :: (match typeCondition with
      | none => []
      | some type => [.name "on", .name type]) ++ braced (ofSelections selections)

/-- Selections one after the other. -/
def ofSelections : List Selection → List Token
  | [] => []
  | s :: rest => ofSelection s ++ ofSelections rest

end

/-- A fragment definition. -/
def ofFragment (f : Fragment) : List Token :=
  [.name "fragment", .name f.name, .name "on", .name f.typeCondition] ++
    braced (ofSelections f.selections)

/-- An anonymous operation and fragment definitions. -/
def ofQuery (root : List Selection) (fragments : List Fragment) : List Token :=
  braced (ofSelections root) ++ (fragments.map ofFragment).flatten

/-- The text of an anonymous operation and fragment definitions. -/
def text (root : List Selection) (fragments : List Fragment) : String :=
  Token.join (ofQuery root fragments)

end Printing

end RequestedFields.Query
