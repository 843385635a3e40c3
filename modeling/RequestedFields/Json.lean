import RequestedFields.Decimal
import RequestedFields.KeyedList

/-!
# JSON values

Payloads, options and the inline form of a context are JSON.  The members of an object are kept in
the order in which they came in, because the inline form is written into an object at a definite
place; **equality of objects nevertheless ignores that order** (`Json.same`).

An integer and a decimal are different numbers even where their values coincide.
-/

set_option autoImplicit false

namespace RequestedFields

/-- A number of a JSON text. -/
inductive Number where
  | integer (value : Int)
  /-- A number that was written with a fraction or an exponent. -/
  | decimal (value : Decimal)
  deriving DecidableEq, Repr

/-- The number as it is written. -/
def Number.text : Number → String
  | .integer value => toString value
  | .decimal value => value.text

/-- Equality of numbers: two integers or two decimals of the same value. -/
def Number.same : Number → Number → Bool
  | .integer a, .integer b => a == b
  | .decimal a, .decimal b => a.same b
  | _, _ => false

/-- A JSON value.  The members of an object stand in the order in which they came in. -/
inductive Json where
  | null
  | boolean (value : Bool)
  | number (value : Number)
  | string (value : String)
  | list (elements : List Json)
  | object (members : List (String × Json))

namespace Json

instance : Inhabited Json := ⟨.null⟩

/-- A natural number. -/
def ofNat (n : Nat) : Json := .number (.integer n)

/-- An absent text is null. -/
def ofText? : Option String → Json
  | some s => .string s
  | none => .null

/-- The sort of a value. -/
inductive Kind where
  | null
  | boolean
  | number
  | string
  | list
  | object
  deriving DecidableEq, Repr

/-- The sort of a value. -/
def kind : Json → Kind
  | .null => .null
  | .boolean _ => .boolean
  | .number _ => .number
  | .string _ => .string
  | .list _ => .list
  | .object _ => .object

/-- A kind as it is named to a user. -/
def Kind.phrase : Kind → String
  | .null => "null"
  | .boolean => "a boolean"
  | .number => "a number"
  | .string => "a string"
  | .list => "a list"
  | .object => "an object"

/-- Lists and objects hold other values; all else is a scalar. -/
def isContainer : Json → Bool
  | .list _ => true
  | .object _ => true
  | _ => false

/-- Only an object has members. -/
def isObject : Json → Bool
  | .object _ => true
  | _ => false

theorem isObject_iff {v : Json} : v.isObject = true ↔ ∃ members, v = .object members := by
  cases v <;> simp [isObject]

/-- A member of an object. -/
def member? (name : String) : Json → Option Json
  | .object members => (lookup Prod.fst name members).map Prod.snd
  | _ => none

/-- An element of a list. -/
def element? (index : Nat) : Json → Option Json
  | .list elements => elements[index]?
  | _ => none

/-- Set a member: in its place if the object has it, at the end if not. -/
def setMember (name : String) (value : Json) (members : List (String × Json)) :
    List (String × Json) :=
  upsert Prod.fst (name, value) members

theorem lookup_setMember (name : String) (value : Json) (members : List (String × Json))
    (n : String) :
    lookup Prod.fst n (setMember name value members)
      = if n = name then some (name, value) else lookup Prod.fst n members :=
  lookup_upsert Prod.fst (name, value) members n

/-! ## Equality -/

mutual

/-- Equality of values: lists element by element, objects member by member in any order. -/
def same : Json → Json → Bool
  | .null, .null => true
  | .boolean a, .boolean b => a == b
  | .number a, .number b => a.same b
  | .string a, .string b => a == b
  | .list s, .list t => sameElements s t
  | .object s, .object t => s.length == t.length && sameMembers s t
  | _, _ => false

/-- Equality of lists of values. -/
def sameElements : List Json → List Json → Bool
  | [], [] => true
  | a :: s, b :: t => same a b && sameElements s t
  | _, _ => false

/-- Every member on the left is found on the right under the same name with the same value. -/
def sameMembers : List (String × Json) → List (String × Json) → Bool
  | [], _ => true
  | (name, a) :: s, t =>
    (match lookup Prod.fst name t with
      | some (_, b) => same a b
      | none => false) && sameMembers s t

end

instance : BEq Json := ⟨same⟩

end Json

end RequestedFields
