import RequestedFields.Text.Digits

/-!
# Literals of a query text

Numbers, strings and block strings occur in a query only as argument values, which no answer of
this library depends on.  What matters is **which characters belong to a literal, and whether they
make one**: a literal that is wrong is where the reading of the query stops.

* `isNumber` — a number runs to the next blank or punctuator (`endsNumber`), and what stands up to
  there has to be an integer of 64 bits or a decimal.
* `quotedLength`, `wellEscaped` — a string ends at the next quote that no backslash precedes, on the
  same line, and its escapes have to be known ones.
* `blockLength` — a block string ends at the next three quotes that no backslash of its content
  precedes.
-/

set_option autoImplicit false

namespace RequestedFields.Query

/-! ## Numbers -/

/-- The characters that end a number.  A dot, a quote and a byte order mark do not. -/
def endsNumber (c : Char) : Bool :=
  c ∈ [' ', '\n', '\r', '\t', ',', '#', '!', '$', ':', '=', '@', '|', '&', '(', ')', '[', ']',
    '\x7b', '\x7d']

/-- What may follow the letter of an exponent: digits after a sign, or digits that begin with one
of 1 to 8. -/
def isExponent : List Char → Bool
  | '+' :: rest => Text.isDigits rest
  | '-' :: rest => Text.isDigits rest
  | c :: rest => '1' ≤ c && c ≤ '8' && rest.all Char.isDigit
  | [] => false

/-- An integer that fits in 64 bits with a sign. -/
def isInteger (cs : List Char) : Bool :=
  let (negative, digits) := Text.unsigned cs
  let bound := 0x8000000000000000
  Text.isWhole digits && Text.decimalValue digits < (if negative then bound + 1 else bound)

/-- The characters make a number. -/
def isNumber (cs : List Char) : Bool :=
  if cs.any (fun c => c = '.' || c = 'e' || c = 'E') then Text.isDecimal isExponent cs
  else isInteger cs

/-! ## Strings -/

/-- How many characters a string takes after its opening quote, the closing one included. -/
def quotedLength : List Char → Option Nat
  | [] => none
  | '"' :: _ => some 1
  | '\n' :: _ => none
  | '\\' :: '\n' :: _ => none
  | '\\' :: _ :: rest => (quotedLength rest).map (· + 2)
  | _ :: rest => (quotedLength rest).map (· + 1)

/-- Four characters that name a character by its number: four hexadecimal digits, or a plus and
three, but no surrogate. -/
def isCodeUnit (a b c d : Char) : Bool :=
  match Text.hexValue? (if a = '+' then [b, c, d] else [a, b, c, d]) with
  | some n => !(0xD800 ≤ n && n ≤ 0xDFFF)
  | none => false

/-- Every backslash begins a known escape. -/
def wellEscaped : List Char → Bool
  | [] => true
  | '\\' :: 'u' :: a :: b :: c :: d :: rest => isCodeUnit a b c d && wellEscaped rest
  | '\\' :: c :: rest =>
    c ∈ ['"', '\\', '/', 'b', 'f', 'n', 'r', 't'] && wellEscaped rest
  | '\\' :: [] => false
  | _ :: rest => wellEscaped rest

/-- How many characters a block string takes after its opening quotes, the closing ones included.
`escaped` says that a backslash of the content stands just before. -/
def blockLength (escaped : Bool) : List Char → Option Nat
  | '"' :: '"' :: '"' :: rest =>
    if escaped then (blockLength false rest).map (· + 3) else some 3
  | c :: rest => (blockLength (c = '\\') rest).map (· + 1)
  | [] => none

end RequestedFields.Query
