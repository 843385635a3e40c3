/-!
# Digits

Numbers by their decimal and hexadecimal digits, as query texts, JSON texts and messages write them.
-/

set_option autoImplicit false

namespace RequestedFields.Text

/-- One decimal digit or more. -/
def isDigits (cs : List Char) : Bool := !cs.isEmpty && cs.all Char.isDigit

/-- A whole number: a zero alone, or digits that do not begin with a zero. -/
def isWhole : List Char → Bool
  | [] => false
  | ['0'] => true
  | c :: rest => c ≠ '0' && (c :: rest).all Char.isDigit

/-- Whether a text begins with a minus, and what stands after it. -/
def unsigned : List Char → Bool × List Char
  | '-' :: rest => (true, rest)
  | cs => (false, cs)

/-- The value of a list of decimal digits. -/
def decimalValue (digits : List Char) : Nat :=
  digits.foldl (fun n c => 10 * n + (c.toNat - '0'.toNat)) 0

/-- A number with perhaps a minus, perhaps a dot and digits, and perhaps the letter `e` and an
exponent, where `exponent` says what may follow the letter. -/
def isDecimal (exponent : List Char → Bool) (cs : List Char) : Bool :=
  let digits := (unsigned cs).2
  isWhole (digits.takeWhile Char.isDigit) &&
    match digits.dropWhile Char.isDigit with
    | '.' :: rest =>
      isDigits (rest.takeWhile Char.isDigit) && isScale (rest.dropWhile Char.isDigit)
    | rest => isScale rest
where
  /-- Nothing, or the letter and an exponent. -/
  isScale : List Char → Bool
    | [] => true
    | c :: rest => (c = 'e' || c = 'E') && exponent rest

/-- The value of a hexadecimal digit, in either case. -/
def hexDigit? (c : Char) : Option Nat :=
  if c.isDigit then some (c.toNat - '0'.toNat)
  else if 'a' ≤ c ∧ c ≤ 'f' then some (c.toNat - 'a'.toNat + 10)
  else if 'A' ≤ c ∧ c ≤ 'F' then some (c.toNat - 'A'.toNat + 10)
  else none

/-- The value of a list of hexadecimal digits. -/
def hexValue? (digits : List Char) : Option Nat :=
  digits.foldlM (fun n c => (hexDigit? c).map (16 * n + ·)) 0

/-- The hexadecimal digits of a number, without leading zeros. -/
def hexText (n : Nat) : String := String.ofList (Nat.toDigits 16 n)

end RequestedFields.Text
