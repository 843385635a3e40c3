import RequestedFields.Text.Digits

/-!
# Decimals

A decimal is a sign, the significant digits as one whole number, and a power of ten.  The digits do
not end in a zero, so a value has one form, with one exception: **zero has a sign, which is written
but does not count** when two decimals are compared.

A decimal is written with the point among its digits as long as that takes few zeros, and with an
exponent and its sign otherwise; without an exponent, a value without a fraction ends in `.0`.

## What is here

* `Scaled`, `Scaled.read` — any whole number times a power of ten, and the one that a written form
  means.
* `Decimal.ofScaled` — its decimal.
* `Decimal.same` — equality of values.
* `Decimal.text` — the written form.
-/

set_option autoImplicit false

namespace RequestedFields

/-- A sign, a whole number and a power of ten. -/
structure Scaled where
  negative : Bool
  digits : Nat
  exponent : Int
  deriving DecidableEq, Repr

namespace Scaled

/-- What the letter of an exponent and the digits after it mean. -/
def readExponent : List Char → Int
  | _ :: '-' :: digits => -(Text.decimalValue digits : Int)
  | _ :: '+' :: digits => Text.decimalValue digits
  | _ :: digits => Text.decimalValue digits
  | [] => 0

/-- What a written form means, which `Text.isDecimal` has accepted. -/
def read (lexeme : List Char) : Scaled :=
  let (negative, body) := Text.unsigned lexeme
  let whole := body.takeWhile Char.isDigit
  match body.dropWhile Char.isDigit with
  | '.' :: rest =>
    let fraction := rest.takeWhile Char.isDigit
    ⟨negative, Text.decimalValue (whole ++ fraction),
      readExponent (rest.dropWhile Char.isDigit) - fraction.length⟩
  | rest => ⟨negative, Text.decimalValue whole, readExponent rest⟩

end Scaled

/-- A sign, significant digits and a power of ten. -/
structure Decimal where
  negative : Bool
  digits : Nat
  exponent : Int
  deriving DecidableEq, Repr

namespace Decimal

/-- Move the zeros at the end of a number into its power of ten. -/
def shorten (n : Nat) (exponent : Int) : Nat × Int :=
  if n ≠ 0 ∧ n % 10 = 0 then shorten (n / 10) (exponent + 1) else (n, exponent)
termination_by n
decreasing_by omega

/-- The decimal of a whole number times a power of ten. -/
def ofScaled (s : Scaled) : Decimal :=
  if s.digits = 0 then ⟨s.negative, 0, 0⟩
  else ⟨s.negative, (shorten s.digits s.exponent).1, (shorten s.digits s.exponent).2⟩

/-- The two have the same value. -/
def same (a b : Decimal) : Bool := (a.digits == 0 && b.digits == 0) || a == b

/-! ## The written form -/

/-- Zeros, as many as that. -/
def zeros (n : Nat) : String := "".pushn '0' n

/-- The decimal without its sign, where `digits` are its digits and `point` of them stand before the
point; a negative number of them is a number of zeros after it. -/
def layOut (digits : String) (point : Int) : String :=
  let length : Int := digits.length
  if length ≤ point ∧ point ≤ 16 then digits ++ zeros (point - length).toNat ++ ".0"
  else if 0 < point ∧ point ≤ 16 then
    (digits.take point.toNat).toString ++ "." ++ (digits.drop point.toNat).toString
  else if -5 < point ∧ point ≤ 0 then "0." ++ zeros (-point).toNat ++ digits
  else
    let fraction := (digits.drop 1).toString
    (digits.take 1).toString ++ (if fraction.isEmpty then "" else "." ++ fraction) ++ "e"
      ++ (if 0 < point then "+" else "") ++ toString (point - 1)

/-- The decimal as it is written. -/
def text (d : Decimal) : String :=
  let digits := toString d.digits
  (if d.negative then "-" else "") ++ layOut digits (digits.length + d.exponent)

end Decimal

end RequestedFields
