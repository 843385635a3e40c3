import RequestedFields.Decimal

/-!
# Decimals at the precision of 64-bit floating point

A JSON number with a fraction is kept as precisely as a 64-bit binary floating point number is, and
no more: of all numbers m · 2^q with m below 2^53 and q not below -1074 it stands for **the nearest
one**, and of two nearest for the one with the even m.  Of all decimals that stand for that number
it is then **the one with the fewest digits**, and of those the nearest, or the one that ends in an
even digit.

All of this is exact arithmetic on natural numbers: what is compared is brought to a common
denominator.

## What is here

* `Binary64`, `Binary64.nearest` — the numbers m · 2^q, and the one nearest to a decimal.
* `Binary64.onGrid?`, `Binary64.shortest` — the multiple of a power of ten that stands for a number,
  if there is one, and the one of the largest power.
* `Decimal.rounded?` — both, unless the number is too large.
-/

set_option autoImplicit false

namespace RequestedFields

/-- The number `mantissa` · 2^`exponent`. -/
structure Binary64 where
  mantissa : Nat
  exponent : Int
  deriving DecidableEq, Repr

namespace Binary64

/-- The power of `base` for an exponent that is not negative, and one for one that is. -/
def scale (base : Nat) (exponent : Int) : Nat := Nat.pow base exponent.toNat

/-- The least mantissa of 53 bits. -/
def leastFull : Nat := 0x10000000000000

/-- The least exponent. -/
def leastExponent : Int := -1074

/-- A quotient rounded to the nearest whole number, and to the even one of two. -/
def roundDiv (num den : Nat) : Nat :=
  let quotient := num / den
  let twice := 2 * (num % den)
  if den < twice ∨ (twice = den ∧ quotient % 2 = 1) then quotient + 1 else quotient

/-- The number nearest to `digits` · 10^`exponent`. -/
def nearest (digits : Nat) (exponent : Int) : Binary64 :=
  let num := digits * scale 10 exponent
  let den := scale 10 (-exponent)
  let guess : Int := num.log2 - den.log2
  let leading := if den * scale 2 guess ≤ num * scale 2 (-guess) then guess else guess - 1
  let q := max (leading - 52) leastExponent
  let m := roundDiv (num * scale 2 (-q)) (den * scale 2 q)
  if m = 2 * leastFull then ⟨leastFull, q + 1⟩ else ⟨m, q⟩

/-- The multiple of 10^`k` that stands for the number, if there is one.  Whatever is nearer to the
number than to its neighbours stands for it, and so does what is halfway if the mantissa is even. -/
def onGrid? (x : Binary64) (k : Int) : Option Nat :=
  let unit := scale 10 k * scale 2 (2 - x.exponent)
  let quarter := scale 2 (x.exponent - 2) * scale 10 (-k)
  let below := if x.mantissa = leastFull ∧ leastExponent < x.exponent then 1 else 2
  let low := (4 * x.mantissa - below) * quarter
  let high := (4 * x.mantissa + 2) * quarter
  let value := 4 * x.mantissa * quarter
  let stands (c : Nat) : Bool :=
    (low < c * unit && c * unit < high) ||
      (x.mantissa % 2 == 0 && (c * unit == low || c * unit == high))
  let c := value / unit
  if stands c then
    if stands (c + 1) then some (roundDiv value unit) else some c
  else if stands (c + 1) then some (c + 1)
  else none

/-- The decimal of the fewest digits that stands for the number, which is not above 10^`top`.  A
decimal of 17 digits always does. -/
def shortest (x : Binary64) (top : Int) : Nat × Int :=
  ((List.range 20).findSome? fun (i : Nat) =>
    (x.onGrid? (top - i)).map fun c => (c, top - (i : Int))).getD (0, 0)

end Binary64

/-- The decimal that a number is kept as, unless it is too large. -/
def Decimal.rounded? (s : Scaled) : Option Decimal :=
  let top : Int := (toString s.digits).length + s.exponent
  if s.digits = 0 ∨ top < -330 then some ⟨s.negative, 0, 0⟩
  else if 310 < top then none
  else
    let x := Binary64.nearest s.digits s.exponent
    if x.mantissa = 0 then some ⟨s.negative, 0, 0⟩
    else if 971 < x.exponent then none
    else
      let (digits, exponent) := x.shortest top
      some (.ofScaled ⟨s.negative, digits, exponent⟩)

end RequestedFields
