/-!
# Decimals

A `Decimal` is a natural number scaled by a power of ten.  It becomes a double in two ways:

* `Decimal.toFloat` is the nearest double;
* `Decimal.scaled?` takes the digits and the power of ten as doubles and multiplies or divides them.
  Each step rounds, so that the result may miss the nearest double in its last bits.
-/

namespace Orrery

/-- The number `digits * 10 ^ exponent`. -/
structure Decimal where
  /-- The significant digits, read as one natural number. -/
  digits : Nat
  /-- The weight of the last digit. -/
  exponent : Int
deriving DecidableEq, Repr

namespace Decimal

/-- The nearest double, ties to even.  Powers of ten far outside the range of doubles are cut
short first: beyond them the result is zero or infinite whatever the digits are. -/
def toFloat (d : Decimal) : Float :=
  if d.digits = 0 then 0.0
  else if 400 < d.exponent then Float.ofScientific d.digits false 400
  else if d.exponent < -(400 + (d.digits.log2 : Int)) then 0.0
  else Float.ofScientific d.digits (d.exponent < 0) d.exponent.natAbs

/-- The exponent of the largest power of ten that is in the range of doubles. -/
def largestPower : Nat := 308

/-- The double nearest to `10 ^ k`. -/
def powerOfTen (k : Nat) : Float := Float.ofScientific 1 false k

/-- A double divided by `10 ^ k`.  A power out of range is divided by in parts, as long as anything
is left. -/
def dividedByPower (x : Float) (k : Nat) : Float :=
  if k ≤ largestPower then x / powerOfTen k
  else if x == 0.0 then x
  else dividedByPower (x / powerOfTen largestPower) (k - largestPower)
termination_by k
decreasing_by simp only [largestPower] at *; omega

/-- The digits times the power of ten, in the arithmetic of doubles; none if that is out of range.
The digits have to fit in a word of 64 bits. -/
def scaled? (d : Decimal) : Option Float :=
  let x := d.digits.toUInt64.toFloat
  if d.exponent < 0 then some (dividedByPower x d.exponent.natAbs)
  else if d.digits = 0 then some x
  else if largestPower < d.exponent then none
  else
    let y := x * powerOfTen d.exponent.toNat
    if y.isFinite then some y else none

end Decimal

end Orrery
