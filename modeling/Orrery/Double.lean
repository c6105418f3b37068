import Orrery.Double.Parts
import Orrery.Scalar

/-!
# Doubles as scalars

The program measures with binary64 numbers.  The four operations, the square root and the
comparisons are those of IEEE 754.  Sine and cosine are the platform's, and an angle that is not
finite has neither (`sine`, `cosine`).  The remainder is exact (`remainder`), and `wrap` adds the
modulus to a negative remainder with one rounding, so it may return the modulus itself.
-/

namespace Orrery.Double

/-- The undefined number. -/
def nan : Float := Float.ofBits 0x7FF8000000000000

/-- The exact remainder of the division of `x` by `y` truncated toward zero.  It has the sign of
`x`, and is undefined for an infinite `x` or a zero `y`. -/
def remainder (x y : Float) : Float :=
  match parts? x, parts? y with
  | some a, some b =>
    if b.mantissa = 0 then nan
    else
      let e := min a.exponent b.exponent
      Parts.toFloat
        ⟨a.negative,
          scaleNat a.mantissa (a.exponent - e) % scaleNat b.mantissa (b.exponent - e), e⟩
  | some _, none => if y.isNaN then nan else x
  | none, _ => nan

/-- `x` shifted into the range from zero to `|m|`, the upper end included: the sum of a tiny
negative remainder and `|m|` rounds to `|m|`. -/
def wrap (x m : Float) : Float :=
  let r := remainder x m
  if r < 0.0 then r + m.abs else r

/-- The larger of two numbers; an undefined one gives way to the other. -/
def larger (x y : Float) : Float :=
  if x.isNaN then y else if y.isNaN then x else if x < y then y else x

/-- The smaller of two numbers; an undefined one gives way to the other. -/
def smaller (x y : Float) : Float :=
  if x.isNaN then y else if y.isNaN then x else if y < x then y else x

/-- The magnitude of `x` with the sign bit of `s`. -/
def withSignOf (x s : Float) : Float :=
  if isNegative s then -x.abs else x.abs

/-- Sine of an angle in radians, undefined unless the angle is finite. -/
def sine (x : Float) : Float := if x.isFinite then x.sin else nan

/-- Cosine of an angle in radians, undefined unless the angle is finite. -/
def cosine (x : Float) : Float := if x.isFinite then x.cos else nan

end Orrery.Double

namespace Orrery

instance : Scalar Float where
  zero := 0.0
  one := 1.0
  fullTurn := 6.283185307179586
  tolerance := 1e-6
  lt x y := x.lt y
  le x y := x.le y
  eq x y := x == y
  isFinite := Float.isFinite
  abs := Float.abs
  sqrt := Float.sqrt
  sin := Double.sine
  cos := Double.cosine
  larger := Double.larger
  smaller := Double.smaller
  withSignOf := Double.withSignOf
  wrap := Double.wrap

end Orrery
