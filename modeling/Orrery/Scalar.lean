/-!
# Scalars

`Scalar α` is what geometry and motion ask of their numbers: the field operations, comparisons
as Boolean tests, and the few functions of analysis that the motion rules use.  All formulas of
the library are written once over it, so that the program runs on binary floating point
(`Orrery.Double`) while statements about exact arithmetic speak of the very same formulas.

The comparisons are Boolean and need not be a linear order: a floating-point value may be
incomparable with everything.
-/

namespace Orrery

/-- Numbers that positions, directions, angles and times are measured in. -/
class Scalar (α : Type) extends Add α, Sub α, Mul α, Div α, Neg α where
  /-- The origin of every axis. -/
  zero : α
  /-- The length of a unit vector. -/
  one : α
  /-- The angle of a full turn, in radians. -/
  fullTurn : α
  /-- How far from one the length of a unit vector may be, and how far from zero the inner
  product of perpendicular ones. -/
  tolerance : α
  lt : α → α → Bool
  le : α → α → Bool
  eq : α → α → Bool
  /-- Neither infinite nor undefined. -/
  isFinite : α → Bool
  abs : α → α
  sqrt : α → α
  /-- Sine of an angle in radians. -/
  sin : α → α
  /-- Cosine of an angle in radians. -/
  cos : α → α
  /-- The larger of two numbers; an undefined one gives way to the other. -/
  larger : α → α → α
  /-- The smaller of two numbers; an undefined one gives way to the other. -/
  smaller : α → α → α
  /-- The magnitude of the first number with the sign of the second. -/
  withSignOf : α → α → α
  /-- `wrap x m` is `x` shifted by a multiple of `m` into the range from zero to `|m|`. -/
  wrap : α → α → α

namespace Scalar

variable {α : Type} [Scalar α]

/-- Below zero.  An undefined number is not, like every comparison with it. -/
def isNegative (x : α) : Bool := lt x zero

/-- Finite and above zero. -/
def isPositive (x : α) : Bool := isFinite x && !le x zero

end Scalar

end Orrery
