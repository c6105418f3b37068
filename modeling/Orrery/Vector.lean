import Orrery.Double

/-!
# Vectors

Points and directions of three-dimensional space over any `Scalar`.  Angles are in radians.

Every formula fixes the order of its operations, since floating-point sums and products depend
on it.
-/

namespace Orrery

/-- A point or a direction. -/
structure Vec3 (α : Type) where
  x : α
  y : α
  z : α
deriving DecidableEq

/-- A point of the simulated space. -/
abbrev Point := Vec3 Float

namespace Vec3

variable {α : Type} [Scalar α]

open Scalar (zero one tolerance)

/-- The point where the axes meet. -/
def origin : Vec3 α := ⟨zero, zero, zero⟩

/-- The unit vector along the third axis, the direction that a new position faces. -/
def zAxis : Vec3 α := ⟨zero, zero, one⟩

instance : Add (Vec3 α) := ⟨fun v w => ⟨v.x + w.x, v.y + w.y, v.z + w.z⟩⟩

instance : Sub (Vec3 α) := ⟨fun v w => ⟨v.x - w.x, v.y - w.y, v.z - w.z⟩⟩

instance : Neg (Vec3 α) := ⟨fun v => ⟨-v.x, -v.y, -v.z⟩⟩

/-- The vector scaled by a number. -/
def scale (v : Vec3 α) (s : α) : Vec3 α := ⟨v.x * s, v.y * s, v.z * s⟩

instance : HMul (Vec3 α) α (Vec3 α) := ⟨scale⟩

/-- Inner product. -/
def dot (v w : Vec3 α) : α := v.x * w.x + v.y * w.y + v.z * w.z

/-- Right-handed vector product. -/
def cross (v w : Vec3 α) : Vec3 α :=
  ⟨v.y * w.z - v.z * w.y, v.z * w.x - v.x * w.z, v.x * w.y - v.y * w.x⟩

/-- Euclidean length. -/
def length (v : Vec3 α) : α := Scalar.sqrt (v.dot v)

/-- Distance of two points. -/
def distance (v w : Vec3 α) : α := (v - w).length

/-- The unit vector of the same direction.  There is none if the length is zero, infinite or
undefined. -/
def normalize? (v : Vec3 α) : Option (Vec3 α) :=
  let len := v.length
  if !Scalar.isFinite len || Scalar.eq len zero then none else some (v * (one / len))

/-- Whether the length is one, up to the tolerance. -/
def isNormalized (v : Vec3 α) : Bool := Scalar.lt (Scalar.abs (v.length - one)) tolerance

/-- Whether every coordinate is finite. -/
def isFinite (v : Vec3 α) : Bool :=
  Scalar.isFinite v.x && Scalar.isFinite v.y && Scalar.isFinite v.z

/-- Whether two unit vectors are perpendicular, up to the tolerance. -/
def isOrthogonal (v w : Vec3 α) : Bool := Scalar.lt (Scalar.abs (v.dot w)) tolerance

/-- The vector turned by `angle` about the unit vector `axis`, right-handed. -/
def rotateAbout (v axis : Vec3 α) (angle : α) : Vec3 α :=
  let s := Scalar.sin angle
  let c := Scalar.cos angle
  v * c + axis.cross v * s + axis * (axis.dot v * (one - c))

/-- Whether corresponding coordinates differ by at most `epsilon`. -/
def approxEq (v w : Vec3 α) (epsilon : α) : Bool :=
  Scalar.le (Scalar.abs (v.x - w.x)) epsilon && Scalar.le (Scalar.abs (v.y - w.y)) epsilon
    && Scalar.le (Scalar.abs (v.z - w.z)) epsilon

/-- Whether corresponding coordinates are equal as numbers. -/
def sameAs (v w : Vec3 α) : Bool :=
  Scalar.eq v.x w.x && Scalar.eq v.y w.y && Scalar.eq v.z w.z

end Vec3

end Orrery
