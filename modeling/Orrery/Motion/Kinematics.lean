import Orrery.Vector

/-!
# Kinematic state

What a motion rule reads and changes: where a position is, which way it faces, and how far it has
moved and turned since the rule was assigned.
-/

namespace Orrery

/-- The state that motion rules act on. -/
structure Kinematics (α : Type) where
  /-- Coordinates in the frame of the parent. -/
  coords : Vec3 α
  /-- Unit vector that the position faces along. -/
  orientation : Vec3 α
  /-- Distance moved under the current rule. -/
  distanceMoved : α
  /-- Angle turned under the current rule, in radians. -/
  angleRotated : α
deriving DecidableEq

/-- At the origin, facing along the third axis, unmoved. -/
def Kinematics.initial {α : Type} [Scalar α] : Kinematics α where
  coords := Vec3.origin
  orientation := Vec3.zAxis
  distanceMoved := Scalar.zero
  angleRotated := Scalar.zero

end Orrery
