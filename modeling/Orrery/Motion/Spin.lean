import Orrery.Motion.Fault
import Orrery.Motion.Kinematics

/-!
# Spin

Turning about a fixed axis at constant speed, optionally up to a total angle.  A spin is a motion
rule of its own and also a part of straight-line motion (`Orrery.Motion.Cruise`).
-/

namespace Orrery

open Motion

/-- Turning about an axis at constant angular speed. -/
structure Spin (α : Type) where
  /-- Unit vector along the axis. -/
  axis : Vec3 α
  /-- Radians per second; negative turns the other way.  Less than a full turn per second. -/
  speed : α
  /-- The total angle after which turning ends. -/
  stopAngle : Option α
deriving DecidableEq

namespace Spin

variable {α : Type} [Scalar α]

/-- No turning, about the third axis. -/
def still : Spin α := ⟨Vec3.zAxis, Scalar.zero, none⟩

/-- Checks the speed, then the axis, then the stop angle. -/
def validate (s : Spin α) : Except (Fault α) Unit := do
  if !Scalar.isFinite s.speed || Scalar.le Scalar.fullTurn (Scalar.abs s.speed) then
    throw ⟨"rotation", "speed", .belowFullTurn, some s.speed⟩
  if !s.axis.isNormalized then
    throw ⟨"rotation", "axis", .normalized, none⟩
  match s.stopAngle with
  | none => return ()
  | some stop =>
    if !Scalar.isFinite stop || Scalar.isNegative stop then
      throw ⟨"rotation", "stop angle", .finiteNonNegative, some stop⟩

/-- Turning about the direction of `axis`, without end. -/
def new (axis : Vec3 α) (speed : α) : Except (Fault α) (Spin α) := do
  let some axis := axis.normalize? | throw ⟨"rotation", "axis", .nonZero, none⟩
  let s : Spin α := ⟨axis, speed, none⟩
  s.validate
  return s

/-- Ends after `angle` radians. -/
def withStopAngle (s : Spin α) (angle : α) : Spin α := { s with stopAngle := some angle }

/-- Whether the stop angle has been reached. -/
def isComplete (s : Spin α) (state : Kinematics α) : Bool :=
  s.stopAngle.any fun stop => Scalar.le stop state.angleRotated

/-- Whether the next turn would change the orientation. -/
def isRotating (s : Spin α) (state : Kinematics α) : Bool :=
  !Scalar.eq s.speed Scalar.zero && !s.isComplete state

/-- The angle to turn by in `elapsed` seconds, cut short where the total would pass the stop
angle. -/
def clippedAngle (s : Spin α) (state : Kinematics α) (elapsed : α) : α :=
  let angle := s.speed * elapsed
  match s.stopAngle with
  | none => angle
  | some stop =>
    let remaining := Scalar.larger (stop - state.angleRotated) Scalar.zero
    if Scalar.lt remaining (Scalar.abs angle) then Scalar.withSignOf remaining angle else angle

/-- Turns for `elapsed` seconds; also tells whether anything changed.  The turned orientation is
normalized again, which keeps rounding errors from adding up. -/
def rotate (s : Spin α) (state : Kinematics α) (elapsed : α) : Kinematics α × Bool :=
  if !s.isRotating state then (state, false)
  else
    let angle := s.clippedAngle state elapsed
    if Scalar.eq angle Scalar.zero then (state, false)
    else
      let turned := state.orientation.rotateAbout s.axis angle
      ({ state with
          orientation := turned.normalize?.getD state.orientation
          angleRotated := state.angleRotated + Scalar.abs angle }, true)

end Spin

end Orrery
