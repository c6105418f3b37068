import Orrery.Motion.Fault
import Orrery.Motion.Kinematics

/-!
# Pursuit

Motion at constant speed toward another position, or toward a fixed offset from it.  Within the
stand-off distance a pursuit rests, and it resumes when the target moves away; it never ends by
itself.
-/

namespace Orrery

open Motion

/-- Motion toward another tracked position. -/
structure Pursuit (α : Type) where
  target : PositionId
  /-- Added to the coordinates of the target. -/
  offset : Vec3 α
  /-- Stand-off distance, at least zero. -/
  distance : α
  /-- Units per second, positive. -/
  speed : α
  /-- Whether to face the direction of travel. -/
  pointToTarget : Bool
deriving DecidableEq

namespace Pursuit

variable {α : Type} [Scalar α]

/-- Checks the stand-off distance, the speed and the offset, in this order. -/
def validate (p : Pursuit α) : Except (Fault α) Unit := do
  if !Scalar.isFinite p.distance || Scalar.isNegative p.distance then
    throw ⟨"follow", "distance", .nonNegative, some p.distance⟩
  if !Scalar.isPositive p.speed then
    throw ⟨"follow", "speed", .positive, some p.speed⟩
  if !p.offset.isFinite then
    throw ⟨"follow", "offset", .finite, none⟩

/-- Pursues `target` itself and faces it. -/
def new (target : PositionId) (distance speed : α) : Except (Fault α) (Pursuit α) := do
  let p : Pursuit α := ⟨target, Vec3.origin, distance, speed, true⟩
  p.validate
  return p

/-- Aims beside the target. -/
def withOffset (p : Pursuit α) (offset : Vec3 α) : Pursuit α := { p with offset := offset }

/-- The point aimed at, given the coordinates of tracked positions. -/
def aimPoint (p : Pursuit α) (targets : PositionId → Option (Vec3 α)) :
    Except MotionError (Vec3 α) :=
  match targets p.target with
  | none => .error (.targetMissing p.target)
  | some c => .ok (c + p.offset)

/-- Whether the stand-off distance has been reached. -/
def onTarget (p : Pursuit α) (state : Kinematics α) (targets : PositionId → Option (Vec3 α)) :
    Except MotionError Bool := do
  let aim ← p.aimPoint targets
  return Scalar.le (state.coords.distance aim) p.distance

/-- Moves toward the point `aim` for `elapsed` seconds, not past the stand-off distance; also tells
whether anything changed. -/
def approach (p : Pursuit α) (state : Kinematics α) (elapsed : α) (aim : Vec3 α) :
    Kinematics α × Bool :=
  let toTarget := aim - state.coords
  let gap := toTarget.length
  if Scalar.le gap p.distance then (state, false)
  else
    match toTarget.normalize? with
    | none => (state, false)
    | some direction =>
      let step := Scalar.smaller (p.speed * elapsed) (gap - p.distance)
      if Scalar.le step Scalar.zero then (state, false)
      else
        ({ state with
            coords := state.coords + direction * step
            orientation := if p.pointToTarget then direction else state.orientation
            distanceMoved := state.distanceMoved + step }, true)

/-- Moves for `elapsed` seconds toward the target. -/
def advance (p : Pursuit α) (state : Kinematics α) (elapsed : α)
    (targets : PositionId → Option (Vec3 α)) : Except MotionError (Kinematics α × Bool) := do
  let aim ← p.aimPoint targets
  return p.approach state elapsed aim

end Pursuit

end Orrery
