import Orrery.Motion.Spin

/-!
# Cruise

Straight-line motion at constant speed, optionally turning on the way.  With a stop distance the
last step is cut short so that the distance moved ends exactly on it.  Reaching the stop distance
or the stop angle of the spin ends the motion.
-/

namespace Orrery

open Motion

/-- Straight-line motion at constant speed. -/
structure Cruise (α : Type) where
  /-- Unit vector along the line. -/
  direction : Vec3 α
  /-- Units per second, positive. -/
  speed : α
  /-- The distance after which motion ends. -/
  stopDistance : Option α
  spin : Option (Spin α)
deriving DecidableEq

namespace Cruise

variable {α : Type} [Scalar α]

/-- Checks the direction, the speed, the stop distance and the spin, in this order. -/
def validate (c : Cruise α) : Except (Fault α) Unit := do
  if !c.direction.isNormalized then
    throw ⟨"linear", "direction", .normalized, none⟩
  if !Scalar.isPositive c.speed then
    throw ⟨"linear", "speed", .positive, some c.speed⟩
  if let some stop := c.stopDistance then
    if !Scalar.isPositive stop then
      throw ⟨"linear", "stop distance", .positive, some stop⟩
  match c.spin with
  | none => return ()
  | some spin => spin.validate

/-- Motion along the direction of `direction`, without end. -/
def new (direction : Vec3 α) (speed : α) : Except (Fault α) (Cruise α) := do
  let some direction := direction.normalize? | throw ⟨"linear", "direction", .nonZero, none⟩
  let c : Cruise α := ⟨direction, speed, none, none⟩
  c.validate
  return c

/-- Ends after `distance` units. -/
def withStopDistance (c : Cruise α) (distance : α) : Cruise α :=
  { c with stopDistance := some distance }

/-- Turns on the way. -/
def withSpin (c : Cruise α) (spin : Spin α) : Cruise α := { c with spin := some spin }

/-- Whether the stop distance or the stop angle has been reached. -/
def hasTerminated (c : Cruise α) (state : Kinematics α) : Bool :=
  (c.stopDistance.any fun stop => Scalar.le stop state.distanceMoved)
    || c.spin.any fun spin => spin.isComplete state

/-- The length of the step of `elapsed` seconds, and the distance moved after it.  A step that
would reach the stop distance is cut short, and then the distance moved is the stop distance. -/
def clippedStep (c : Cruise α) (state : Kinematics α) (elapsed : α) : α × α :=
  let step := c.speed * elapsed
  match c.stopDistance with
  | none => (step, state.distanceMoved + step)
  | some stop =>
    let remaining := Scalar.larger (stop - state.distanceMoved) Scalar.zero
    if Scalar.le remaining step then (remaining, stop) else (step, state.distanceMoved + step)

/-- Moves for `elapsed` seconds; also tells whether anything changed. -/
def advance (c : Cruise α) (state : Kinematics α) (elapsed : α) : Kinematics α × Bool :=
  if c.hasTerminated state then (state, false)
  else
    let (step, total) := c.clippedStep state elapsed
    let moves := Scalar.lt Scalar.zero step
    let moved : Kinematics α :=
      { state with
        coords := if moves then state.coords + c.direction * step else state.coords
        distanceMoved := total }
    match c.spin with
    | none => (moved, moves)
    | some spin =>
      let (turned, turns) := spin.rotate moved elapsed
      (turned, moves || turns)

end Cruise

end Orrery
