import Orrery.Motion.Fault
import Orrery.Motion.Kinematics

/-!
# Orbit

Perpetual motion on an ellipse.  The ellipse lies in the plane of the unit vectors `major`, toward
periapsis, and `minor`.  At true anomaly `θ` the distance from the occupied focus is
`p / (1 + e * cos θ)`, where `p` is the semi-latus rectum and `e` the eccentricity.  The true
anomaly grows at constant speed.
-/

namespace Orrery

open Motion

/-- Which point of the ellipse is the origin of the frame. -/
inductive OrbitOrigin where
  /-- The focus that is being orbited. -/
  | focus
  | center
deriving DecidableEq, Repr

/-- Perpetual motion on an ellipse. -/
structure Orbit (α : Type) where
  semiLatusRectum : α
  /-- Eccentricity, at least zero and below one. -/
  eccentricity : α
  /-- Growth of the true anomaly in radians per second, positive. -/
  speed : α
  /-- Unit vector from the center toward periapsis. -/
  major : Vec3 α
  /-- Unit vector perpendicular to `major`, the direction of travel at periapsis. -/
  minor : Vec3 α
  origin : OrbitOrigin
  trueAnomaly : α
deriving DecidableEq

namespace Orbit

variable {α : Type} [Scalar α]

open Scalar (one zero)

/-- Checks the parameters in the order of their declaration; the axes first for length, then for
the angle between them. -/
def validate (o : Orbit α) : Except (Fault α) Unit := do
  if !Scalar.isPositive o.semiLatusRectum then
    throw ⟨"elliptical", "semi-latus rectum", .positive, some o.semiLatusRectum⟩
  if !(Scalar.le zero o.eccentricity && Scalar.lt o.eccentricity one) then
    throw ⟨"elliptical", "eccentricity", .belowOne, some o.eccentricity⟩
  if !Scalar.isPositive o.speed then
    throw ⟨"elliptical", "speed", .positive, some o.speed⟩
  if !o.major.isNormalized || !o.minor.isNormalized then
    throw ⟨"elliptical", "axes", .normalized, none⟩
  if !o.major.isOrthogonal o.minor then
    throw ⟨"elliptical", "axes", .orthogonal, none⟩
  if !Scalar.isFinite o.trueAnomaly then
    throw ⟨"elliptical", "true anomaly", .finite, none⟩

/-- The orbit in the plane of `major` and `minor` around the occupied focus, at periapsis. -/
def new (semiLatusRectum eccentricity speed : α) (major minor : Vec3 α) :
    Except (Fault α) (Orbit α) := do
  let some major := major.normalize? | throw ⟨"elliptical", "axes", .nonZero, none⟩
  let some minor := minor.normalize? | throw ⟨"elliptical", "axes", .nonZero, none⟩
  let o : Orbit α := ⟨semiLatusRectum, eccentricity, speed, major, minor, .focus, zero⟩
  o.validate
  return o

/-- Chooses the origin of the frame. -/
def relativeTo (o : Orbit α) (origin : OrbitOrigin) : Orbit α := { o with origin := origin }

/-- Starts from true anomaly `θ`, taken modulo a full turn. -/
def startingAt (o : Orbit α) (θ : α) : Orbit α :=
  { o with trueAnomaly := Scalar.wrap θ Scalar.fullTurn }

/-- Half of the longest diameter. -/
def semiMajorAxis (o : Orbit α) : α :=
  o.semiLatusRectum / (one - o.eccentricity * o.eccentricity)

/-- Distance from the occupied focus at true anomaly `θ`. -/
def radiusAt (o : Orbit α) (θ : α) : α :=
  o.semiLatusRectum / (one + o.eccentricity * Scalar.cos θ)

/-- The occupied focus, in the frame of the rule. -/
def focus (o : Orbit α) : Vec3 α :=
  match o.origin with
  | .focus => Vec3.origin
  | .center => o.major * (o.semiMajorAxis * o.eccentricity)

/-- The point at true anomaly `θ`, in the frame of the rule. -/
def pointAt (o : Orbit α) (θ : α) : Vec3 α :=
  let r := o.radiusAt θ
  o.focus + o.major * (r * Scalar.cos θ) + o.minor * (r * Scalar.sin θ)

/-- Moves for `elapsed` seconds; the orbit remembers its new true anomaly.  Also tells whether the
coordinates changed. -/
def advance (o : Orbit α) (state : Kinematics α) (elapsed : α) : Orbit α × Kinematics α × Bool :=
  let o := { o with trueAnomaly := Scalar.wrap (o.trueAnomaly + o.speed * elapsed) Scalar.fullTurn }
  let coords := o.pointAt o.trueAnomaly
  let moved :=
    { state with
      coords := coords
      distanceMoved := state.distanceMoved + state.coords.distance coords }
  (o, moved, !coords.sameAs state.coords)

end Orbit

end Orrery
