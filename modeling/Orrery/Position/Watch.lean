import Orrery.Ident
import Orrery.Listener
import Orrery.Vector

/-!
# Watches

A watch is a subscription to one position.  A `MovementWatch` reports movement of at least a
minimal distance from its anchor, the point where it last reported.  A `ProximityWatch` reports
that the distance to a target crossed a threshold, and remembers on which side of it the last
measurement was.
-/

namespace Orrery

/-- A subscription to movement. -/
structure MovementWatch where
  subscriber : String
  /-- Report only at this distance from the anchor, or farther. -/
  minDistance : Float := 0.0
  /-- Coordinates of the last report, of the registration, or of the last jump. -/
  anchor : Point := Vec3.origin
  listener : ListenerId
deriving DecidableEq

namespace MovementWatch

/-- Whether there is something to report at `coords`. -/
def isDue (w : MovementWatch) (coords : Point) : Bool :=
  Scalar.le w.minDistance (coords.distance w.anchor)

/-- The watch as it is after reporting at `coords`. -/
def anchoredAt (w : MovementWatch) (coords : Point) : MovementWatch := { w with anchor := coords }

end MovementWatch

/-- Which crossings of its threshold a proximity watch reports. -/
inductive ProximityTrigger where
  /-- Moving into range. -/
  | entered
  /-- Moving out of range. -/
  | left
  | crossed
deriving DecidableEq, Repr

/-- Whether a crossing, inward if `inward` holds, is reported. -/
def ProximityTrigger.reports : ProximityTrigger → (inward : Bool) → Bool
  | crossed, _ => true
  | entered, inward => inward
  | left, inward => !inward

/-- A subscription to crossings of a distance threshold. -/
structure ProximityWatch where
  subscriber : String
  /-- The position measured against. -/
  target : PositionId
  /-- The threshold; at most this distance is in range. -/
  distance : Float
  /-- Which crossings are reported. -/
  trigger : ProximityTrigger
  /-- Whether the last measurement was in range; before the first one it was not. -/
  within : Bool := false
  listener : ListenerId
deriving DecidableEq

namespace ProximityWatch

/-- Takes a measurement.  The answer is whether the crossing was inward, if there was one that is
to be reported. -/
def observe (w : ProximityWatch) (measured : Float) : ProximityWatch × Option Bool :=
  let within := Scalar.le measured w.distance
  ({ w with within := within },
    if within != w.within && w.trigger.reports within then some within else none)

end ProximityWatch

end Orrery
