import Orrery.Json.Record
import Orrery.Tracker.Tracked

/-!
# Documents of tracked positions

The written form of vectors, motion rules and positions.  Watches are not written, and a position
that is read has none.  Parameters of rules are taken as they are; whether they are valid is asked
when the rule is assigned.
-/

namespace Orrery

open Json (Value)

namespace Vec3

/-- The written form of a vector. -/
def document (v : Point) : Value :=
  .record [("x", .ofFloat v.x), ("y", .ofFloat v.y), ("z", .ofFloat v.z)]

/-- Reads a vector. -/
def ofDocument? [Numeral.Reading] (d : Value) : Option Point := do
  let [x, y, z] ← d.fields? ["x", "y", "z"] | none
  return ⟨← x.bind (·.float?), ← y.bind (·.float?), ← z.bind (·.float?)⟩

end Vec3

namespace PositionId

/-- The written form of an identifier. -/
def document (id : PositionId) : Value := .ofNat id.number.toNat

/-- Reads an identifier. -/
def ofDocument? (d : Value) : Option PositionId := d.word64?.map PositionId.mk

end PositionId

namespace Spin

/-- The fields of a spin. -/
def fields (s : Spin Float) : List (String × Value) :=
  [("axis", s.axis.document), ("speed", .ofFloat s.speed),
    ("stop_angle", .ofOption .ofFloat s.stopAngle)]

/-- The written form of a spin that is part of another rule. -/
def document (s : Spin Float) : Value := .record s.fields

/-- Reads a spin. -/
def ofDocument? [Numeral.Reading] (d : Value) : Option (Spin Float) := do
  let [axis, speed, stop] ← d.fields? ["axis", "speed", "stop_angle"] | none
  return ⟨← axis.bind Vec3.ofDocument?, ← speed.bind (·.float?), ← Value.optional? (·.float?) stop⟩

end Spin

namespace Cruise

/-- The fields of a cruise. -/
def fields (c : Cruise Float) : List (String × Value) :=
  [("direction", c.direction.document), ("speed", .ofFloat c.speed),
    ("stop_distance", .ofOption .ofFloat c.stopDistance),
    ("rotation", .ofOption Spin.document c.spin)]

/-- Reads a cruise. -/
def ofDocument? [Numeral.Reading] (d : Value) : Option (Cruise Float) := do
  let [direction, speed, stop, spin] ←
    d.fields? ["direction", "speed", "stop_distance", "rotation"] | none
  return ⟨← direction.bind Vec3.ofDocument?, ← speed.bind (·.float?),
    ← Value.optional? (·.float?) stop, ← Value.optional? Spin.ofDocument? spin⟩

end Cruise

namespace OrbitOrigin

/-- The name of an origin. -/
def text : OrbitOrigin → String
  | focus => "focus"
  | center => "center"

/-- Reads the name of an origin. -/
def ofDocument? (d : Value) : Option OrbitOrigin :=
  d.taggedName?.bind (Value.oneOf? [focus, center] text)

end OrbitOrigin

namespace Orbit

/-- The fields of an orbit. -/
def fields (o : Orbit Float) : List (String × Value) :=
  [("semi_latus_rectum", .ofFloat o.semiLatusRectum), ("eccentricity", .ofFloat o.eccentricity),
    ("speed", .ofFloat o.speed), ("major", o.major.document), ("minor", o.minor.document),
    ("origin", .ofString o.origin.text), ("true_anomaly", .ofFloat o.trueAnomaly)]

/-- Reads an orbit. -/
def ofDocument? [Numeral.Reading] (d : Value) : Option (Orbit Float) := do
  let [p, e, speed, major, minor, origin, anomaly] ←
    d.fields? ["semi_latus_rectum", "eccentricity", "speed", "major", "minor", "origin",
      "true_anomaly"] | none
  return ⟨← p.bind (·.float?), ← e.bind (·.float?), ← speed.bind (·.float?),
    ← major.bind Vec3.ofDocument?, ← minor.bind Vec3.ofDocument?,
    ← origin.bind OrbitOrigin.ofDocument?, ← anomaly.bind (·.float?)⟩

end Orbit

namespace Pursuit

/-- The fields of a pursuit. -/
def fields (p : Pursuit Float) : List (String × Value) :=
  [("target", p.target.document), ("offset", p.offset.document), ("distance", .ofFloat p.distance),
    ("speed", .ofFloat p.speed), ("point_to_target", .bool p.pointToTarget)]

/-- Reads a pursuit. -/
def ofDocument? [Numeral.Reading] (d : Value) : Option (Pursuit Float) := do
  let [target, offset, distance, speed, point] ←
    d.fields? ["target", "offset", "distance", "speed", "point_to_target"] | none
  return ⟨← target.bind PositionId.ofDocument?, ← offset.bind Vec3.ofDocument?,
    ← distance.bind (·.float?), ← speed.bind (·.float?), ← point.bind (·.bool?)⟩

end Pursuit

namespace Rule

/-- The fields of a rule beside the tag that names its kind. -/
def fields : Rule Float → List (String × Value)
  | rest => []
  | cruise c => c.fields
  | orbit o => o.fields
  | spin s => s.fields
  | pursuit p => p.fields

/-- The written form of a rule. -/
def document (r : Rule Float) : Value := .record (("rule", .ofString r.kind) :: r.fields)

/-- Reads the rest of a rule that has no parameters. -/
def restOfDocument? : Value → Option (Rule Float)
  | .arr (_ :: _) => none
  | _ => some rest

/-- Reads a rule. -/
def ofDocument? [Numeral.Reading] (room : Nat) (d : Value) : Option (Rule Float) := do
  let (kind, d) ← d.tagged? "rule" room
  match kind with
  | "stationary" => restOfDocument? d
  | "linear" => cruise <$> Cruise.ofDocument? d
  | "elliptical" => orbit <$> Orbit.ofDocument? d
  | "rotate" => spin <$> Spin.ofDocument? d
  | "follow" => pursuit <$> Pursuit.ofDocument? d
  | _ => none

end Rule

namespace Kinematics

/-- The written form of a kinematic state. -/
def document (k : Kinematics Float) : Value :=
  .record [("coords", k.coords.document), ("orientation", k.orientation.document),
    ("distance_moved", .ofFloat k.distanceMoved), ("angle_rotated", .ofFloat k.angleRotated)]

/-- Reads a kinematic state. -/
def ofDocument? [Numeral.Reading] (d : Value) : Option (Kinematics Float) := do
  let [coords, orientation, distance, angle] ←
    d.fields? ["coords", "orientation", "distance_moved", "angle_rotated"] | none
  return ⟨← coords.bind Vec3.ofDocument?, ← orientation.bind Vec3.ofDocument?,
    ← distance.bind (·.float?), ← angle.bind (·.float?)⟩

end Kinematics

namespace Position

/-- The written form of a position, without its watches. -/
def document (p : Position) : Value :=
  .record [("id", p.id.document), ("parent_id", .ofOption PositionId.document p.parent),
    ("state", p.state.document), ("rule", p.rule.document)]

/-- Reads a position, which then has no watches. -/
def ofDocument? [Numeral.Reading] (room : Nat) (d : Value) : Option Position := do
  let [id, parent, state, rule] ← d.fields? ["id", "parent_id", "state", "rule"] | none
  return {
    id := ← id.bind PositionId.ofDocument?
    parent := ← Value.optional? PositionId.ofDocument? parent
    state := ← state.bind Kinematics.ofDocument?
    rule := ← rule.bind (Rule.ofDocument? (room - 1)) }

end Position

/-- Reads the name of a status. -/
def MotionStatus.ofDocument? (d : Value) : Option MotionStatus :=
  d.name?.bind (Value.oneOf? [active, stopped] text)

namespace Tracked

/-- The written form of a tracked position. -/
def document (t : Tracked) : Value :=
  .record [("position", t.position.document), ("status", .ofString t.status.text)]

/-- Reads a tracked position. -/
def ofDocument? [Numeral.Reading] (room : Nat) (d : Value) : Option Tracked := do
  let [position, status] ← d.fields? ["position", "status"] | none
  return ⟨← position.bind (Position.ofDocument? (room - 1)), ← status.bind MotionStatus.ofDocument?⟩

end Tracked

end Orrery
