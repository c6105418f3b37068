import Orrery.Motion.Rule
import Orrery.Position.Watch

/-!
# Positions

A position is a place in the simulated space that a motion rule moves, together with the watches
on it.  This module decides what changes and which watches have something to report; notifying
their listeners is not its business.

A rule is checked when it is assigned, and the distances and angles that stop conditions speak of
start again from zero then.  An advance either succeeds with finite coordinates and orientation
or leaves the position as it was.
-/

namespace Orrery

/-- The coordinates of tracked positions. -/
abbrev Lookup := PositionId → Option Point

/-- A place in space, how it moves, and who watches it. -/
structure Position where
  id : PositionId
  /-- The frame that the coordinates refer to, if it is not the common one. -/
  parent : Option PositionId := none
  /-- Where it is and which way it faces. -/
  state : Kinematics Float := Kinematics.initial
  rule : Rule Float := .rest
  /-- Subscriptions to movement, in the order of registration. -/
  movementWatches : List MovementWatch := []
  /-- Subscriptions to crossings, in the order of registration. -/
  proximityWatches : List ProximityWatch := []

/-- A movement watch that has something to report. -/
structure MovementHit where
  /-- The watch, already anchored at the current coordinates. -/
  watch : MovementWatch
  /-- Where the watch was anchored before. -/
  previous : Point

/-- A proximity watch that has something to report. -/
structure ProximityHit where
  /-- The watch, already on the new side of its threshold. -/
  watch : ProximityWatch
  distance : Float
  /-- Whether it was crossed inward. -/
  entered : Bool

namespace Position

/-- Placed at `coords`. -/
def placedAt (p : Position) (coords : Point) : Position :=
  { p with state := { p.state with coords := coords } }

/-- Facing along `orientation`. -/
def facing (p : Position) (orientation : Point) : Except MotionError Position :=
  match orientation.normalize? with
  | none => .error (.ofFault ⟨"orientation", "", .nonZero, none⟩)
  | some unit => .ok { p with state := { p.state with orientation := unit } }

/-- Current coordinates. -/
def coords (p : Position) : Point := p.state.coords

/-- Assigns a rule, which has to be valid, and restarts the odometers. -/
def setRule (p : Position) (rule : Rule Float) : Except MotionError Position :=
  match rule.validate with
  | .error f => .error (.ofFault f)
  | .ok () =>
    .ok { p with rule := rule, state := { p.state with distanceMoved := 0.0, angleRotated := 0.0 } }

/-- Whether the rule has nothing left to do. -/
def hasTerminated (p : Position) : Bool := p.rule.hasTerminated p.state

/-- Jumps to `coords`, which have to be finite, and anchors all movement watches there. -/
def teleport (p : Position) (coords : Point) : Except MotionError Position :=
  if coords.isFinite then
    .ok { p with
      state := { p.state with coords := coords }
      movementWatches := p.movementWatches.map (·.anchoredAt coords) }
  else .error (.nonFinite p.id)

/-- Moves for `elapsed` seconds; also tells whether the rule reports a change. -/
def advance (p : Position) (elapsed : Float) (targets : Lookup) :
    Except MotionError (Position × Bool) :=
  match p.rule.advance p.state elapsed targets with
  | .error e => .error e
  | .ok a =>
    if a.state.coords.isFinite && a.state.orientation.isFinite then
      .ok ({ p with state := a.state, rule := a.rule }, a.changed)
    else .error (.nonFinite p.id)

/-! ### Watches -/

/-- Adds a movement watch, anchored at the current coordinates. -/
def watchMovement (p : Position) (w : MovementWatch) : Position :=
  { p with movementWatches := p.movementWatches ++ [w.anchoredAt p.coords] }

/-- Adds a proximity watch. -/
def watchProximity (p : Position) (w : ProximityWatch) : Position :=
  { p with proximityWatches := p.proximityWatches ++ [w] }

/-- Drops the movement watches of a subscriber. -/
def dropMovement (p : Position) (subscriber : String) : Position :=
  { p with movementWatches := p.movementWatches.filter (·.subscriber != subscriber) }

/-- Drops the proximity watches of a subscriber. -/
def dropProximity (p : Position) (subscriber : String) : Position :=
  { p with proximityWatches := p.proximityWatches.filter (·.subscriber != subscriber) }

/-- How many movement watches a subscriber has. -/
def movementCount (p : Position) (subscriber : String) : Nat :=
  p.movementWatches.countP (·.subscriber == subscriber)

/-- How many proximity watches a subscriber has. -/
def proximityCount (p : Position) (subscriber : String) : Nat :=
  p.proximityWatches.countP (·.subscriber == subscriber)

/-- The movement watches that have something to report, and the position with those anchored at
the current coordinates. -/
def dueMovement (p : Position) : List MovementHit × Position :=
  let due (w : MovementWatch) : Bool := w.isDue p.coords
  ((p.movementWatches.filter due).map fun w => ⟨w.anchoredAt p.coords, w.anchor⟩,
    { p with
      movementWatches :=
        p.movementWatches.map fun w => if due w then w.anchoredAt p.coords else w })

/-- A proximity watch after a measurement at the current coordinates.  Nothing is measured if the
target is not tracked. -/
def measure (p : Position) (targets : Lookup) (w : ProximityWatch) :
    ProximityWatch × Option ProximityHit :=
  match targets w.target with
  | none => (w, none)
  | some c =>
    let measured := p.coords.distance c
    let (w, crossing) := w.observe measured
    (w, crossing.map fun entered => ⟨w, measured, entered⟩)

/-- The proximity watches that have something to report, and the position with all measurements
taken. -/
def dueProximity (p : Position) (targets : Lookup) : List ProximityHit × Position :=
  let measured := p.proximityWatches.map (p.measure targets)
  (measured.filterMap (·.2), { p with proximityWatches := measured.map (·.1) })

end Position

end Orrery
