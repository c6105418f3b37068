import Orrery.Position

/-!
# One tracked position through one tick

A tracked position is active, so that time moves it, or stopped.  A tick goes through the tracked
positions twice (`Orrery.Tracker.Tick`), and treats each of them in two phases, given the
coordinates of all positions at one instant:

* `Tracked.stride` advances an active position against the coordinates before the tick and
  collects the movement watches that are due;
* `Tracked.settle` takes the proximity measurements against the coordinates after every stride, and
  stops a position whose rule has terminated.

A position whose advance fails keeps its state and skips the second phase.
-/

namespace Orrery

/-- Whether time moves a tracked position. -/
inductive MotionStatus where
  /-- It is advanced in every tick. -/
  | active
  /-- Its rule terminated or it was stopped; a new rule makes it active again. -/
  | stopped
deriving DecidableEq, Repr

/-- The name of the status. -/
def MotionStatus.text : MotionStatus → String
  | active => "active"
  | stopped => "stopped"

/-- A position and whether time moves it. -/
structure Tracked where
  position : Position
  /-- Whether time moves it. -/
  status : MotionStatus := .active

/-- What a listener of a position is told; the position is a snapshot taken after the change. -/
inductive PositionEvent where
  /-- Coordinates or orientation changed. -/
  | moved (position : Position) (previous : Point)
  /-- The distance to a target crossed a threshold. -/
  | proximity (position : Position) (target : PositionId) (distance : Float) (entered : Bool)
  /-- The rule terminated or the position was stopped. -/
  | stopped (position : Position)

/-- Something to be reported to the listener of one watch. -/
inductive Notice where
  | moved (hit : MovementHit)
  | proximity (hit : ProximityHit)
  /-- The position stopped; movement watches are told. -/
  | stopped (watch : MovementWatch)

namespace Notice

/-- Who is notified. -/
def listener : Notice → ListenerId
  | moved hit => hit.watch.listener
  | proximity hit => hit.watch.listener
  | stopped watch => watch.listener

/-- Whether the notice belongs to a proximity watch rather than to a movement watch. -/
def isProximity : Notice → Bool
  | proximity _ => true
  | _ => false

/-- What the listener is told about the given position. -/
def event (position : Position) : Notice → PositionEvent
  | moved hit => .moved position hit.previous
  | proximity hit => .proximity position hit.watch.target hit.distance hit.entered
  | stopped _ => .stopped position

end Notice

/-- What the first phase of a tick came to for one tracked position. -/
structure Stride where
  slot : Tracked
  /-- Whether it was advanced without error. -/
  advanced : Bool := false
  /-- Whether its advance reported a change. -/
  moved : Bool := false
  /-- Why its advance failed, if it did. -/
  failure : Option MotionError := none
  /-- What is to be reported of its movement, in order. -/
  notices : List Notice := []

/-- What the second phase of a tick came to for one tracked position. -/
structure Settlement where
  slot : Tracked
  /-- Whether it stopped in this tick. -/
  stops : Bool
  /-- What is to be reported of the whole tick, in order. -/
  notices : List Notice

namespace Tracked

/-- The notices that tell all movement watches of a stop. -/
def stopNotices (t : Tracked) : List Notice := t.position.movementWatches.map .stopped

/-- The first phase of a tick: an active position advances for `elapsed` seconds, given the
coordinates before the tick. -/
def stride (t : Tracked) (elapsed : Float) (start : Lookup) : Stride :=
  match t.status with
  | .stopped => { slot := t }
  | .active =>
    match t.position.advance elapsed start with
    | .error e => { slot := t, failure := some e }
    | .ok (position, false) => { slot := { t with position := position }, advanced := true }
    | .ok (position, true) =>
      let (hits, position) := position.dueMovement
      { slot := { t with position := position }
        advanced := true
        moved := true
        notices := hits.map .moved }

/-- The second phase of a tick: proximity is measured given the coordinates after every stride, and
an active position whose rule has terminated stops.  `notices` is what the first phase has to
report. -/
def settle (t : Tracked) (notices : List Notice) (current : Lookup) : Settlement :=
  let (hits, position) := t.position.dueProximity current
  let notices := notices ++ hits.map .proximity
  let t := { t with position := position }
  if t.status = .active && position.hasTerminated then
    let t := { t with status := .stopped }
    ⟨t, true, notices ++ t.stopNotices⟩
  else ⟨t, false, notices⟩

end Tracked

end Orrery
