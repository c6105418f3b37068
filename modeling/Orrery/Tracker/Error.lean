import Orrery.Motion.Fault

/-!
# Errors of the tracker
-/

namespace Orrery

/-- Why an operation on the tracked positions was refused. -/
inductive TrackerError where
  | alreadyTracked (id : PositionId)
  /-- There is no tracked position of this identity. -/
  | notFound (id : PositionId)
  /-- The motion rule is invalid, or the coordinates are not finite. -/
  | invalidRule (e : MotionError)
  /-- An earlier update broke off half-way, so the tracked positions cannot be trusted. -/
  | poisoned
deriving DecidableEq, Repr

namespace TrackerError

/-- The error in words. -/
def message : TrackerError → String
  | alreadyTracked id => s!"position {id} is already tracked"
  | notFound id => s!"position {id} not found"
  | invalidRule e => e.message
  | poisoned => "runner state poisoned"

/-- The words of the error behind this one, if there is one. -/
def cause? : TrackerError → Option String
  | invalidRule e => some e.message
  | _ => none

end TrackerError

end Orrery
