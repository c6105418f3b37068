import Orrery.Double

/-!
# Progress of a command

What the schedule remembers of each command: how often it may be executed, when it last was, and
whether it was set up.
-/

namespace Orrery

/-- What the schedule remembers of a command. -/
structure Progress where
  /-- The least time in seconds between executions; none means every tick. -/
  rate : Option Float := none
  /-- When the command was last executed, in seconds. -/
  lastRun : Option Float := none
  isSetUp : Bool := false
deriving DecidableEq

/-- Whether the command may be executed at time `now`. -/
def Progress.allows (p : Progress) (now : Float) : Bool :=
  match p.lastRun, p.rate with
  | some last, some rate => Scalar.le rate (now - last)
  | _, _ => true

end Orrery
