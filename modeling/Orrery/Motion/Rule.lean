import Orrery.Motion.Cruise
import Orrery.Motion.Orbit
import Orrery.Motion.Pursuit

/-!
# Motion rules

A motion rule says how a position moves and turns as time passes.  Each kind of rule checks its
own parameters; `Rule.advance` applies a rule for some seconds, given a lookup of the coordinates
of other positions.
-/

namespace Orrery

open Motion

/-- How a position moves. -/
inductive Rule (α : Type) where
  | rest
  /-- In a straight line. -/
  | cruise (c : Cruise α)
  | orbit (o : Orbit α)
  /-- Turning on the spot. -/
  | spin (s : Spin α)
  /-- Toward another position. -/
  | pursuit (p : Pursuit α)
deriving DecidableEq

/-- What an advance leads to. -/
structure Advance (α : Type) where
  /-- The rule afterwards; an orbit has a new true anomaly. -/
  rule : Rule α
  state : Kinematics α
  /-- Whether the rule reports a change of coordinates or orientation. -/
  changed : Bool

namespace Rule

variable {α : Type} [Scalar α]

/-- The name of the kind of rule. -/
def kind : Rule α → String
  | rest => "stationary"
  | cruise _ => "linear"
  | orbit _ => "elliptical"
  | spin _ => "rotate"
  | pursuit _ => "follow"

/-- Checks the parameters. -/
def validate : Rule α → Except (Fault α) Unit
  | rest => .ok ()
  | cruise c => c.validate
  | orbit o => o.validate
  | spin s => s.validate
  | pursuit p => p.validate

/-- Applies the rule for `elapsed` seconds.  The only failure is a pursuit of a position that the
lookup does not know. -/
def advance (r : Rule α) (state : Kinematics α) (elapsed : α)
    (targets : PositionId → Option (Vec3 α)) : Except MotionError (Advance α) :=
  match r with
  | rest => .ok ⟨r, state, false⟩
  | cruise c =>
    let (state, changed) := c.advance state elapsed
    .ok ⟨r, state, changed⟩
  | orbit o =>
    let (o, state, changed) := o.advance state elapsed
    .ok ⟨orbit o, state, changed⟩
  | spin s =>
    let (state, changed) := s.rotate state elapsed
    .ok ⟨r, state, changed⟩
  | pursuit p => do
    let (state, changed) ← p.advance state elapsed targets
    .ok ⟨r, state, changed⟩

/-- Whether the rule has nothing left to do. -/
def hasTerminated (r : Rule α) (state : Kinematics α) : Bool :=
  match r with
  | rest | orbit _ | pursuit _ => false
  | cruise c => c.hasTerminated state
  | spin s => s.isComplete state

end Rule

end Orrery
