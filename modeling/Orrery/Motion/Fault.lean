import Orrery.Decimal.Layout
import Orrery.Ident

/-!
# Faults of motion

A `Fault` says which parameter of a motion rule breaks which requirement.  A `MotionError` is
what becomes of it for a caller, beside the two ways in which an advance can fail: the position
that is pursued is not tracked, or the result is not finite.
-/

namespace Orrery.Motion

/-- What a parameter of a motion rule must be. -/
inductive Requirement where
  /-- A vector other than zero. -/
  | nonZero
  | normalized
  /-- Vectors at a right angle. -/
  | orthogonal
  /-- Neither infinite nor undefined. -/
  | finite
  /-- Finite and above zero. -/
  | positive
  /-- Finite and not below zero; that it is finite goes without saying. -/
  | nonNegative
  /-- Finite and not below zero, and both are said. -/
  | finiteNonNegative
  /-- Less than a full turn in a second, in either direction. -/
  | belowFullTurn
  /-- At least zero and below one. -/
  | belowOne
deriving DecidableEq, Repr

/-- The requirement in words. -/
def Requirement.text : Requirement → String
  | nonZero => "non-zero"
  | normalized => "normalized"
  | orthogonal => "orthogonal"
  | finite => "finite"
  | positive => "positive"
  | nonNegative => "non-negative"
  | finiteNonNegative => "finite and non-negative"
  | belowFullTurn => "finite and below 2π rad/s"
  | belowOne => "in [0, 1)"

/-- A parameter that breaks a requirement. -/
structure Fault (α : Type) where
  /-- The motion rule, or whatever else has the parameter. -/
  rule : String
  /-- The parameter; empty if there is only one. -/
  parameter : String
  /-- What the parameter must be. -/
  requirement : Requirement
  /-- The offending value, where it is a number. -/
  got : Option α := none
deriving DecidableEq

/-- The fault in words. -/
def Fault.text (f : Fault Float) : String :=
  let subject := if f.parameter.isEmpty then "" else f.parameter ++ " "
  let got := match f.got with
    | none => ""
    | some x => ", got " ++ Layout.message.text x
  subject ++ "must be " ++ f.requirement.text ++ got

end Orrery.Motion

namespace Orrery

/-- Why a motion rule was refused or an advance failed. -/
inductive MotionError where
  | invalidParameter (rule reason : String)
  | targetMissing (target : PositionId)
  /-- The advance, or the jump, leads to a coordinate that is not finite. -/
  | nonFinite (id : PositionId)
deriving DecidableEq, Repr

namespace MotionError

/-- The refusal of a faulty parameter. -/
def ofFault (f : Motion.Fault Float) : MotionError := invalidParameter f.rule f.text

/-- The error in words. -/
def message : MotionError → String
  | invalidParameter rule reason => s!"invalid {rule} motion rule: {reason}"
  | targetMissing target => s!"follow target {target} is not tracked"
  | nonFinite id => s!"position {id} advanced to a non-finite value"

end MotionError

end Orrery
