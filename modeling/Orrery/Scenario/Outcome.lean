import Orrery.Simulation

/-!
# Outcomes of scenario steps

What a step of a scenario, or an act of a scripted command, answers.
-/

namespace Orrery.Scenario

/-- Any error of the library. -/
inductive Failure where
  | motion (e : MotionError)
  | tracker (e : TrackerError)
  | registry (e : RegistryError)
  | command (e : CommandError)
  | callback (e : CallbackError)
  | settings (e : SettingsError)
  | snapshot (e : SnapshotError)
deriving DecidableEq, Repr

namespace Failure

/-- The error in words. -/
def message : Failure → String
  | motion e => e.message
  | tracker e => e.message
  | registry e => e.message
  | command e => e.message
  | callback e => e.message
  | settings e => e.message
  | snapshot e => e.message

/-- The words of the error behind this one, if there is one. -/
def cause? : Failure → Option String
  | tracker e => e.cause?
  | command e => e.cause?
  | snapshot e => e.cause?
  | motion _ | registry _ | callback _ | settings _ => none

end Failure

/-- The whole state of a world. -/
structure Dump where
  positions : Except TrackerError (List Tracked)
  entities : Except RegistryError (List Entity)
  commands : Except RegistryError (List (CommandId × Progress))
  /-- How many of the commands can be saved. -/
  records : Option Nat

/-- The dump of a world. -/
def Dump.of {κ ε : Type} (w : World κ ε) : Dump where
  positions := w.tracker.snapshot
  entities := w.registry.find fun _ => true
  commands := do
    w.registry.check
    return w.registry.schedule.commands.map fun c => (c.id, c.progress)
  records := match w.registry.snapshot with
    | .ok (_, records) => some records.length
    | .error _ => none

/-- What a step or an act answers. -/
inductive Outcome where
  | done
  | nothing
  | flag (b : Bool)
  /-- A count, or another whole number. -/
  | count (n : Nat)
  | number (x : Float)
  | text (s : String)
  | point (p : Point)
  | position (p : Position)
  | entity (e : Entity)
  | hold (h : Hold)
  | progress (p : Progress)
  | tick (r : TickReport)
  | commandTick (r : World.CommandReport)
  | shutdown (r : ShutdownReport)
  | dump (d : Dump)
  | several (outcomes : List Outcome)
  | failed (e : Failure)

namespace Outcome

/-- The outcome of something that may be refused. -/
def ofExcept {ε α : Type} (failure : ε → Failure) (outcome : α → Outcome) :
    Except ε α → Outcome
  | .ok a => outcome a
  | .error e => failed (failure e)

/-- An outcome that may be missing. -/
def ofOption {α : Type} (outcome : α → Outcome) : Option α → Outcome
  | some a => outcome a
  | none => nothing

/-- Several texts. -/
def texts (ss : List String) : Outcome := several (ss.map text)

end Outcome

end Orrery.Scenario
