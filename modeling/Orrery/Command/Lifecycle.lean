import Orrery.Command

/-!
# The lifecycle of a command

In each tick a command goes through its stages: `setup` until it has succeeded once, `before`,
`execute` if the command may be executed now, and `after`.  A failing stage ends the tick for the
stages that remain.  Whatever failed, the command is then asked whether it is over, and if so
`teardown` runs and the command leaves the schedule.

The time of the last execution is noted before `execute` runs, so a failing execution counts.
-/

namespace Orrery

/-- What one tick of a command did. -/
structure TickOutcome where
  /-- `execute` succeeded. -/
  executed : Bool
  failed : Bool
  removed : Bool
deriving DecidableEq, Repr

/-- A command in the midst of its tick. -/
structure Performance (κ ε : Type) where
  command : Command κ
  /-- What it has reached so far. -/
  setting : Setting κ ε
  /-- Whether `execute` has succeeded. -/
  executed : Bool := false

namespace Performance

variable {κ ε : Type}

/-- Notes that the command is set up. -/
def noteSetUp (p : Performance κ ε) : Performance κ ε :=
  { p with command := { p.command with progress := { p.command.progress with isSetUp := true } } }

/-- Notes that the command is being executed now. -/
def noteRun (p : Performance κ ε) : Performance κ ε :=
  { p with
    command :=
      { p.command with progress := { p.command.progress with lastRun := some p.setting.now } } }

/-- Notes that the execution succeeded. -/
def noteExecuted (p : Performance κ ε) : Performance κ ε := { p with executed := true }

/-- Runs one hook. -/
def perform (host : CommandHost κ ε) (stage : Stage) :
    ExceptT CommandError (StateM (Performance κ ε)) Unit := fun p =>
  let (outcome, command, setting) := p.command.run host stage p.setting
  (outcome, { p with command := command, setting := setting })

/-- Sets the command up, unless that has succeeded before. -/
def setUp (host : CommandHost κ ε) : ExceptT CommandError (StateM (Performance κ ε)) Unit := do
  if !(← get).command.progress.isSetUp then
    perform host .setup
    modify noteSetUp

/-- Executes the command, if it may be executed now. -/
def execute (host : CommandHost κ ε) : ExceptT CommandError (StateM (Performance κ ε)) Unit := do
  let p ← get
  if p.command.mayExecute host p.setting then
    modify noteRun
    perform host .execute
    modify noteExecuted

/-- The stages of a tick, up to the first failure. -/
def stages (host : CommandHost κ ε) : ExceptT CommandError (StateM (Performance κ ε)) Unit := do
  setUp host
  perform host .before
  execute host
  perform host .after

end Performance

/-- Whether a hook failed. -/
def hookFailed : Except CommandError Unit → Bool
  | .ok () => false
  | .error _ => true

namespace Command

variable {κ ε : Type}

/-- One tick of a command. -/
def tick (host : CommandHost κ ε) (c : Command κ) (s : Setting κ ε) :
    TickOutcome × Command κ × Setting κ ε :=
  let start : Performance κ ε := { command := c, setting := s.note (.turn c s.scene) }
  let (outcome, p) := (Performance.stages host).run.run start
  if p.command.isOver host p.setting then
    let (last, c, s) := p.command.run host .teardown p.setting
    (⟨p.executed, hookFailed outcome || hookFailed last, true⟩, c, s)
  else (⟨p.executed, hookFailed outcome, false⟩, p.command, p.setting)

/-- Stops a command from outside.  A failure of the hook changes nothing about that. -/
def halt (host : CommandHost κ ε) (c : Command κ) (s : Setting κ ε) : Setting κ ε :=
  (c.run host .stop s).2.2

end Command

end Orrery
