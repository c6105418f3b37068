/-!
# Settings of a simulation

A simulation has two tickers, one for positions and one for commands, and each has an interval in
milliseconds, at least one.
-/

namespace Orrery

/-- The intervals of the two tickers. -/
structure Settings where
  /-- Milliseconds between ticks of the positions. -/
  positions : UInt64 := 250
  /-- Milliseconds between ticks of the commands. -/
  commands : UInt64 := 500
deriving DecidableEq, Repr

/-- Why settings are refused, or a simulation does not start. -/
inductive SettingsError where
  | zeroInterval (name : String)
  /-- The text is not a document of settings. -/
  | unreadable (reason : String)
  /-- A background loop could not be started. -/
  | spawnFailed (reason : String)
  | alreadyRunning
deriving DecidableEq, Repr

/-- The error in words. -/
def SettingsError.message : SettingsError → String
  | zeroInterval name => s!"{name} tick_interval_ms must be at least 1"
  | unreadable reason => s!"invalid config: {reason}"
  | spawnFailed reason => s!"thread spawn failed: {reason}"
  | alreadyRunning => "schedulers are already running"

namespace Settings

/-- The whole seconds of an interval. -/
def seconds (ms : UInt64) : UInt64 := ms / 1000

/-- The nanoseconds of an interval beyond its whole seconds. -/
def nanoseconds (ms : UInt64) : UInt64 := ms % 1000 * 1000000

/-- Checks the intervals, that of positions first. -/
def validate (s : Settings) : Except SettingsError Unit := do
  if s.positions = 0 then
    throw (.zeroInterval "runner")
  if s.commands = 0 then
    throw (.zeroInterval "commands")

end Settings

end Orrery
