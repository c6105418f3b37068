import Orrery.Simulation.Settings
import Orrery.Simulation.Snapshot
import Orrery.Ticker

/-!
# Simulations

A simulation is a world with two tickers: one advances the tracked positions, the other one ticks
the commands.  Between `start` and `shutdown` the tickers run in the background.  `start` lets each
of them make its first call, and with intervals that are long enough that is the only one.
-/

namespace Orrery

/-- What both tickers tell when a simulation is shut down. -/
structure ShutdownReport where
  positions : TickerReport := {}
  commands : TickerReport := {}
deriving DecidableEq, Repr

/-- The tickers of a running simulation. -/
structure Tickers where
  positions : Ticker
  commands : Ticker
deriving DecidableEq, Repr

/-- A world, its settings, and its tickers while they run. -/
structure Simulation (κ ε : Type) where
  settings : Settings := {}
  world : World κ ε
  /-- The tickers, while the simulation is running. -/
  tickers : Option Tickers := none

/-- What a call of a ticker came to whose action answered `r`. -/
def CallOutcome.of {ε α : Type} (r : Except ε α) : CallOutcome :=
  match r with
  | .ok _ => .completed
  | .error _ => .failed

namespace Simulation

variable {κ ε : Type}

/-- An empty simulation that is not running; the settings have to be valid. -/
def new (settings : Settings) (outside : ε) : Except SettingsError (Simulation κ ε) := do
  settings.validate
  return { settings := settings, world := { outside := outside } }

/-- Whether the tickers run. -/
def isRunning (s : Simulation κ ε) : Bool := s.tickers.isSome

/-- Starts the tickers.  The positions have `elapsed` seconds to catch up with, and the commands are
ticked at time `now`. -/
def start (host : Host κ ε) (elapsed now : Float) (s : Simulation κ ε) :
    Except SettingsError Unit × Simulation κ ε :=
  if s.isRunning then (.error .alreadyRunning, s)
  else
    let (moved, world) := s.world.tick host elapsed
    let (ticked, world) := world.tickCommands host now
    let tickers : Tickers :=
      ⟨({ name := "positions" } : Ticker).call (.of moved),
        ({ name := "commands" } : Ticker).call (.of ticked)⟩
    (.ok (), { s with world := world, tickers := some tickers })

/-- Stops the tickers, if they run. -/
def shutdown (s : Simulation κ ε) : ShutdownReport × Simulation κ ε :=
  match s.tickers with
  | none => ({}, s)
  | some t => (⟨t.positions.shutdown.1, t.commands.shutdown.1⟩, { s with tickers := none })

/-- The snapshot of the world. -/
def snapshot (s : Simulation κ ε) : Except SnapshotError Snapshot := s.world.snapshot

/-- Takes a snapshot over.  The simulation must not be running and has to be empty. -/
def restore (snapshot : Snapshot) (s : Simulation κ ε) :
    Except SnapshotError Unit × Simulation κ ε :=
  if s.isRunning then (.error (.conflict "simulation is running"), s)
  else if !s.world.tracker.isEmpty || !s.world.registry.isEmpty then
    (.error (.conflict "simulation is not empty"), s)
  else
    let (outcome, world) := s.world.restore snapshot
    (outcome, { s with world := world })

end Simulation

end Orrery
