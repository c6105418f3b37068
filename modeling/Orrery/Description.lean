import Orrery.Simulation
import Orrery.Text.Unprintable

/-!
# Descriptions

One-line texts that show what a value is made of, for people who look into a running program:
a name, and in braces the fields.  Two dots in the place of further fields mean that there is more
than is shown.
-/

namespace Orrery.Description

/-- A character of a quoted string.  Unprintable ones are named by their code points. -/
def escaped (c : Char) : String :=
  match c with
  | '"' => "\\\""
  | '\\' => "\\\\"
  | '\n' => "\\n"
  | '\r' => "\\r"
  | '\t' => "\\t"
  | '\x00' => "\\0"
  | c =>
    if Text.isUnprintable c then
      "\\u\x7b" ++ String.ofList (Nat.toDigits 16 c.toNat) ++ "\x7d"
    else c.toString

/-- A string in quotes. -/
def quoted (s : String) : String := "\"" ++ String.join (s.toList.map escaped) ++ "\""

/-- A name and fields. -/
def record (name : String) (fields : List (String × String)) (more : Bool := false) : String :=
  let shown := fields.map (fun f => f.1 ++ ": " ++ f.2) ++ (if more then [".."] else [])
  name ++ " \x7b " ++ ", ".intercalate shown ++ " \x7d"

/-- A number. -/
def number (x : Float) : String := Layout.debug.text x

end Orrery.Description

namespace Orrery

open Description

/-- The description of a vector. -/
def Vec3.describe (v : Point) : String :=
  record "Vec3" [("x", number v.x), ("y", number v.y), ("z", number v.z)]

/-- The description of a trigger. -/
def ProximityTrigger.describe : ProximityTrigger → String
  | entered => "Entered"
  | left => "Left"
  | crossed => "Crossed"

/-- The description of a movement watch. -/
def MovementWatch.describe (w : MovementWatch) : String :=
  record "MovementCallback"
    [("subscriber", quoted w.subscriber), ("min_distance", number w.minDistance),
      ("anchor", w.anchor.describe)] true

/-- The description of a proximity watch. -/
def ProximityWatch.describe (w : ProximityWatch) : String :=
  record "ProximityCallback"
    [("subscriber", quoted w.subscriber), ("target", s!"PositionId({w.target})"),
      ("distance", number w.distance), ("trigger", w.trigger.describe),
      ("within", toString w.within)] true

/-- The description of a subscription. -/
def Subscription.describe (s : Subscription) : String :=
  record "Subscription" [("subscriber", quoted s.subscriber)] true

/-- The description of a ticker. -/
def Ticker.describe (t : Ticker) : String :=
  record "Scheduler"
    [("name", quoted t.name), ("ticks", toString t.ticks), ("halted", toString t.halted)]

/-- The description of a tracker. -/
def Tracker.describe (t : Tracker) : String := record "Runner" [("tracked", toString t.size)]

/-- The description of a registry; one that cannot be trusted shows nothing. -/
def Registry.describe {κ : Type} (r : Registry κ) : String :=
  if r.poisoned then record "Registry" [] true
  else
    record "Registry"
      [("entities", toString r.entities.table.size), ("commands", toString r.schedule.size)] true

/-- The description of an interval. -/
def Settings.describeInterval (ms : UInt64) : String :=
  record "SchedulerConfig" [("tick_interval_ms", toString ms.toNat)]

/-- The description of settings. -/
def Settings.describe (s : Settings) : String :=
  record "SimulationConfig"
    [("runner", describeInterval s.positions), ("commands", describeInterval s.commands)]

/-- The description of a simulation. -/
def Simulation.describe {κ ε : Type} (s : Simulation κ ε) : String :=
  record "Simulation"
    [("config", s.settings.describe), ("runner", s.world.tracker.describe),
      ("registry", s.world.registry.describe), ("running", toString s.isRunning)]

end Orrery
