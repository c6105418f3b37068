import Orrery.Document.Entity
import Orrery.Simulation

/-!
# Documents of settings and snapshots

The written form of commands, settings and whole snapshots.  `Snapshot.save` and `Snapshot.load?`
write a snapshot as text and read it back.
-/

namespace Orrery

open Json (Value)

/-- Reads the name of a kind of event. -/
def EventKind.ofDocument? (d : Value) : Option EventKind :=
  d.name?.bind (Value.oneOf? all documentName)

namespace ProximityTrigger

/-- The name of a trigger. -/
def text : ProximityTrigger → String
  | entered => "Entered"
  | left => "Left"
  | crossed => "Crossed"

/-- Reads the name of a trigger. -/
def ofDocument? (d : Value) : Option ProximityTrigger :=
  d.name?.bind (Value.oneOf? [entered, left, crossed] text)

end ProximityTrigger

namespace Progress

/-- The written form of the progress of a command. -/
def document (p : Progress) : Value :=
  .record [("exec_rate", .ofOption .ofFloat p.rate), ("last_ran_at", .ofOption .ofFloat p.lastRun),
    ("ran_setup", .bool p.isSetUp)]

/-- Reads the progress of a command. -/
def ofDocument? [Numeral.Reading] (d : Value) : Option Progress := do
  let [rate, last, setUp] ← d.fields? ["exec_rate", "last_ran_at", "ran_setup"] | none
  return ⟨← Value.optional? (·.float?) rate, ← Value.optional? (·.float?) last,
    ← setUp.bind (·.bool?)⟩

end Progress

namespace CommandRecord

/-- The written form of a command. -/
def document : CommandRecord → Value
  | attack a progress =>
    .record [("command", .ofString "attack"), ("attacker", a.attacker.document),
      ("defender", a.defender.document), ("state", progress.document)]
  | mining m progress =>
    .record [("command", .ofString "mine"), ("miner", m.miner.document),
      ("deposit", m.deposit.document), ("state", progress.document)]

/-- Reads the two entities and the progress of a command. -/
def partsOfDocument? [Numeral.Reading] (first second : String) (d : Value) :
    Option (EntityId × EntityId × Progress) := do
  let [a, b, progress] ← d.fields? [first, second, "state"] | none
  return (← a.bind EntityId.ofDocument?, ← b.bind EntityId.ofDocument?,
    ← progress.bind Progress.ofDocument?)

/-- Reads a command. -/
def ofDocument? [Numeral.Reading] (room : Nat) (d : Value) : Option CommandRecord := do
  let (kind, d) ← d.tagged? "command" room
  match kind with
  | "attack" => do
    let (attacker, defender, progress) ← partsOfDocument? "attacker" "defender" d
    return attack ⟨attacker, defender⟩ progress
  | "mine" => do
    let (miner, deposit, progress) ← partsOfDocument? "miner" "deposit" d
    return mining ⟨miner, deposit⟩ progress
  | _ => none

end CommandRecord

namespace Settings

/-- The written form of an interval. -/
def intervalDocument (ms : UInt64) : Value := .record [("tick_interval_ms", .ofNat ms.toNat)]

/-- Reads an interval. -/
def intervalOfDocument? (d : Value) : Option UInt64 := do
  let [ms] ← d.fields? ["tick_interval_ms"] | none
  ms.bind (·.word64?)

/-- The written form of settings. -/
def document (s : Settings) : Value :=
  .record [("runner", intervalDocument s.positions), ("commands", intervalDocument s.commands)]

/-- The intervals in a document, where they are present.  Here even an array may break off early. -/
def sections? : Value → Option (List (Option Value))
  | .arr items =>
    if items.length ≤ 2 then some (items.map some ++ List.replicate (2 - items.length) none)
    else none
  | d => d.fields? ["runner", "commands"]

/-- Reads settings.  An interval that is missing takes its default. -/
def ofDocument? (d : Value) : Option Settings := do
  let [positions, commands] ← sections? d | none
  let defaults : Settings := {}
  return ⟨← positions.elim (some defaults.positions) intervalOfDocument?,
    ← commands.elim (some defaults.commands) intervalOfDocument?⟩

/-- The settings in a text, which have to be valid. -/
def load (text : String) : Except SettingsError Settings :=
  match (Value.parse? text).bind ofDocument? with
  | none => .error (.unreadable "not a document of settings")
  | some s => s.validate.map fun _ => s

end Settings

namespace Snapshot

/-- The written form of a snapshot. -/
def document (s : Snapshot) : Value :=
  .record [("positions", .ofList Tracked.document s.positions),
    ("entities", .ofList Entity.document s.entities),
    ("commands", .ofList CommandRecord.document s.commands)]

/-- Reads a snapshot. -/
def ofDocument? [Numeral.Reading] (room : Nat) (d : Value) : Option Snapshot := do
  let [positions, entities, commands] ← d.fields? ["positions", "entities", "commands"] | none
  return ⟨← positions.bind (Value.list? (Tracked.ofDocument? (room - 2))),
    ← entities.bind (Value.list? (Entity.ofDocument? (room - 2))),
    ← commands.bind (Value.list? (CommandRecord.ofDocument? (room - 2)))⟩

/-- The text of a snapshot. -/
def save (s : Snapshot) : String := s.document.render

/-- The snapshot in a text. -/
def load [Numeral.Reading] (text : String) : Except SnapshotError Snapshot :=
  match (Value.parse? text).bind (ofDocument? Value.maxDepth) with
  | none => .error (.unreadable "not a snapshot")
  | some s => .ok s

end Snapshot

namespace Simulation

variable {κ ε : Type}

/-- The text of a snapshot of the world. -/
def save (s : Simulation κ ε) : Except SnapshotError String := s.snapshot.map Snapshot.save

/-- Takes over the snapshot in a text. -/
def load [Numeral.Reading] (text : String) (s : Simulation κ ε) :
    Except SnapshotError Unit × Simulation κ ε :=
  match Snapshot.load text with
  | .error e => (.error e, s)
  | .ok snapshot => s.restore snapshot

end Simulation

end Orrery
