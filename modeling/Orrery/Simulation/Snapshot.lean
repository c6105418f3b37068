import Orrery.World

/-!
# Snapshots of a world

A snapshot holds everything about a world that outlives the program: the tracked positions with
their rules, odometers and status, the entities, and the commands that can be saved.  Listeners are
not part of a saved snapshot.
-/

namespace Orrery

/-- What is saved of a world. -/
structure Snapshot where
  /-- The tracked positions, in the order of registration. -/
  positions : List Tracked
  /-- The entities, in the order of creation. -/
  entities : List Entity
  /-- The commands that can be saved, in the order of scheduling. -/
  commands : List CommandRecord

/-- Whether there is nothing to restore. -/
def Snapshot.isEmpty (s : Snapshot) : Bool :=
  s.positions.isEmpty && s.entities.isEmpty && s.commands.isEmpty

/-- Why a world cannot be saved or restored. -/
inductive SnapshotError where
  /-- The snapshot could not be written. -/
  | unwritable (reason : String)
  | unreadable (reason : String)
  /-- The simulation is in no state to take a snapshot over. -/
  | conflict (reason : String)
  | tracker (e : TrackerError)
  | registry (e : RegistryError)
deriving DecidableEq, Repr

namespace SnapshotError

/-- The error in words. -/
def message : SnapshotError → String
  | unwritable reason => s!"snapshot encode failed: {reason}"
  | unreadable reason => s!"snapshot decode failed: {reason}"
  | conflict reason => s!"cannot restore: {reason}"
  | tracker e => s!"runner: {e.message}"
  | registry e => s!"registry: {e.message}"

/-- The words of the error behind this one, if there is one. -/
def cause? : SnapshotError → Option String
  | tracker e => some e.message
  | registry e => some e.message
  | _ => none

end SnapshotError

namespace World

variable {κ ε : Type}

/-- The snapshot of a world; the registry is read first. -/
def snapshot (w : World κ ε) : Except SnapshotError Snapshot :=
  match w.registry.snapshot with
  | .error e => .error (.registry e)
  | .ok (entities, commands) =>
    match w.tracker.snapshot with
    | .error e => .error (.tracker e)
    | .ok positions => .ok ⟨positions, entities, commands⟩

/-- Puts a snapshot in the place of everything that is tracked and registered.  If the registry
refuses the entities or the commands, nothing stays tracked. -/
def restore (w : World κ ε) (s : Snapshot) : Except SnapshotError Unit × World κ ε :=
  match w.tracker.restore s.positions with
  | .error e => (.error (.tracker e), w)
  | .ok tracker =>
    match w.registry.restore s.entities s.commands with
    | .ok registry => (.ok (), { w with tracker := tracker, registry := registry })
    | .error e =>
      match tracker.restore [] with
      | .error e => (.error (.tracker e), { w with tracker := tracker })
      | .ok cleared => (.error (.registry e), { w with tracker := cleared })

end World

end Orrery
