import Orrery.Entity.Collection
import Orrery.Tracker

/-!
# The scene of a hook

A hook of a command sees and changes a `Scene`: the time, the entities and the tracked positions.
What it asks for beyond that is written down and carried out by the schedule afterwards:
announcements to listeners, requests to stop the commands that act on an entity, and credits to
users.  A hook that fails keeps the changes that it made before.
-/

namespace Orrery

/-- A point for one of a user's counters. -/
structure Credit where
  user : String
  counter : String
deriving DecidableEq, Repr

/-- The counter of ships that a user destroyed. -/
def Credit.shipsUserDestroyed : String := "ships_user_destroyed"

/-- The counter of ships that a user lost. -/
def Credit.userShipsDestroyed : String := "user_ships_destroyed"

/-- What a hook of a command sees and changes, and what it asks for. -/
structure Scene where
  /-- The time of the tick, in seconds. -/
  now : Float
  entities : Entities
  tracker : Tracker
  /-- Events raised, in order, whether or not anybody listens. -/
  raised : List EntityEvent := []
  /-- Announcements asked for, in order. -/
  announcements : List Announcement := []
  /-- Entities on which commands are to be stopped, in order. -/
  stopRequests : List EntityId := []
  /-- Credits asked for, in order. -/
  credits : List Credit := []

namespace Scene

/-- Raises an event: asks that the listeners of `event.entity` be told of it, if it has any now. -/
def announce (s : Scene) (event : EntityEvent) : Scene :=
  { s with
    raised := s.raised ++ [event]
    announcements := s.announcements ++ (s.entities.announcement? event).toList }

/-- Asks that all commands acting on an entity be stopped. -/
def requestStop (s : Scene) (id : EntityId) : Scene :=
  { s with stopRequests := s.stopRequests ++ [id] }

/-- Asks for a credit. -/
def credit (s : Scene) (user counter : String) : Scene :=
  { s with credits := s.credits ++ [⟨user, counter⟩] }

/-- Stops a position in place. -/
def halt (s : Scene) (id : PositionId) : Scene := { s with tracker := s.tracker.halt id }

end Scene

/-- An action on a scene that may fail.  A failure keeps the scene as it was left. -/
abbrev Act (α : Type) := ExceptT CommandError (StateM Scene) α

namespace Act

/-- Reads something off the entities. -/
def read {α : Type} (f : Entities → Except RegistryError α) : Act α := do
  match f (← get).entities with
  | .ok a => return a
  | .error e => throw (.registry e)

/-- Runs an action and goes on even if it fails; the failure becomes the result. -/
def attempt (a : Act Unit) : Act (Except CommandError Unit) := ExceptT.lift a.run

/-- Fails with a result that was kept by `attempt`. -/
def settle (r : Except CommandError Unit) : Act Unit := ExceptT.mk (pure r)

/-- Changes the entities. -/
def change (f : Entities → Entities) : Act Unit :=
  modify fun s => { s with entities := f s.entities }

end Act

end Orrery
