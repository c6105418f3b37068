import Orrery.Entity.Hold
import Orrery.Event
import Orrery.Scalar
import Orrery.Double

/-!
# Entities

Ships and stations belong to users, carry material and have listeners.  Loot is what a destroyed
ship leaves behind, and a deposit is material to be mined.  Every entity refers to a position by its
identifier; the coordinates are the tracker's business.
-/

namespace Orrery

/-- Material to be mined. -/
structure Deposit where
  id : EntityId
  system : String
  position : PositionId
  material : String
  quantity : UInt32
deriving DecidableEq

/-- Material left floating where a ship was destroyed. -/
structure Loot where
  id : EntityId
  system : String
  /-- Where it is: where the ship was destroyed. -/
  position : PositionId
  /-- What was recovered. -/
  hold : Hold
deriving DecidableEq

/-- A station of a user. -/
structure Station where
  id : EntityId
  user : String
  system : String
  position : PositionId
  /-- The largest distance at which material is handed over. -/
  transferDistance : Float := 100.0
  hold : Hold := { capacity := 10000 }
  events : EventTable := {}

/-- A ship of a user. -/
structure Ship where
  id : EntityId
  user : String
  system : String
  position : PositionId
  /-- Hit points; none are left of a destroyed ship. -/
  hp : UInt32 := 25
  /-- The shield absorbs damage before the hull does. -/
  shield : UInt32 := 0
  /-- Damage of each hit that the ship lands. -/
  damage : UInt32 := 0
  /-- The largest distance at which the ship attacks. -/
  attackDistance : Float := 100.0
  /-- The largest distance at which the ship mines. -/
  miningDistance : Float := 100.0
  /-- Units mined at a time. -/
  miningQuantity : UInt32 := 5
  /-- The largest distance at which material is handed over. -/
  transferDistance : Float := 100.0
  hold : Hold := { capacity := 100 }
  attacking : Option EntityId := none
  mining : Option EntityId := none
  destroyedBy : Option EntityId := none
  events : EventTable := {}

namespace Ship

/-- Whether hit points are left. -/
def alive (s : Ship) : Bool := 0 < s.hp

/-- Whether the ship may attack `defender` at the given distance. -/
def canAttack (s defender : Ship) (distance : Float) : Bool :=
  s.alive && defender.alive && s.id != defender.id && s.system == defender.system
    && Scalar.le distance s.attackDistance && s.mining.isNone
    && s.attacking.all (· == defender.id) && 0 < s.damage

/-- Whether the ship may mine `deposit` at the given distance. -/
def canMine (s : Ship) (deposit : Deposit) (distance : Float) : Bool :=
  s.alive && s.system == deposit.system && Scalar.le distance s.miningDistance
    && 0 < deposit.quantity && 0 < s.hold.free && 0 < s.miningQuantity

/-- Takes a hit: the shield absorbs what it can, the rest goes off the hit points.  Also tells
whether this hit destroyed the ship. -/
def absorb (s : Ship) (damage : UInt32) : Ship × Bool :=
  if damage ≤ s.shield then ({ s with shield := s.shield - damage }, false)
  else
    let hit := { s with shield := 0, hp := Units.minus s.hp (damage - s.shield) }
    (hit, s.alive && !hit.alive)

end Ship

/-- Anything that the registry holds. -/
inductive Entity where
  | ship (s : Ship)
  | station (s : Station)
  | loot (l : Loot)
  | deposit (d : Deposit)

namespace Entity

/-- Identity. -/
def id : Entity → EntityId
  | ship s => s.id
  | station s => s.id
  | loot l => l.id
  | deposit d => d.id

/-- The name of the kind of entity. -/
def kind : Entity → String
  | ship _ => "ship"
  | station _ => "station"
  | loot _ => "loot"
  | deposit _ => "deposit"

/-- The solar system it is in. -/
def system : Entity → String
  | ship s => s.system
  | station s => s.system
  | loot l => l.system
  | deposit d => d.system

/-- Where it is. -/
def position : Entity → PositionId
  | ship s => s.position
  | station s => s.position
  | loot l => l.position
  | deposit d => d.position

/-- The owner, if it has one. -/
def user? : Entity → Option String
  | ship s => some s.user
  | station s => some s.user
  | loot _ | deposit _ => none

/-- The listeners, if it can have any. -/
def events? : Entity → Option EventTable
  | ship s => some s.events
  | station s => some s.events
  | loot _ | deposit _ => none

/-- Replaces the listeners of an entity that can have any. -/
def withEvents (events : EventTable) : Entity → Entity
  | ship s => ship { s with events := events }
  | station s => station { s with events := events }
  | e => e

/-- The hold, if it has one. -/
def hold? : Entity → Option Hold
  | ship s => some s.hold
  | station s => some s.hold
  | loot l => some l.hold
  | deposit _ => none

/-- Replaces the hold of an entity that has one. -/
def withHold (hold : Hold) : Entity → Entity
  | ship s => ship { s with hold := hold }
  | station s => station { s with hold := hold }
  | loot l => loot { l with hold := hold }
  | e => e

/-- The largest distance at which it hands material over, if it does at all. -/
def transferDistance? : Entity → Option Float
  | ship s => some s.transferDistance
  | station s => some s.transferDistance
  | loot _ | deposit _ => none

/-- How far the entity hands material over and the hold that it does so with, if it takes part in
that. -/
def trade? (e : Entity) : Option (Float × Hold) := do
  return (← e.transferDistance?, ← e.hold?)

/-- The ship, if it is one. -/
def ship? : Entity → Option Ship
  | ship s => some s
  | _ => none

/-- The deposit, if it is one. -/
def deposit? : Entity → Option Deposit
  | deposit d => some d
  | _ => none

/-- Changes a ship; any other entity stays as it is. -/
def mapShip (f : Ship → Ship) : Entity → Entity
  | ship s => ship (f s)
  | e => e

/-- Changes a deposit; any other entity stays as it is. -/
def mapDeposit (f : Deposit → Deposit) : Entity → Entity
  | deposit d => deposit (f d)
  | e => e

end Entity

end Orrery
