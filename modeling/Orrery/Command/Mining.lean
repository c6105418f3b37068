import Orrery.Command.Progress
import Orrery.Command.Scene

/-!
# Mining

A ship mines a deposit, cycle after cycle, as long as it can.  Each cycle moves as many units as the
ship mines at a time, as the deposit still has and as fit into the hold, whichever is least.  The
listeners of the ship are told of every cycle (`resourceCollected`) and once of the end
(`miningStopped`), with the reason for it.
-/

namespace Orrery

/-- A ship mines a deposit. -/
structure Mining where
  miner : EntityId
  deposit : EntityId
deriving DecidableEq, Repr

/-- Why mining cannot go on. -/
inductive MiningObstacle where
  /-- There is no such ship. -/
  | minerGone
  | depositGone
  | minerDestroyed
  /-- Ship and deposit are in different solar systems. -/
  | differentSystem
  | depositDepleted
  /-- Nothing more fits into the hold of the ship. -/
  | holdFull
  /-- The deposit is out of reach, or its distance is unknown. -/
  | outOfRange
deriving DecidableEq, Repr

/-- The obstacle in words. -/
def MiningObstacle.text : MiningObstacle → String
  | minerGone => "miner gone"
  | depositGone => "deposit gone"
  | minerDestroyed => "miner destroyed"
  | differentSystem => "different system"
  | depositDepleted => "deposit depleted"
  | holdFull => "cargo full"
  | outOfRange => "out of range"

namespace Mining

/-- A ship drives at most one mining run. -/
def commandId (m : Mining) : CommandId := .forEntity "mine" m.miner

/-- Whether the mining run acts on an entity. -/
def concerns (m : Mining) (id : EntityId) : Bool := id == m.miner || id == m.deposit

/-- What keeps the ship from mining now, the first obstacle of several. -/
def obstacle? (m : Mining) (s : Scene) : Option MiningObstacle :=
  match s.entities.ship m.miner with
  | .error _ => some .minerGone
  | .ok ship =>
    match s.entities.deposit m.deposit with
    | .error _ => some .depositGone
    | .ok deposit =>
      if !ship.alive then some .minerDestroyed
      else if ship.system != deposit.system then some .differentSystem
      else if deposit.quantity == 0 then some .depositDepleted
      else if ship.hold.free == 0 then some .holdFull
      else
        match s.tracker.distanceBetween ship.position deposit.position with
        | none => some .outOfRange
        | some d => if ship.canMine deposit d then none else some .outOfRange

/-- Ends mining and tells why. -/
def finish (m : Mining) (reason : String) : Act Unit := do
  Act.change (·.adjustShip m.miner ({ · with mining := none }))
  modify (·.announce ⟨.miningStopped, m.miner, m.deposit, .reason reason⟩)

/-! ### Hooks -/

/-- The ship turns to the deposit. -/
def setup (m : Mining) : Act Unit := do
  let _ ← Act.read (·.deposit m.deposit)
  let _ ← Act.read (·.ship m.miner)
  Act.change (·.adjustShip m.miner ({ · with mining := m.deposit }))

/-- One cycle; nothing happens if no unit can be moved. -/
def execute (m : Mining) : Act Unit := do
  let ship ← Act.read (·.ship m.miner)
  let deposit ← Act.read (·.deposit m.deposit)
  let quantity := Units.least (Units.least ship.miningQuantity deposit.quantity) ship.hold.free
  if quantity == 0 then return ()
  Act.change (·.adjustDeposit m.deposit fun d => { d with quantity := d.quantity - quantity })
  let ship ← Act.read (·.ship m.miner)
  match ship.hold.add deposit.material quantity with
  | .error f => throw (.registry (.ofHold f))
  | .ok hold =>
    Act.change (·.adjustShip m.miner ({ · with hold := hold }))
    modify (·.announce
      ⟨.resourceCollected, m.miner, m.deposit, .resource deposit.material quantity⟩)

/-- The end of a mining run that cannot go on. -/
def teardown (m : Mining) : Act Unit := do
  m.finish (((m.obstacle? (← get)).map MiningObstacle.text).getD "finished")

/-- The end of a mining run that is stopped from outside; nothing if it has ended before. -/
def stop (m : Mining) : Act Unit := do
  if let .ok ship := (← get).entities.ship m.miner then
    if ship.mining == some m.deposit then
      m.finish "stopped"

end Mining

end Orrery
