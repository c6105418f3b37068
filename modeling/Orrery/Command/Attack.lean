import Orrery.Command.Progress
import Orrery.Command.Scene

/-!
# Attacks

One ship attacks another one, cycle after cycle, as long as it may.  The listeners of both are told
of every hit (`attacked`, `defended`) and once of the end (`attackedStop`, `defendedStop`); the
listeners of the defender also learn if this attack destroyed it (`destroyedBy`).

A wreck is halted, everything else that acts on it is stopped, the owners of both ships get their
credits, and the cargo is left behind as loot.
-/

namespace Orrery

/-- A ship attacks another one. -/
structure Attack where
  attacker : EntityId
  /-- The ship under attack. -/
  defender : EntityId
deriving DecidableEq, Repr

namespace Attack

/-- A ship drives at most one attack. -/
def commandId (a : Attack) : CommandId := .forEntity "attack" a.attacker

/-- Whether the attack acts on an entity. -/
def concerns (a : Attack) (id : EntityId) : Bool := id == a.attacker || id == a.defender

/-- Whether the attacker may attack the defender now. -/
def isPossible (a : Attack) (s : Scene) : Bool :=
  match s.entities.ship a.attacker, s.entities.ship a.defender with
  | .ok attacker, .ok defender =>
    (s.tracker.distanceBetween attacker.position defender.position).any
      (attacker.canAttack defender)
  | _, _ => false

/-- Whether the defender is a wreck that this attacker destroyed. -/
def isWon (a : Attack) (s : Scene) : Bool :=
  match s.entities.ship a.defender with
  | .ok defender => !defender.alive && defender.destroyedBy == some a.attacker
  | .error _ => false

/-- Whether the attack is over: the defender is gone or destroyed, or may not be attacked. -/
def isOver (a : Attack) (s : Scene) : Bool :=
  let defenderLives := match s.entities.ship a.defender with
    | .ok defender => defender.alive
    | .error _ => false
  !defenderLives || !a.isPossible s

/-- The event that tells one side about the other. -/
def eventTo (kind : EventKind) (entity other : EntityId) : EntityEvent :=
  ⟨kind, entity, other, .none⟩

/-- The attacker attacks nobody any more. -/
def disengage (a : Attack) : Act Unit :=
  Act.change (·.adjustShip a.attacker ({ · with attacking := none }))

/-- Tells both sides that the attack is over, and the defender if it was destroyed. -/
def announceEnd (a : Attack) : Act Unit := do
  modify (·.announce (eventTo .attackedStop a.attacker a.defender))
  modify (·.announce (eventTo .defendedStop a.defender a.attacker))
  if a.isWon (← get) then
    modify (·.announce (eventTo .destroyedBy a.defender a.attacker))

/-- The name of the loot that the defender leaves behind. -/
def lootId (a : Attack) : EntityId := ⟨a.defender.name ++ "-loot"⟩

/-- Whether the name of the loot is free, or belongs to loot that more can be added to. -/
def lootIdUsable (a : Attack) (es : Entities) : Bool :=
  match es.get? a.lootId with
  | none | some (.loot _) => true
  | some _ => false

/-- Adds stacks to loot that exists already, after making room for them.  Loot that holds more than
its capacity may refuse some of them even so. -/
def addToLoot (a : Attack) (loot : Loot) (salvage : List Stack) : Act Unit := do
  let units := Units.total (salvage.map (·.quantity))
  let roomy := { loot.hold with capacity := Units.plus loot.hold.capacity units }
  let (hold, fault) := roomy.addAll salvage
  Act.change (·.put a.lootId (.loot { loot with hold := hold }))
  if let some f := fault then
    throw (.registry (.ofHold f))

/-- Leaves stacks behind as new loot where the wreck is. -/
def createLoot (a : Attack) (wreck : Ship) (salvage : List Stack) : Act Unit := do
  let units := Units.total (salvage.map (·.quantity))
  let empty : Hold := { capacity := Units.greatest wreck.hold.capacity units }
  match empty.addAll salvage with
  | (_, some f) => throw (.registry (.ofHold f))
  | (hold, none) =>
    let es ← Act.read (·.add (.loot ⟨a.lootId, wreck.system, wreck.position, hold⟩))
    Act.change fun _ => es

/-- Takes the cargo off the wreck.  It stays there if the name of the loot belongs to something
else. -/
def strip (a : Attack) (wreck : Ship) : Act (List Stack) := do
  if a.lootIdUsable (← get).entities then
    Act.change (·.adjustShip a.defender ({ · with hold := wreck.hold.emptied }))
    return wreck.hold.contents
  else return []

/-- Halts the wreck, asks that everything else that acts on it be stopped, and gives the owners of
both ships their credits. -/
def settleUp (a : Attack) (wreck : Ship) : Act Unit := do
  modify (·.halt wreck.position)
  modify (·.requestStop a.defender)
  if let .ok attacker := (← get).entities.ship a.attacker then
    modify (·.credit attacker.user Credit.shipsUserDestroyed)
  modify (·.credit wreck.user Credit.userShipsDestroyed)

/-- Leaves stacks behind as loot, if there are any. -/
def leaveLoot (a : Attack) (wreck : Ship) (salvage : List Stack) : Act Unit := do
  if !salvage.isEmpty then
    match (← get).entities.get? a.lootId with
    | some (.loot existing) => a.addToLoot existing salvage
    | _ => a.createLoot wreck salvage

/-- Clears up after the defender was destroyed. -/
def clearUp (a : Attack) : Act Unit := do
  let wreck ← Act.read (·.ship a.defender)
  let salvage ← a.strip wreck
  a.settleUp wreck
  a.leaveLoot wreck salvage

/-! ### Hooks -/

/-- The attacker turns to the defender. -/
def setup (a : Attack) : Act Unit := do
  let _ ← Act.read (·.ship a.defender)
  let _ ← Act.read (·.ship a.attacker)
  Act.change (·.adjustShip a.attacker ({ · with attacking := a.defender }))

/-- Both ships have to be there. -/
def before (a : Attack) : Act Unit := do
  let _ ← Act.read (·.ship a.attacker)
  let _ ← Act.read (·.ship a.defender)

/-- One hit. -/
def execute (a : Attack) : Act Unit := do
  let attacker ← Act.read (·.ship a.attacker)
  let defender ← Act.read (·.ship a.defender)
  let (hit, destroyed) := defender.absorb attacker.damage
  Act.change (·.adjustShip a.defender fun _ =>
    if destroyed then { hit with destroyedBy := some a.attacker } else hit)
  modify (·.announce (eventTo .attacked a.attacker a.defender))
  modify (·.announce (eventTo .defended a.defender a.attacker))

/-- The end of an attack that is over.  Both sides are told even if clearing up fails. -/
def teardown (a : Attack) : Act Unit := do
  a.disengage
  let won := a.isWon (← get)
  let cleared ← Act.attempt (if won then a.clearUp else pure ())
  a.announceEnd
  Act.settle cleared

/-- The end of an attack that is stopped from outside; nothing if it has ended before. -/
def stop (a : Attack) : Act Unit := do
  if let .ok attacker := (← get).entities.ship a.attacker then
    if attacker.attacking == some a.defender then
      a.disengage
      a.announceEnd

end Attack

end Orrery
