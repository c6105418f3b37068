import Orrery.Scenario.Outcome

/-!
# Acts

The single things that a scenario does to entities, either all at once or within the hooks of a
scripted command (`Routine`).  In a hook there are further acts, which reach the rest of the scene.
-/

namespace Orrery.Scenario

/-- Changes to the fields of a ship. -/
structure ShipFields where
  user : Option String := none
  system : Option String := none
  position : Option PositionId := none
  hp : Option UInt32 := none
  shield : Option UInt32 := none
  damage : Option UInt32 := none
  attackDistance : Option Float := none
  miningDistance : Option Float := none
  miningQuantity : Option UInt32 := none
  /-- The largest distance at which material is handed over. -/
  transferDistance : Option Float := none
  /-- What the ship carries. -/
  hold : Option Hold := none
  attacking : Option (Option EntityId) := none
  mining : Option (Option EntityId) := none
  destroyedBy : Option (Option EntityId) := none

/-- The ship after some changes. -/
def ShipFields.apply (f : ShipFields) (s : Ship) : Ship :=
  { s with
    user := f.user.getD s.user
    system := f.system.getD s.system
    position := f.position.getD s.position
    hp := f.hp.getD s.hp
    shield := f.shield.getD s.shield
    damage := f.damage.getD s.damage
    attackDistance := f.attackDistance.getD s.attackDistance
    miningDistance := f.miningDistance.getD s.miningDistance
    miningQuantity := f.miningQuantity.getD s.miningQuantity
    transferDistance := f.transferDistance.getD s.transferDistance
    hold := f.hold.getD s.hold
    attacking := f.attacking.getD s.attacking
    mining := f.mining.getD s.mining
    destroyedBy := f.destroyedBy.getD s.destroyedBy }

/-- Something done to entities. -/
inductive EntityAct where
  | get (id : EntityId)
  | require (id : EntityId)
  | kind (id : EntityId)
  | ship (id : EntityId)
  | deposit (id : EntityId)
  | setShip (id : EntityId) (fields : ShipFields)
  /-- Changes how many units a deposit has. -/
  | setDeposit (id : EntityId) (quantity : UInt32)
  /-- Lets a ship take a hit. -/
  | absorb (id : EntityId) (damage : UInt32)
  | load (id : EntityId) (material : String) (quantity : UInt32)
  /-- Removes material from a hold. -/
  | unload (id : EntityId) (material : String) (quantity : UInt32)
  | insert (e : Entity)
  /-- Removes an entity; commands that act on it go on. -/
  | remove (id : EntityId)
  /-- Tells whether there is an entity of this name. -/
  | contains (id : EntityId)
  | count
  /-- Lists the entities and their kinds. -/
  | list

namespace EntityAct

/-- Changes the hold of an entity, if it has one. -/
def changeHold (id : EntityId) (f : Hold → Except HoldFault Hold) (es : Entities) :
    Except RegistryError (Outcome × Entities) :=
  match (es.get? id).bind Entity.hold? with
  | none => .ok (.nothing, es)
  | some hold =>
    match f hold with
    | .error fault => .error (.ofHold fault)
    | .ok hold => .ok (.hold hold, es.putHold id hold)

/-- Carries an act out. -/
def run (a : EntityAct) (es : Entities) : Except RegistryError (Outcome × Entities) := do
  match a with
  | get id => return (.ofOption .entity (es.get? id), es)
  | require id => return (.entity (← es.require id), es)
  | kind id => return (.text (← es.require id).kind, es)
  | ship id => return (.entity (.ship (← es.ship id)), es)
  | deposit id => return (.entity (.deposit (← es.deposit id)), es)
  | setShip id fields =>
    let changed := Entity.ship (fields.apply (← es.ship id))
    return (.entity changed, es.put id changed)
  | setDeposit id quantity =>
    let changed := Entity.deposit { ← es.deposit id with quantity := quantity }
    return (.entity changed, es.put id changed)
  | absorb id damage =>
    let (hit, destroyed) := (← es.ship id).absorb damage
    return (.flag destroyed, es.put id (.ship hit))
  | load id material quantity => changeHold id (·.add material quantity) es
  | unload id material quantity => changeHold id (·.remove material quantity) es
  | insert e => return (.done, ← es.add e)
  | remove id => return (.ofOption .entity (es.get? id), es.erase id)
  | contains id => return (.flag (es.contains id), es)
  | count => return (.several [.count es.table.size, .flag es.table.isEmpty], es)
  | list => return (.several (es.all.map fun e => .texts [e.id.name, e.kind]), es)

/-- Carries acts out one after the other; a refused one changes nothing. -/
def runAll (acts : List EntityAct) (es : Entities) : List Outcome × Entities :=
  askAll (fun a es =>
    match a.run es with
    | .ok (outcome, es) => (outcome, es)
    | .error e => (.failed (.registry e), es)) acts es

end EntityAct

/-- Something done in a hook of a command. -/
inductive HookAct where
  | entity (a : EntityAct)
  /-- Reads the time of the tick. -/
  | now
  | coordinates (id : PositionId)
  /-- Reads the distance of two positions, if both are tracked. -/
  | distance (a b : PositionId)
  | halt (id : PositionId)
  | credit (c : Credit)
  | announce (event : EntityEvent)
  /-- Asks that the commands acting on an entity be stopped. -/
  | requestStop (id : EntityId)
  /-- Tells whether there is an entity of this name. -/
  | visible (id : EntityId)

/-- Carries an act out in a scene. -/
def HookAct.run (a : HookAct) (s : Scene) : Except RegistryError (Outcome × Scene) := do
  match a with
  | entity a =>
    let (outcome, es) ← a.run s.entities
    return (outcome, { s with entities := es })
  | now => return (.number s.now, s)
  | coordinates id => return (.ofOption .point (s.tracker.coordinatesOf id), s)
  | distance a b => return (.ofOption .number (s.tracker.distanceBetween a b), s)
  | halt id => return (.nothing, s.halt id)
  | credit c => return (.nothing, s.credit c.user c.counter)
  | announce event => return (.nothing, s.announce event)
  | requestStop id => return (.nothing, s.requestStop id)
  | visible id => return (.flag (s.entities.contains id), s)

/-- Carries acts out up to the first one that is refused.  Returns the answers, the last one of
which is the refusal, if there is one. -/
def HookAct.runAll : List HookAct → Scene → List Outcome × Except CommandError Unit × Scene
  | [], s => ([], .ok (), s)
  | a :: rest, s =>
    match a.run s with
    | .error e => ([.failed (.command (.registry e))], .error (.registry e), s)
    | .ok (outcome, s) =>
      let (outcomes, result, s) := runAll rest s
      (outcome :: outcomes, result, s)

/-- The body of a scripted command. -/
inductive Routine where
  /-- It has nothing but an execution that does nothing. -/
  | minimal (name : CommandId)
  /-- It has all hooks.  Each one carries acts out and then fails if it is among `failing`.  The
  command is over after so many executions. -/
  | probe (name : CommandId) (acts : Stage → List HookAct) (failing : List Stage)
      (finishAfter : Option Nat) (executions : Nat)

/-- The command with the given body. -/
def Routine.command (r : Routine) (concerns : List EntityId) (progress : Progress) :
    Command Routine :=
  let name := match r with
    | minimal name => name
    | probe name .. => name
  ⟨progress, .custom name concerns.contains r⟩

end Orrery.Scenario
