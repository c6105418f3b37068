import Orrery.Command.Round

/-!
# The registry

The registry holds all entities and all scheduled commands.  Its operations are functions of these
alone; where coordinates matter they are looked up through a given `Lookup`.  What commands do when
they run, and what listeners answer, is the business of `Orrery.World`.

An update that broke off half-way leaves the registry poisoned.  It then refuses everything.
-/

namespace Orrery

/-- All entities and all scheduled commands. -/
structure Registry (κ : Type) where
  entities : Entities := {}
  schedule : Schedule κ := {}
  /-- Whether an update broke off half-way. -/
  poisoned : Bool := false

/-- A command that can be saved: what it does and how far it has come. -/
inductive CommandRecord where
  | attack (a : Attack) (progress : Progress)
  | mining (m : Mining) (progress : Progress)
deriving DecidableEq

/-- The record of a command; custom commands cannot be saved. -/
def Command.record? {κ : Type} (c : Command κ) : Option CommandRecord :=
  match c.task with
  | .attack a => some (.attack a c.progress)
  | .mining m => some (.mining m c.progress)
  | .custom .. => none

/-- The command that a record stands for. -/
def CommandRecord.command {κ : Type} : CommandRecord → Command κ
  | attack a progress => .attack a progress
  | mining m progress => .mining m progress

namespace Registry

variable {κ : Type}

/-- Fails if the registry cannot be trusted. -/
def check (r : Registry κ) : Except RegistryError Unit :=
  if r.poisoned then .error .poisoned else .ok ()

/-- Marks the registry as not to be trusted. -/
def poison (r : Registry κ) : Registry κ := { r with poisoned := true }

/-! ### Entities -/

/-- Adds an entity, unless its name is taken. -/
def create (r : Registry κ) (e : Entity) : Except RegistryError (Registry κ) := do
  r.check
  return { r with entities := ← r.entities.add e }

/-- The entity of this name. -/
def get (r : Registry κ) (id : EntityId) : Except RegistryError Entity := do
  r.check
  r.entities.require id

/-- The entities that satisfy `p`, in the order of creation. -/
def find (r : Registry κ) (p : Entity → Bool) : Except RegistryError (List Entity) := do
  r.check
  return r.entities.all.filter p

/-- Number of entities. -/
def size (r : Registry κ) : Nat := if r.poisoned then 0 else r.entities.table.size

/-- Whether there is no entity. -/
def isEmpty (r : Registry κ) : Bool := r.size == 0

/-- Reads and changes the entities as one unit. -/
def access {α : Type} (r : Registry κ) (f : Entities → α × Entities) :
    Except RegistryError (α × Registry κ) := do
  r.check
  let (a, entities) := f r.entities
  return (a, { r with entities := entities })

/-- Registers a listener of one kind of event of an entity. -/
def subscribe (r : Registry κ) (id : EntityId) (kind : EventKind) (s : Subscription) :
    Except RegistryError (Registry κ) := do
  r.check
  match (← r.entities.require id).events? with
  | none => throw (.wrongKind id "ship or station")
  | some events =>
    return { r with entities := r.entities.putEvents id (events.subscribe kind s) }

/-- Drops all listeners that a subscriber registered on an entity; also tells how many there
were. -/
def unsubscribe (r : Registry κ) (id : EntityId) (subscriber : String) :
    Except RegistryError (Nat × Registry κ) := do
  r.check
  match (← r.entities.require id).events? with
  | none => return (0, r)
  | some events =>
    let (count, events) := events.unsubscribe subscriber
    return (count, { r with entities := r.entities.putEvents id events })

/-! ### Commands -/

/-- Schedules a command, unless its name is taken. -/
def addCommand (r : Registry κ) (c : Command κ) : Except RegistryError (Registry κ) := do
  r.check
  return { r with schedule := ← r.schedule.add c }

/-- The names of the scheduled commands, in order. -/
def commandIds (r : Registry κ) : Except RegistryError (List CommandId) := do
  r.check
  return r.schedule.ids

/-- The scheduled command of this name. -/
def command (r : Registry κ) (id : CommandId) : Except RegistryError (Command κ) := do
  r.check
  match r.schedule.get? id with
  | none => throw (.notFound id.name)
  | some c => return c

/-- Replaces what the schedule remembers of a command. -/
def updateCommand (r : Registry κ) (id : CommandId) (progress : Progress) :
    Except RegistryError (Registry κ) := do
  return { r with schedule := r.schedule.put { ← r.command id with progress := progress } }

/-! ### Handing material over -/

/-- Whether material may be handed over: both sides have to be ships or stations, apart from each
other, in the same system and within reach of the giving one, which has to have enough of it and the
other one room for it. -/
def checkTransfer (es : Entities) (coordinates : Lookup) (src dst : EntityId) (material : String)
    (quantity : UInt32) : Except RegistryError Unit := do
  let s ← es.require src
  let d ← es.require dst
  let some (range, srcHold) := s.trade? | throw (.wrongKind src "ship or station")
  let some (_, dstHold) := d.trade? | throw (.wrongKind dst "ship or station")
  if src = dst then
    throw (.transferRejected "source and destination are the same")
  if quantity = 0 then
    throw (.transferRejected "nothing to transfer")
  if s.system ≠ d.system then
    throw (.transferRejected s!"{src} and {dst} are in different systems")
  match coordinates s.position, coordinates d.position with
  | some a, some b =>
    if !Scalar.le (a.distance b) range then
      throw (.transferRejected s!"{dst} is out of transfer range")
  | _, _ => throw (.transferRejected "positions are not tracked")
  if srcHold.quantityOf material < quantity then
    throw (.transferRejected s!"{src} holds {srcHold.quantityOf material} {material}")
  if !dstHold.canAccept quantity then
    throw (.transferRejected s!"{dst} cannot accept {quantity} more units")

/-- Changes the hold of an entity. -/
def changeHold (es : Entities) (id : EntityId) (f : Hold → Except HoldFault Hold) :
    Except RegistryError Entities := do
  match f (← es.hold id) with
  | .ok hold => return es.putHold id hold
  | .error fault => throw (.ofHold fault)

/-- Moves material: first `dst` is credited, then `src` debited.  If the debit fails the credit is
taken back, so that the units held are what they were before. -/
def moveMaterial (es : Entities) (src dst : EntityId) (material : String) (quantity : UInt32) :
    Except RegistryError Unit × Entities :=
  match changeHold es dst (·.add material quantity) with
  | .error e => (.error e, es)
  | .ok credited =>
    match changeHold credited src (·.remove material quantity) with
    | .ok moved => (.ok (), moved)
    | .error e =>
      match changeHold credited dst (·.remove material quantity) with
      | .ok restored => (.error e, restored)
      | .error _ => (.error e, credited)

/-- What both sides are told of material handed over. -/
def transferEvents (src dst : EntityId) (material : String) (quantity : UInt32) :
    List EntityEvent :=
  [⟨.transferredTo, src, some dst, .resource material quantity⟩,
    ⟨.transferredFrom, dst, some src, .resource material quantity⟩]

/-- Hands material over, if that is allowed.  Returns the announcements to be made. -/
def transfer (r : Registry κ) (coordinates : Lookup) (src dst : EntityId) (material : String)
    (quantity : UInt32) : Except RegistryError (List Announcement) × Registry κ :=
  match r.check, checkTransfer r.entities coordinates src dst material quantity with
  | .error e, _ => (.error e, r)
  | _, .error e => (.error e, r)
  | .ok (), .ok () =>
    let (outcome, entities) := moveMaterial r.entities src dst material quantity
    let r := { r with entities := entities }
    match outcome with
    | .error e => (.error e, r)
    | .ok () =>
      (.ok ((transferEvents src dst material quantity).filterMap entities.announcement?), r)

/-! ### Saving and restoring -/

/-- All entities, and the records of all commands that can be saved, in order. -/
def snapshot (r : Registry κ) : Except RegistryError (List Entity × List CommandRecord) := do
  r.check
  return (r.entities.all, r.schedule.commands.filterMap Command.record?)

/-- Replaces all entities and commands.  Nothing changes if a name repeats. -/
def restore (r : Registry κ) (entities : List Entity) (commands : List CommandRecord) :
    Except RegistryError (Registry κ) := do
  let es ← ({} : Entities).addAll entities
  let schedule ← Schedule.addAll {} (commands.map CommandRecord.command)
  r.check
  return { r with entities := es, schedule := schedule }

end Registry

end Orrery
