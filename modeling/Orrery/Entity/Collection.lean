import Orrery.Entity
import Orrery.Registry.Error

/-!
# The collection of entities

All entities under their identifiers, in the order of creation.  Identifiers are unique across all
kinds of entity, and an entity is never overwritten by another one.
-/

namespace Orrery

/-- Entities under their identifiers, in the order of creation. -/
structure Entities where
  table : Table EntityId Entity := {}

/-- Listeners of an entity together with the event that they are to be told of.  Which listeners
these are is settled when the event occurs. -/
structure Announcement where
  /-- The listeners, in the order of registration. -/
  subscriptions : List Subscription
  event : EntityEvent

namespace Entities

/-- The entity of this name. -/
def get? (es : Entities) (id : EntityId) : Option Entity := es.table.get? id

/-- Whether there is an entity of this name. -/
def contains (es : Entities) (id : EntityId) : Bool := es.table.contains id

/-- All entities, in the order of creation. -/
def all (es : Entities) : List Entity := es.table.values

/-- The entity of this name, or an error. -/
def require (es : Entities) (id : EntityId) : Except RegistryError Entity :=
  match es.get? id with
  | some e => .ok e
  | none => .error (.notFound id.name)

/-- The ship of this name, or an error. -/
def ship (es : Entities) (id : EntityId) : Except RegistryError Ship := do
  match (← es.require id).ship? with
  | some s => return s
  | none => throw (.wrongKind id "ship")

/-- The deposit of this name, or an error. -/
def deposit (es : Entities) (id : EntityId) : Except RegistryError Deposit := do
  match (← es.require id).deposit? with
  | some d => return d
  | none => throw (.wrongKind id "deposit")

/-- The hold of the entity of this name, or an error. -/
def hold (es : Entities) (id : EntityId) : Except RegistryError Hold := do
  match (← es.require id).hold? with
  | some h => return h
  | none => throw (.wrongKind id "ship or station")

/-- Changes the entity of this name, if there is one. -/
def adjust (es : Entities) (id : EntityId) (f : Entity → Entity) : Entities :=
  ⟨es.table.modify id f⟩

/-- Replaces the entity of this name, if there is one. -/
def put (es : Entities) (id : EntityId) (e : Entity) : Entities := es.adjust id fun _ => e

/-- Replaces the hold of the entity of this name, if there is one. -/
def putHold (es : Entities) (id : EntityId) (h : Hold) : Entities := es.adjust id (·.withHold h)

/-- Changes the ship of this name, if there is one. -/
def adjustShip (es : Entities) (id : EntityId) (f : Ship → Ship) : Entities :=
  es.adjust id (·.mapShip f)

/-- Changes the deposit of this name, if there is one. -/
def adjustDeposit (es : Entities) (id : EntityId) (f : Deposit → Deposit) : Entities :=
  es.adjust id (·.mapDeposit f)

/-- Adds an entity, unless its name is taken. -/
def add (es : Entities) (e : Entity) : Except RegistryError Entities :=
  if es.contains e.id then .error (.duplicateId e.id.name)
  else .ok ⟨es.table.insert e.id e⟩

/-- Adds entities one after the other, unless a name is taken. -/
def addAll (es : Entities) : List Entity → Except RegistryError Entities
  | [] => .ok es
  | e :: rest => do (← es.add e).addAll rest

/-- Removes the entity of this name, if there is one. -/
def erase (es : Entities) (id : EntityId) : Entities := ⟨es.table.erase id⟩

/-- The announcement of an event to the listeners that its entity has now, if there are any. -/
def announcement? (es : Entities) (event : EntityEvent) : Option Announcement := do
  let e ← es.get? event.entity
  let events ← e.events?
  let subscriptions := events.subscriptions event.kind
  if subscriptions.isEmpty then none else some ⟨subscriptions, event⟩

/-- Replaces the listeners of the entity of this name, if it can have any. -/
def putEvents (es : Entities) (id : EntityId) (events : EventTable) : Entities :=
  es.adjust id (·.withEvents events)

end Entities

end Orrery
