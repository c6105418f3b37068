import Orrery.Ident
import Orrery.Listener
import Orrery.Table

/-!
# Entity events

An `EntityEvent` tells one entity's listeners what happened to it.  Each entity that has listeners
keeps them in an `EventTable`, by kind of event and in the order of registration.
-/

namespace Orrery

/-- The kinds of entity events. -/
inductive EventKind where
  /-- The entity hit another one. -/
  | attacked
  /-- The entity was hit. -/
  | defended
  | attackedStop
  /-- The entity is no longer under attack. -/
  | defendedStop
  /-- The entity was destroyed by another one. -/
  | destroyedBy
  /-- The entity collected material from a deposit. -/
  | resourceCollected
  | miningStopped
  /-- The entity handed material over to another one. -/
  | transferredTo
  /-- The entity took material over from another one. -/
  | transferredFrom
deriving DecidableEq, Repr

namespace EventKind

/-- All kinds. -/
def all : List EventKind :=
  [attacked, defended, attackedStop, defendedStop, destroyedBy, resourceCollected, miningStopped,
    transferredTo, transferredFrom]

/-- The name of a kind in announcements. -/
def text : EventKind → String
  | attacked => "attacked"
  | defended => "defended"
  | attackedStop => "attacked_stop"
  | defendedStop => "defended_stop"
  | destroyedBy => "destroyed_by"
  | resourceCollected => "resource_collected"
  | miningStopped => "mining_stopped"
  | transferredTo => "transferred_to"
  | transferredFrom => "transferred_from"

/-- The name of a kind in documents. -/
def documentName : EventKind → String
  | attacked => "Attacked"
  | defended => "Defended"
  | attackedStop => "AttackedStop"
  | defendedStop => "DefendedStop"
  | destroyedBy => "DestroyedBy"
  | resourceCollected => "ResourceCollected"
  | miningStopped => "MiningStopped"
  | transferredTo => "TransferredTo"
  | transferredFrom => "TransferredFrom"

end EventKind

/-- What an event carries beside the entities involved. -/
inductive EventPayload where
  | none
  /-- An amount of material that changed hands. -/
  | resource (material : String) (quantity : UInt32)
  /-- Why something ended. -/
  | reason (text : String)
deriving DecidableEq, Repr

/-- Something that happened to an entity. -/
structure EntityEvent where
  kind : EventKind
  /-- The entity whose listeners are told. -/
  entity : EntityId
  /-- The counterpart, if there is one. -/
  other : Option EntityId
  payload : EventPayload := .none
deriving DecidableEq, Repr

/-- A listener and the subscriber that registered it. -/
structure Subscription where
  /-- Who registered the listener. -/
  subscriber : String
  listener : ListenerId
deriving DecidableEq, Repr

/-- The listeners of one entity by kind of event. -/
structure EventTable where
  /-- The subscriptions to each kind, in the order of registration. -/
  table : Table EventKind (List Subscription) := {}
deriving DecidableEq

namespace EventTable

/-- The subscriptions to a kind of event, in the order of registration. -/
def subscriptions (t : EventTable) (kind : EventKind) : List Subscription :=
  (t.table.get? kind).getD []

/-- Adds a subscription. -/
def subscribe (t : EventTable) (kind : EventKind) (s : Subscription) : EventTable :=
  ⟨t.table.insert kind (t.subscriptions kind ++ [s])⟩

/-- Drops the subscriptions of a subscriber to one kind of event; also tells how many there were. -/
def dropKind (t : EventTable) (kind : EventKind) (subscriber : String) : Nat × EventTable :=
  ((t.subscriptions kind).countP (·.subscriber == subscriber),
    ⟨t.table.modify kind (·.filter (·.subscriber != subscriber))⟩)

/-- Drops all subscriptions of a subscriber; also tells how many there were. -/
def unsubscribe (t : EventTable) (subscriber : String) : Nat × EventTable :=
  (t.table.values.flatten.countP (·.subscriber == subscriber),
    ⟨t.table.map fun _ ss => ss.filter (·.subscriber != subscriber)⟩)

/-- Number of subscriptions. -/
def size (t : EventTable) : Nat := t.table.values.flatten.length

/-- Whether there is no subscription. -/
def isEmpty (t : EventTable) : Bool := t.size == 0

end EventTable

/-- What the listeners of one event answered. -/
structure DispatchReport where
  /-- Listeners that handled the event. -/
  delivered : Nat
  failed : Nat
  /-- Subscribers that were revoked, each once. -/
  revoked : List String
deriving DecidableEq, Repr

/-- The report on some answers. -/
def DispatchReport.ofReplies (replies : List Reply) : DispatchReport where
  delivered := replies.countP Reply.isOk
  failed := replies.countP Reply.isFailure
  revoked := (replies.filterMap Reply.revoked?).eraseDups

/-- Notifies subscriptions of an event, in order. -/
def dispatch {σ : Type} (notify : ListenerId → EntityEvent → σ → Reply × σ)
    (subscriptions : List Subscription) (event : EntityEvent) (s : σ) : DispatchReport × σ :=
  let (replies, s) := askAll (fun sub => notify sub.listener event) subscriptions s
  (.ofReplies replies, s)

end Orrery
