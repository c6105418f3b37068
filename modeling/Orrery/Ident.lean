/-!
# Identifiers

Positions are numbered, entities and commands are named.  The three kinds of identifier are
different types, so that none can stand in for another.
-/

namespace Orrery

/-- Identifies a tracked position. -/
structure PositionId where
  number : UInt64
deriving DecidableEq, Repr

namespace PositionId

/-- The decimal number. -/
def text (id : PositionId) : String := toString id.number.toNat

instance : ToString PositionId := ⟨text⟩

/-- A source of identifiers that were not handed out before.  It starts above `2 ^ 32`, so that
small numbers stay free to be picked by hand. -/
structure Supply where
  /-- The number handed out next. -/
  next : UInt64 := 0x100000000
deriving DecidableEq, Repr

/-- Hands out one identifier. -/
def Supply.take (s : Supply) : PositionId × Supply := (⟨s.next⟩, ⟨s.next + 1⟩)

end PositionId

/-- Identifies an entity: a ship, a station, loot or a deposit. -/
structure EntityId where
  name : String
deriving DecidableEq, Repr

instance : ToString EntityId := ⟨EntityId.name⟩

/-- Identifies a scheduled command. -/
structure CommandId where
  name : String
deriving DecidableEq, Repr

instance : ToString CommandId := ⟨CommandId.name⟩

/-- The command of the given sort that `entity` drives.  An entity drives at most one command of
each sort, since identifiers are unique. -/
def CommandId.forEntity (sort : String) (entity : EntityId) : CommandId :=
  ⟨s!"{sort}-cmd-{entity.name}"⟩

end Orrery
