import Orrery.Document.Motion
import Orrery.Entity

/-!
# Documents of entities

The written form of holds and entities.  Listeners are not written, and an entity that is read has
none.  A hold is read as it is, even if it contains more than its capacity.
-/

namespace Orrery

open Json (Value)

namespace EntityId

/-- The written form of an identifier. -/
def document (id : EntityId) : Value := .ofString id.name

/-- Reads an identifier. -/
def ofDocument? (d : Value) : Option EntityId := d.string?.map EntityId.mk

end EntityId

/-- The written form of a count. -/
def Units.document (n : UInt32) : Value := .ofNat n.toNat

namespace Stack

/-- The written form of a stack. -/
def document (s : Stack) : Value :=
  .record [("material_id", .ofString s.material), ("quantity", Units.document s.quantity)]

/-- Reads a stack. -/
def ofDocument? (d : Value) : Option Stack := do
  let [material, quantity] ← d.fields? ["material_id", "quantity"] | none
  return ⟨← material.bind (·.string?), ← quantity.bind (·.word32?)⟩

end Stack

namespace Hold

/-- The written form of a hold. -/
def document (h : Hold) : Value :=
  .record [("capacity", Units.document h.capacity),
    ("resources", .record (h.amounts.entries.map fun e => (e.1, Units.document e.2)))]

/-- The stacks that a list of entries amounts to.  Of several entries for a material the last one
counts, in the place of the first one. -/
def stacksOf (entries : List (String × UInt32)) : Table String UInt32 :=
  entries.foldl (fun t e => t.insert e.1 e.2) {}

/-- Reads a hold. -/
def ofDocument? (d : Value) : Option Hold := do
  let [capacity, resources] ← d.fields? ["capacity", "resources"] | none
  return ⟨← capacity.bind (·.word32?), stacksOf (← resources.bind (Value.entries? (·.word32?)))⟩

end Hold

namespace Ship

/-- The fields of a ship. -/
def fields (s : Ship) : List (String × Value) :=
  [("id", s.id.document), ("user_id", .ofString s.user), ("system_id", .ofString s.system),
    ("position_id", s.position.document), ("hp", Units.document s.hp),
    ("shield_level", Units.document s.shield), ("damage_dealt", Units.document s.damage),
    ("attack_distance", .ofFloat s.attackDistance), ("mining_distance", .ofFloat s.miningDistance),
    ("mining_quantity", Units.document s.miningQuantity),
    ("transfer_distance", .ofFloat s.transferDistance), ("cargo", s.hold.document),
    ("attacking", .ofOption EntityId.document s.attacking),
    ("mining", .ofOption EntityId.document s.mining),
    ("destroyed_by", .ofOption EntityId.document s.destroyedBy)]

/-- Reads a ship, which then has no listeners. -/
def ofDocument? [Numeral.Reading] (d : Value) : Option Ship := do
  let [id, user, system, position, hp, shield, damage, attackDistance, miningDistance,
      miningQuantity, transferDistance, hold, attacking, mining, destroyedBy] ←
    d.fields? ["id", "user_id", "system_id", "position_id", "hp", "shield_level", "damage_dealt",
      "attack_distance", "mining_distance", "mining_quantity", "transfer_distance", "cargo",
      "attacking", "mining", "destroyed_by"] | none
  return {
    id := ← id.bind EntityId.ofDocument?
    user := ← user.bind (·.string?)
    system := ← system.bind (·.string?)
    position := ← position.bind PositionId.ofDocument?
    hp := ← hp.bind (·.word32?)
    shield := ← shield.bind (·.word32?)
    damage := ← damage.bind (·.word32?)
    attackDistance := ← attackDistance.bind (·.float?)
    miningDistance := ← miningDistance.bind (·.float?)
    miningQuantity := ← miningQuantity.bind (·.word32?)
    transferDistance := ← transferDistance.bind (·.float?)
    hold := ← hold.bind Hold.ofDocument?
    attacking := ← Value.optional? EntityId.ofDocument? attacking
    mining := ← Value.optional? EntityId.ofDocument? mining
    destroyedBy := ← Value.optional? EntityId.ofDocument? destroyedBy }

end Ship

namespace Station

/-- The fields of a station. -/
def fields (s : Station) : List (String × Value) :=
  [("id", s.id.document), ("user_id", .ofString s.user), ("system_id", .ofString s.system),
    ("position_id", s.position.document), ("transfer_distance", .ofFloat s.transferDistance),
    ("cargo", s.hold.document)]

/-- Reads a station, which then has no listeners. -/
def ofDocument? [Numeral.Reading] (d : Value) : Option Station := do
  let [id, user, system, position, distance, hold] ←
    d.fields? ["id", "user_id", "system_id", "position_id", "transfer_distance", "cargo"] | none
  return {
    id := ← id.bind EntityId.ofDocument?
    user := ← user.bind (·.string?)
    system := ← system.bind (·.string?)
    position := ← position.bind PositionId.ofDocument?
    transferDistance := ← distance.bind (·.float?)
    hold := ← hold.bind Hold.ofDocument? }

end Station

namespace Loot

/-- The fields of loot. -/
def fields (l : Loot) : List (String × Value) :=
  [("id", l.id.document), ("system_id", .ofString l.system), ("position_id", l.position.document),
    ("cargo", l.hold.document)]

/-- Reads loot. -/
def ofDocument? (d : Value) : Option Loot := do
  let [id, system, position, hold] ← d.fields? ["id", "system_id", "position_id", "cargo"] | none
  return ⟨← id.bind EntityId.ofDocument?, ← system.bind (·.string?),
    ← position.bind PositionId.ofDocument?, ← hold.bind Hold.ofDocument?⟩

end Loot

namespace Deposit

/-- The fields of a deposit. -/
def fields (d : Deposit) : List (String × Value) :=
  [("id", d.id.document), ("system_id", .ofString d.system), ("position_id", d.position.document),
    ("material_id", .ofString d.material), ("quantity", Units.document d.quantity)]

/-- Reads a deposit. -/
def ofDocument? (d : Value) : Option Deposit := do
  let [id, system, position, material, quantity] ←
    d.fields? ["id", "system_id", "position_id", "material_id", "quantity"] | none
  return ⟨← id.bind EntityId.ofDocument?, ← system.bind (·.string?),
    ← position.bind PositionId.ofDocument?, ← material.bind (·.string?),
    ← quantity.bind (·.word32?)⟩

end Deposit

namespace Entity

/-- The fields of an entity beside the tag that names its kind. -/
def fields : Entity → List (String × Value)
  | ship s => s.fields
  | station s => s.fields
  | loot l => l.fields
  | deposit d => d.fields

/-- The written form of an entity. -/
def document (e : Entity) : Value := .record (("kind", .ofString e.kind) :: e.fields)

/-- Reads an entity. -/
def ofDocument? [Numeral.Reading] (room : Nat) (d : Value) : Option Entity := do
  let (kind, d) ← d.tagged? "kind" room
  match kind with
  | "ship" => ship <$> Ship.ofDocument? d
  | "station" => station <$> Station.ofDocument? d
  | "loot" => loot <$> Loot.ofDocument? d
  | "deposit" => deposit <$> Deposit.ofDocument? d
  | _ => none

end Entity

end Orrery
