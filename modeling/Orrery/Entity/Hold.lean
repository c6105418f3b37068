import Orrery.Table
import Orrery.Units

/-!
# Holds

A hold carries stacks of materials, in the order in which the materials first arrived, up to a
capacity.  Material is added only if it fits and removed only if it is there; a refusal changes
nothing.  A hold may contain more than its capacity, for instance if the capacity was lowered; then
nothing fits.
-/

namespace Orrery

/-- An amount of one material. -/
structure Stack where
  material : String
  /-- How many units of it. -/
  quantity : UInt32
deriving DecidableEq, Repr

/-- A space for materials. -/
structure Hold where
  /-- How many units fit in all. -/
  capacity : UInt32
  /-- Units by material, in the order of arrival. -/
  amounts : Table String UInt32 := {}
deriving DecidableEq

/-- Why a hold refuses. -/
inductive HoldFault where
  | doesNotFit (quantity : UInt32) (material : String) (free : UInt32)
  | tooLittle (held : UInt32) (material : String) (needed : UInt32)
deriving DecidableEq, Repr

/-- The fault in words. -/
def HoldFault.text : HoldFault → String
  | doesNotFit quantity material free => s!"{quantity} {material} exceeds free capacity {free}"
  | tooLittle held material needed => s!"holds {held} {material}, needs {needed}"

namespace Hold

/-- Units held in all, or the largest count if there are more. -/
def total (h : Hold) : UInt32 := Units.total h.amounts.values

/-- Units that still fit. -/
def free (h : Hold) : UInt32 := Units.minus h.capacity h.total

/-- Whether no unit is held. -/
def isEmpty (h : Hold) : Bool := h.total == 0

/-- Units of one material. -/
def quantityOf (h : Hold) (material : String) : UInt32 := (h.amounts.get? material).getD 0

/-- Whether this many more units fit. -/
def canAccept (h : Hold) (quantity : UInt32) : Bool := quantity ≤ h.free

/-- The stacks, in the order of arrival. -/
def contents (h : Hold) : List Stack := h.amounts.entries.map fun e => ⟨e.1, e.2⟩

/-- Adds material, if it fits. -/
def add (h : Hold) (material : String) (quantity : UInt32) : Except HoldFault Hold :=
  if h.canAccept quantity then
    .ok { h with amounts := h.amounts.insert material (h.quantityOf material + quantity) }
  else .error (.doesNotFit quantity material h.free)

/-- Removes material, if there is enough.  A stack that becomes empty disappears. -/
def remove (h : Hold) (material : String) (quantity : UInt32) : Except HoldFault Hold :=
  let held := h.quantityOf material
  if held < quantity then .error (.tooLittle held material quantity)
  else if held = quantity then .ok { h with amounts := h.amounts.erase material }
  else .ok { h with amounts := h.amounts.modify material (· - quantity) }

/-- Removes everything. -/
def emptied (h : Hold) : Hold := { h with amounts := {} }

/-- Adds stacks one after the other up to the first one that does not fit, and tells why that one
does not. -/
def addAll (h : Hold) : List Stack → Hold × Option HoldFault
  | [] => (h, none)
  | s :: rest =>
    match h.add s.material s.quantity with
    | .ok h => h.addAll rest
    | .error f => (h, some f)

end Hold

end Orrery
