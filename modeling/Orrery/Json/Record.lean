import Orrery.Decimal.Layout
import Orrery.Json.Value

/-!
# Records in JSON

How the parts of a document are written as JSON values and read off them.

A record is written as an object with its fields in order.  It may be read from such an object, with
the fields in any order and others among them, or from an array of the values of all its fields.  An
optional field is written as null where there is nothing, and may be missing.

A tagged record is one of several kinds of record, and the field of a certain name tells which
(`tagged?`).  It is kept as a whole before it is read, so every part of it has to make sense
(`isSound`), known or not.
-/

namespace Orrery.Json.Value

/-! ### Writing -/

/-- A number; null if it is not finite. -/
def ofFloat (x : Float) : Value := if x.isFinite then num (Layout.json.render x) else null

/-- A natural number. -/
def ofNat (n : Nat) : Value := num (Layout.digitsOf n)

/-- A string. -/
def ofString (s : String) : Value := str ⟨s, true⟩

/-- Something, or null for nothing. -/
def ofOption {α : Type} (write : α → Value) : Option α → Value
  | none => null
  | some a => write a

/-- A list of things. -/
def ofList {α : Type} (write : α → Value) (items : List α) : Value := arr (items.map write)

/-- An object. -/
def record (fields : List (String × Value)) : Value := obj (fields.map fun f => (⟨f.1, true⟩, f.2))

/-! ### Reading -/

/-- A floating-point number within range. -/
def float? [Numeral.Reading] : Value → Option Float
  | num cs => (Numeral.parse? cs).bind Numeral.Reading.double?
  | _ => none

/-- A natural number below `bound`, written without a fraction or exponent. -/
def natBelow? (bound : Nat) : Value → Option Nat
  | num cs => ((Numeral.parse? cs).bind Numeral.nat?).filter (· < bound)
  | _ => none

/-- A 32-bit word. -/
def word32? (v : Value) : Option UInt32 := (v.natBelow? UInt32.size).map UInt32.ofNat

/-- A 64-bit word. -/
def word64? (v : Value) : Option UInt64 := (v.natBelow? UInt64.size).map UInt64.ofNat

/-- A truth value. -/
def bool? : Value → Option Bool
  | bool b => some b
  | _ => none

/-- A string of which nothing is missing. -/
def string? : Value → Option String
  | str t => if t.whole then some t.content else none
  | _ => none

/-- An array of things. -/
def list? {α : Type} (read : Value → Option α) : Value → Option (List α)
  | arr items => items.mapM read
  | _ => none

/-- An optional field: nothing if it is missing or null. -/
def optional? {α : Type} (read : Value → Option α) : Option Value → Option (Option α)
  | none => some none
  | some null => some none
  | some v => (read v).map some

/-- The entries of an object, in order. -/
def entries? {α : Type} (read : Value → Option α) : Value → Option (List (String × α))
  | obj fields => fields.mapM fun (key, v) => do return (← (str key).string?, ← read v)
  | _ => none

/-- The fields of the given names, where they are present.  No field of these names may be
repeated.  In an array all of them have to be present. -/
def fields? (names : List String) : Value → Option (List (Option Value))
  | arr items => if items.length = names.length then some (items.map some) else none
  | obj fields =>
    if fields.all (·.1.whole) && names.all fun n => fields.countP (·.1.content = n) ≤ 1 then
      some (names.map fun n => (fields.find? (·.1.content = n)).map (·.2))
    else none
  | _ => none

/-- Whether everything in a value makes sense, whatever it is meant for: numbers are within range,
nothing is missing from strings, and no more than `room` arrays and objects are open at once. -/
def isSound [Numeral.Reading] : Nat → Value → Bool
  | _, null => true
  | _, bool _ => true
  | _, v@(num _) => v.word64?.isSome || v.float?.isSome
  | _, str t => t.whole
  | 0, arr _ => false
  | 0, obj _ => false
  | room + 1, arr items => items.all (isSound room)
  | room + 1, obj fields => fields.all fun f => f.1.whole && isSound room f.2

/-- The deepest nesting of arrays and objects in a document, where its parts are kept as a whole. -/
def maxDepth : Nat := 127

/-- The kind of a tagged record that has room for so many levels of nesting, and the record without
its tag.  In an array the tag comes first. -/
def tagged? [Numeral.Reading] (tag : String) (room : Nat) (v : Value) : Option (String × Value) :=
  if !v.isSound room then none
  else
    match v with
    | obj fields =>
      match fields.partition (·.1.content = tag) with
      | ([(_, str kind)], rest) => some (kind.content, obj rest)
      | _ => none
    | arr (str kind :: rest) => some (kind.content, arr rest)
    | _ => none

/-- The name of a thing without fields: a string, or an object with that name and null. -/
def name? : Value → Option String
  | obj [(key, null)] => (str key).string?
  | v => v.string?

/-- Like `name?` within a tagged record, where an empty object does as well as null. -/
def taggedName? : Value → Option String
  | obj [(key, obj [])] => (str key).string?
  | v => v.name?

/-- The thing of a given name among several. -/
def oneOf? {α : Type} (things : List α) (nameOf : α → String) (name : String) : Option α :=
  things.find? fun a => nameOf a = name

end Orrery.Json.Value
