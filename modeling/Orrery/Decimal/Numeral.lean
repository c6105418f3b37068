import Orrery.Decimal

/-!
# Numerals

A numeral is a decimal number as it is written in JSON: an optional minus sign, an integer part
without leading zeros, an optional fraction and an optional exponent.  `Numeral.parse?` reads
one from the characters of a text and accepts nothing else.

The magnitude is a `Decimal`, with the sign kept apart, so that minus zero is not lost.  Its digits
are those that fit in a word of 64 bits.  Further ones are dropped; before the point they still
raise the weight of the digits that are kept.

Which double a numeral stands for is up to a `Numeral.Reading`.  The program's own one is quick and
may miss the nearest double (`Numeral.float?`); statements about documents speak of any.
-/

namespace Orrery

/-- A number as it is written. -/
structure Numeral where
  /-- Whether it starts with a minus sign. -/
  negative : Bool
  /-- The number without its sign. -/
  magnitude : Decimal
  /-- Whether it has neither a fraction nor an exponent. -/
  integral : Bool
deriving DecidableEq, Repr

namespace Numeral

/-- The value of a decimal digit. -/
def digitValue (c : Char) : Nat := c.toNat - '0'.toNat

/-- The number that a sequence of decimal digits stands for. -/
def digitsValue (cs : List Char) : Nat := cs.foldl (fun n c => 10 * n + digitValue c) 0

/-- Appends decimal digits to the number `n` up to the first one with which it would not fit in a
word of 64 bits.  Returns the number and how many digits are left over. -/
def appendDigits (n : Nat) : List Char → Nat × Nat
  | [] => (n, 0)
  | c :: rest =>
    let longer := 10 * n + digitValue c
    if longer < UInt64.size then appendDigits longer rest else (n, rest.length + 1)

/-- The decimal with the given digits before and after the point, times `10 ^ e`. -/
def decimalOf (whole fraction : List Char) (e : Int) : Decimal :=
  let (n, dropped) := appendDigits 0 whole
  let (n, rest) := appendDigits n fraction
  ⟨n, e + dropped - (fraction.length - rest : Nat)⟩

/-- The exponent part: `e` or `E`, an optional sign and at least one digit; nothing at all is the
exponent zero. -/
def exponentPart? : List Char → Option Int
  | [] => some 0
  | mark :: rest =>
    if mark == 'e' || mark == 'E' then
      let negative := rest.head? == some '-'
      let digits := if negative || rest.head? == some '+' then rest.tail else rest
      if digits.isEmpty || !digits.all Char.isDigit then none
      else
        let size : Int := digitsValue digits
        some (if negative then -size else size)
    else none

/-- Reads a numeral that takes up the whole text. -/
def parse? (text : List Char) : Option Numeral :=
  let negative := text.head? == some '-'
  let body := if negative then text.tail else text
  let whole := body.takeWhile Char.isDigit
  let rest := body.dropWhile Char.isDigit
  if whole.isEmpty || (whole.head? == some '0' && whole.length != 1) then none
  else
    match rest with
    | [] => some ⟨negative, decimalOf whole [] 0, true⟩
    | '.' :: more =>
      let fraction := more.takeWhile Char.isDigit
      if fraction.isEmpty then none
      else do
        let e ← exponentPart? (more.dropWhile Char.isDigit)
        some ⟨negative, decimalOf whole fraction e, false⟩
    | _ => do
      let e ← exponentPart? rest
      some ⟨negative, decimalOf whole [] e, false⟩

/-- The natural number that an unsigned integral numeral stands for, if it fits in a word of 64
bits. -/
def nat? (n : Numeral) : Option Nat :=
  if n.integral && !n.negative && n.magnitude.exponent = 0 then some n.magnitude.digits else none

/-- The double that the numeral stands for; none if it is out of range. -/
def float? (n : Numeral) : Option Float :=
  n.magnitude.scaled?.map fun x => if n.negative then -x else x

/-- A way to read doubles. -/
class Reading where
  /-- The double that a numeral stands for; none if it is out of range. -/
  double? : Numeral → Option Float

instance : Reading := ⟨float?⟩

end Numeral

end Orrery
