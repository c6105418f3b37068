import Orrery.Decimal.Shortest

/-!
# Decimal layouts

How a selected decimal is laid out as text: positionally (`0.00012`, `1500.0`) or with an
exponent (`1.2e-6`).  A `Layout` collects the decisions of one output format; the formats of this
program are

* `Layout.message`: numbers within error messages, always positional, whole numbers without a
  fraction;
* `Layout.debug`: numbers within descriptions of records, positional from `1e-4` up to below
  `1e16`, always with a fraction there;
* `Layout.json`: numbers of JSON documents, positional from `1e-5` up to below `1e16`, always with
  a fraction there, the sign of an exponent always written.
-/

namespace Orrery

/-- The decisions that a text format makes about numbers. -/
structure Layout where
  /-- The least exponent of the leading digit that is written positionally; none means no bound. -/
  lowest : Option Int
  /-- The largest exponent of the leading digit that is written positionally; none means no
  bound. -/
  highest : Option Int
  /-- Whether a whole number written positionally ends in `.0`. -/
  pointZero : Bool
  /-- Whether a plus sign stands before an exponent that is not negative. -/
  plusSign : Bool
  /-- Which of two equally near decimals is written. -/
  tie : Decimal.Tie

namespace Layout

/-- Numbers within error messages. -/
def message : Layout where
  lowest := none
  highest := none
  pointZero := false
  plusSign := false
  tie := .upward

/-- Numbers within descriptions of records. -/
def debug : Layout where
  lowest := some (-4)
  highest := some 15
  pointZero := true
  plusSign := false
  tie := .upward

/-- Numbers of JSON documents. -/
def json : Layout where
  lowest := some (-5)
  highest := some 15
  pointZero := true
  plusSign := true
  tie := .toEven

/-- The decimal digits of a natural number. -/
def digitsOf (n : Nat) : List Char := Nat.toDigits 10 n

/-- The digits `ds`, the last of which has weight `10 ^ e`, with the point where it belongs. -/
def positional (pointZero : Bool) (ds : List Char) (e : Int) : List Char :=
  if 0 ≤ e then
    ds ++ List.replicate e.toNat '0' ++ (if pointZero then ['.', '0'] else [])
  else
    let places := (-e).toNat
    if places < ds.length then
      ds.take (ds.length - places) ++ '.' :: ds.drop (ds.length - places)
    else
      '0' :: '.' :: (List.replicate (places - ds.length) '0' ++ ds)

/-- The digits `ds` with the point after the first and the exponent `lead` of that digit. -/
def scientific (plusSign : Bool) (ds : List Char) (lead : Int) : List Char :=
  let fraction := ds.drop 1
  let sign := if lead < 0 then ['-'] else if plusSign then ['+'] else []
  ds.take 1 ++ (if fraction.isEmpty then [] else '.' :: fraction) ++
    'e' :: (sign ++ digitsOf lead.natAbs)

/-- The text of a decimal. -/
def ofDecimal (l : Layout) (d : Decimal) : List Char :=
  let ds := digitsOf d.digits
  let lead := d.exponent + ds.length - 1
  let plain := d.digits = 0 || (l.lowest.all (· ≤ lead) && l.highest.all (lead ≤ ·))
  if plain then positional l.pointZero ds d.exponent else scientific l.plusSign ds lead

/-- The text of a double. -/
def render (l : Layout) (x : Float) : List Char :=
  match Double.parts? x with
  | none => if x.isNaN then "NaN".toList else if x < 0.0 then "-inf".toList else "inf".toList
  | some p =>
    let d := if p.mantissa = 0 then ⟨0, 0⟩ else Decimal.shortest l.tie x.abs p.mantissa p.exponent
    (if p.negative then ['-'] else []) ++ l.ofDecimal d

/-- The text of a double, as a string. -/
def text (l : Layout) (x : Float) : String := String.ofList (l.render x)

end Layout

end Orrery
