/-!
# The parts of a double

A finite binary64 number is `± mantissa * 2 ^ exponent` with natural `mantissa`.  `parts?` reads
these off the bits and `Parts.toFloat` puts them together again.  Exact operations that the
hardware interface does not offer (`Orrery.Double.remainder`, the selection of decimal digits)
are computed on the parts with integers.
-/

namespace Orrery.Double

/-- The number `± mantissa * 2 ^ exponent`. -/
structure Parts where
  /-- Whether the sign bit is set; zero has a sign as well. -/
  negative : Bool
  /-- The significand as a natural number. -/
  mantissa : Nat
  /-- The weight of the last bit of the significand. -/
  exponent : Int
deriving DecidableEq, Repr

/-- Whether the sign bit is set. -/
def isNegative (x : Float) : Bool := x.toBits >>> 63 == 1

/-- The leading bit of the significand of a normal number, which its bits do not spell out:
`2 ^ 52`. -/
def hiddenBit : Nat := 0x10000000000000

/-- The parts of a finite number; there are none for an infinity or an undefined number. -/
def parts? (x : Float) : Option Parts :=
  let bits := x.toBits
  let field := ((bits >>> 52) &&& 0x7FF).toNat
  let fraction := (bits &&& 0xFFFFFFFFFFFFF).toNat
  if field = 0x7FF then none
  else if field = 0 then some ⟨isNegative x, fraction, -1074⟩
  else some ⟨isNegative x, hiddenBit + fraction, field - 1075⟩

/-- `m * 2 ^ k`, dropping the bits that fall below the point. -/
def scaleNat (m : Nat) (k : Int) : Nat :=
  if 0 ≤ k then m <<< k.toNat else m >>> (-k).toNat

/-- The double with the given parts.  It is exact whenever a double of that value exists, and
otherwise drops the bits that do not fit. -/
def Parts.toFloat (p : Parts) : Float :=
  let sign : UInt64 := if p.negative then 0x8000000000000000 else 0
  if p.mantissa = 0 then Float.ofBits sign
  else
    let leading := p.mantissa.log2 + p.exponent
    if 1023 < leading then Float.ofBits (sign ||| 0x7FF0000000000000)
    else if leading < -1022 then
      Float.ofBits (sign ||| (scaleNat p.mantissa (p.exponent + 1074)).toUInt64)
    else
      let significand := scaleNat p.mantissa (52 - p.mantissa.log2)
      Float.ofBits
        (sign ||| ((leading + 1023).toNat.toUInt64 <<< 52) ||| (significand - hiddenBit).toUInt64)

end Orrery.Double
