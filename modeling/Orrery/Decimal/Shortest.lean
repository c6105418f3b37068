import Orrery.Decimal
import Orrery.Double.Parts

/-!
# Shortest decimals

`shortest` selects, for a positive double, the decimal with the fewest digits that reads back as
the same double, and of several the one nearest to it.  The search goes through the grids of
decimals with one, two, … seventeen significant digits and tests on each the two neighbours of
the exact value.  If none read back, the exact value itself would be written.

The only choice left open is an exact tie between the two neighbours; `Tie` settles it.
-/

namespace Orrery.Decimal

/-- Which of two equally near decimals is taken. -/
inductive Tie where
  /-- The one whose last digit is even. -/
  | toEven
  | upward
deriving DecidableEq, Repr

/-- A positive rational number `numerator / denominator`. -/
structure Ratio where
  num : Nat
  den : Nat
deriving DecidableEq, Repr

/-- The quotient of `m * 2 ^ q` by `10 ^ g`. -/
def inUnitsOf (m : Nat) (q g : Int) : Ratio :=
  ⟨m * Nat.pow 2 q.toNat * Nat.pow 10 (-g).toNat, Nat.pow 2 (-q).toNat * Nat.pow 10 g.toNat⟩

/-- The least `k`, among an estimate and its two successors, with `m * 2 ^ q < 10 ^ k`.  The
estimate never exceeds the number of digits before the point. -/
def leadingExponent (m : Nat) (q : Int) : Int :=
  let estimate := (m.log2 + q) * 30103 / 100000
  let below (k : Int) : Bool :=
    let r := inUnitsOf m q k
    r.num < r.den
  if below estimate then estimate
  else if below (estimate + 1) then estimate + 1
  else estimate + 2

/-- Drops trailing zeros of the digits, at most `fuel` of them. -/
def stripZeros : Nat → Decimal → Decimal
  | 0, d => d
  | fuel + 1, d =>
    if d.digits % 10 = 0 ∧ d.digits ≠ 0 then stripZeros fuel ⟨d.digits / 10, d.exponent + 1⟩
    else d

/-- Of the two neighbours of `m * 2 ^ q` on the grid of multiples of `10 ^ g`, the nearer one that
reads back as `x`. -/
def onGrid? (tie : Tie) (x : Float) (m : Nat) (q g : Int) : Option Decimal :=
  let r := inUnitsOf m q g
  let lower := r.num / r.den
  let rest := r.num % r.den
  let readsBack (n : Nat) : Bool := (Decimal.toFloat ⟨n, g⟩).toBits == x.toBits
  let upperFirst :=
    r.den < 2 * rest || (2 * rest == r.den && (tie == .upward || lower % 2 == 1))
  let first := if upperFirst then lower + 1 else lower
  let second := if upperFirst then lower else lower + 1
  if readsBack first then some ⟨first, g⟩
  else if readsBack second then some ⟨second, g⟩
  else none

/-- The number `m * 2 ^ q` written out in full. -/
def exact (m : Nat) (q : Int) : Decimal :=
  if 0 ≤ q then ⟨m * Nat.pow 2 q.toNat, 0⟩ else ⟨m * Nat.pow 5 (-q).toNat, q⟩

/-- The decimal with the fewest digits that reads back as the positive double `x`, whose value is
`m * 2 ^ q`. -/
def shortest (tie : Tie) (x : Float) (m : Nat) (q : Int) : Decimal :=
  let k := leadingExponent m q
  let found := (List.range 17).findSome? fun (n : Nat) => onGrid? tie x m q (k - (n + 1))
  stripZeros 17 (found.getD (exact m q))

end Orrery.Decimal
