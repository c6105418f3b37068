import Mathlib.Algebra.GroupWithZero.Nat
import Orrery.Units

/-!
# Units as natural numbers

The saturating operations on counts, in terms of natural numbers: `plus` and `total` stop at
`2 ^ 32 - 1`, and `minus` is the subtraction of natural numbers.
-/

namespace Orrery.Units

theorem toNat_minus (a b : UInt32) : (minus a b).toNat = a.toNat - b.toNat := by
  unfold minus
  split
  · next h => exact UInt32.toNat_sub_of_le _ _ h
  · next h =>
    rw [UInt32.le_iff_toNat_le] at h
    rw [UInt32.toNat_zero]
    omega

theorem toNat_plus (a b : UInt32) : (plus a b).toNat = min (a.toNat + b.toNat) (2 ^ 32 - 1) := by
  have ha := a.toNat_lt
  have hb := b.toNat_lt
  -- the test is whether `a` is at most what `b` leaves of the range
  have hroom : (largest - b).toNat = 2 ^ 32 - 1 - b.toNat :=
    UInt32.toNat_sub_of_le _ _ (UInt32.le_iff_toNat_le.mpr (Nat.le_of_lt_succ hb))
  unfold plus
  simp only [UInt32.le_iff_toNat_le, hroom]
  split
  · next h =>
    rw [UInt32.toNat_add]
    omega
  · next h =>
    have hlargest : largest.toNat = 2 ^ 32 - 1 := rfl
    omega

theorem toNat_least (a b : UInt32) : (least a b).toNat = min a.toNat b.toNat := by
  unfold least
  simp only [UInt32.le_iff_toNat_le]
  split <;> omega

theorem toNat_greatest (a b : UInt32) : (greatest a b).toNat = max a.toNat b.toNat := by
  unfold greatest
  simp only [UInt32.le_iff_toNat_le]
  split <;> omega

/-- The sum of a list of counts as natural numbers. -/
def sum (counts : List UInt32) : Nat := (counts.map UInt32.toNat).sum

@[simp] theorem sum_nil : sum [] = 0 := rfl

@[simp] theorem sum_cons (a : UInt32) (counts : List UInt32) :
    sum (a :: counts) = a.toNat + sum counts := List.sum_cons

theorem toNat_foldl_plus (a : UInt32) (counts : List UInt32) :
    (counts.foldl plus a).toNat = min (a.toNat + sum counts) (2 ^ 32 - 1) := by
  induction counts generalizing a with
  | nil =>
    have ha := a.toNat_lt
    rw [List.foldl_nil, sum_nil]
    omega
  | cons b counts ih =>
    rw [List.foldl_cons, ih, toNat_plus, sum_cons]
    omega

/-- A total is the sum, or the largest count if the sum exceeds it. -/
theorem toNat_total (counts : List UInt32) :
    (total counts).toNat = min (sum counts) (2 ^ 32 - 1) := by
  unfold total
  rw [toNat_foldl_plus, UInt32.toNat_zero, Nat.zero_add]

end Orrery.Units
