import Orrery.Proofs.Arithmetic

/-!
# Rounding to the nearest

What is rounded becomes one of the doubles that are nearest to it.  A mantissa goes down unless more
than half of a unit is cut off, and up unless less than half of one is
(`Double.roundedMantissa_nearest`), so no other number of units is nearer, and neither is a double
that counts in other units (`Double.abs_firstRounded_sub_le_canonical`).

So no double is nearer to an exact sum than the computed one (`Double.add_nearest`), and none is
between the two: a sum is at least what it was added to, if the other summand is not below zero, and
at most that, if it is not above zero (`Double.add_brackets`).
-/

namespace Orrery.Double

open Float.Model (UnpackedFloat Format totalExponent)
open Float.Model.UnpackedFloat

/-! ### Digits that are cut off -/

section Nearest

variable {m : Nat} {e : Int}

theorem mod_two_pow_succ (m j : Nat) :
    m % 2 ^ (j + 1) = m % 2 ^ j + 2 ^ j * (m / 2 ^ j % 2) := by
  rw [Nat.pow_succ, Nat.mod_mul]

/-- The residue of shifting: the first digit that is shifted away, and whether any other one is. -/
theorem shiftRight_succ (m j : Nat) :
    (⟨m, false, false⟩ : ExtendedMantissa) >>> (j + 1) =
      ⟨m / 2 ^ (j + 1), m / 2 ^ j % 2 != 0, m % 2 ^ j != 0⟩ := by
  induction j with
  | zero => simp [HShiftRight.hShiftRight, Nat.repeat, ExtendedMantissa.shiftRightOne, Nat.mod_one]
  | succ j ih =>
    show ((⟨m, false, false⟩ : ExtendedMantissa) >>> (j + 1)).shiftRightOne = _
    have hsticky : (m / 2 ^ j % 2 != 0 || m % 2 ^ j != 0) = (m % 2 ^ (j + 1) != 0) := by
      have hpow : 0 < 2 ^ j := by positivity
      rw [mod_two_pow_succ, Bool.eq_iff_iff]
      rcases Nat.mod_two_eq_zero_or_one (m / 2 ^ j) with h | h <;> simp [h]
    rw [ih, ExtendedMantissa.shiftRightOne, Nat.div_div_eq_div_mul, ← Nat.pow_succ, hsticky]

/-- What is rounded goes down unless more than half of the unit is cut off, and up unless less
than that is. -/
theorem roundedMantissa_nearest (m k : Nat) :
    let n := ((⟨m, false, false⟩ : ExtendedMantissa) >>> k).roundedMantissa
    (n = m / 2 ^ k ∧ 2 * (m % 2 ^ k) ≤ 2 ^ k) ∨ (n = m / 2 ^ k + 1 ∧ 2 ^ k ≤ 2 * (m % 2 ^ k)) := by
  cases k with
  | zero => exact .inl ⟨(Nat.div_one m).symm, by simp [Nat.mod_one]⟩
  | succ j =>
    have hlt : m % 2 ^ j < 2 ^ j := Nat.mod_lt _ (by positivity)
    have hpow : 2 ^ (j + 1) = 2 ^ j * 2 := Nat.pow_succ ..
    rw [shiftRight_succ, mod_two_pow_succ]
    rcases Nat.mod_two_eq_zero_or_one (m / 2 ^ j) with hround | hround <;>
      by_cases hsticky : m % 2 ^ j = 0
    · rw [hround, hsticky]
      exact .inl ⟨rfl, by simp⟩
    · have hbit : (m % 2 ^ j != 0) = true := bne_iff_ne.mpr hsticky
      rw [hround, hbit]
      exact .inl ⟨rfl, by omega⟩
    · -- a tie goes to the even one of both
      rw [hround, hsticky]
      rcases Nat.mod_two_eq_zero_or_one (m / 2 ^ (j + 1)) with heven | hodd
      · exact .inl ⟨congrArg _ heven, by omega⟩
      · exact .inr ⟨congrArg _ hodd, by omega⟩
    · have hbit : (m % 2 ^ j != 0) = true := bne_iff_ne.mpr hsticky
      rw [hround, hbit]
      exact .inr ⟨rfl, by omega⟩

/-- No other number of units is nearer. -/
theorem abs_firstRounded_sub_le_abs (m : Nat) (e : Int) (n : Nat) :
    |(firstRounded m e .exact * 2 ^ (goal m e - e).toNat : ℚ) - m| ≤
      |(n * 2 ^ (goal m e - e).toNat : ℚ) - m| := by
  have hnearest := roundedMantissa_nearest m (goal m e - e).toNat
  unfold firstRounded
  rw [ExtendedMantissa.ofMantissaAndAccuracy]
  generalize ((⟨m, false, false⟩ : ExtendedMantissa) >>> (goal m e - e).toNat).roundedMantissa = r
    at *
  generalize (goal m e - e).toNat = k at *
  have hm : (2 ^ k * (m / 2 ^ k : ℕ) + (m % 2 ^ k : ℕ) : ℚ) = m := by
    exact_mod_cast Nat.div_add_mod m (2 ^ k)
  have hlow := le_abs_self ((n * 2 ^ k : ℚ) - m)
  have hhigh := neg_abs_le ((n * 2 ^ k : ℚ) - m)
  have hrem : (0 : ℚ) ≤ (m % 2 ^ k : ℕ) := Nat.cast_nonneg _
  have hlt : ((m % 2 ^ k : ℕ) : ℚ) < 2 ^ k := by exact_mod_cast Nat.mod_lt m (by positivity)
  have hside : (n * 2 ^ k : ℚ) ≤ (m / 2 ^ k : ℕ) * 2 ^ k ∨
      ((m / 2 ^ k : ℕ) + 1) * 2 ^ k ≤ (n * 2 ^ k : ℚ) := by
    rcases Nat.lt_or_ge (m / 2 ^ k) n with h | h
    · right
      gcongr
      exact_mod_cast h
    · left
      gcongr
  rw [abs_le]
  rcases hnearest with ⟨rfl, hhalf⟩ | ⟨rfl, hhalf⟩
  · have hhalf : (2 * (m % 2 ^ k : ℕ) : ℚ) ≤ 2 ^ k := by exact_mod_cast hhalf
    rcases hside with h | h <;> constructor <;> linarith
  · have hhalf : (2 ^ k : ℚ) ≤ 2 * (m % 2 ^ k : ℕ) := by exact_mod_cast hhalf
    push_cast
    rcases hside with h | h <;> constructor <;> linarith

/-! ### Units -/

variable {s : Sign} {n : Nat} {f : Int} {hn : 0 < n}

/-- Larger units, in smaller ones. -/
theorem two_zpow_eq {goal : Int} (h : goal ≤ f) :
    (2 : ℚ) ^ f = 2 ^ (f - goal).toNat * 2 ^ goal := by
  rw [← zpow_natCast, ← zpow_add₀ two_ne_zero]
  congr 1
  omega

/-- A double that counts in larger units than those of the last digit, in these units. -/
theorem exists_units {goal : Int} (h : goal ≤ f) :
    ∃ k : Nat, (n : ℚ) * 2 ^ f = (k : ℚ) * 2 ^ goal := by
  refine ⟨n * 2 ^ (f - goal).toNat, ?_⟩
  push_cast
  rw [two_zpow_eq h, mul_assoc]

/-- What is to be rounded, in units of the last digit before the rounding. -/
theorem mul_units_eq (he : e ≤ goal m e) (k : Nat) :
    (k : ℚ) * 2 ^ goal m e = (k * 2 ^ (goal m e - e).toNat : ℕ) * 2 ^ e := by
  push_cast
  rw [two_zpow_eq he, mul_assoc]

/-- A double that is counted in smaller units than those of the last digit has fewer of them than a
number with all its digits. -/
theorem canonical_lt_two_zpow (hu : IsCanonical (.finite s n f hn)) {goal : Int} (h : f < goal) :
    (n : ℚ) * 2 ^ f < 2 ^ (goal + 52) := by
  have hn : (n : ℚ) < 2 ^ 53 := by exact_mod_cast hu.1
  calc (n : ℚ) * 2 ^ f < 2 ^ 53 * 2 ^ f := by gcongr
    _ = 2 ^ (f + 53) := by rw [zpow_add₀ two_ne_zero, mul_comm]; rfl
    _ ≤ 2 ^ (goal + 52) := zpow_le_zpow_right₀ one_le_two (by omega)

theorem abs_firstRounded_sub_le_units (he : e ≤ goal m e) (n : Nat) :
    |(firstRounded m e .exact : ℚ) * 2 ^ goal m e - m * 2 ^ e| ≤
      |(n : ℚ) * 2 ^ goal m e - m * 2 ^ e| := by
  rw [mul_units_eq he, mul_units_eq he, ← sub_mul, ← sub_mul, abs_mul, abs_mul]
  push_cast
  exact mul_le_mul_of_nonneg_right (abs_firstRounded_sub_le_abs m e n) (abs_nonneg _)

/-- No double is nearer. -/
theorem abs_firstRounded_sub_le_canonical (hu : IsCanonical (.finite s n f hn))
    (he : e ≤ goal m e) :
    |(firstRounded m e .exact : ℚ) * 2 ^ goal m e - m * 2 ^ e| ≤
      |(n : ℚ) * 2 ^ f - m * 2 ^ e| := by
  by_cases hgoal : goal m e ≤ f
  · obtain ⟨k, hk⟩ := exists_units (n := n) hgoal
    rw [hk]
    exact abs_firstRounded_sub_le_units he k
  · -- the least number with all its digits is between the double and what is rounded
    have hsmall := (canonical_lt_two_zpow hu (not_le.mp hgoal)).le
    have hlarge := two_zpow_le_of_goal he (by have := hu.2.1; omega)
    have hleast : ((2 ^ 52 : ℕ) : ℚ) * 2 ^ goal m e = 2 ^ (goal m e + 52) := by
      rw [zpow_add₀ two_ne_zero, mul_comm]
      norm_cast
    refine (abs_firstRounded_sub_le_units he (2 ^ 52)).trans ?_
    rw [hleast, abs_of_nonpos (by linarith), abs_of_nonpos (by linarith)]
    linarith

end Nearest

/-! ### Sums -/

section Sums

variable {u v w : UnpackedFloat} {m : Nat} {n : ℤ} {e : Int}

/-- The sign stays out of the rounding. -/
theorem rational_round (s : Sign) (hm : m ≠ 0) :
    rational (UnpackedFloat.round .binary64 s m e) =
      (s.apply 1 : ℤ) * rational (UnpackedFloat.round .binary64 .positive m e) := by
  have he := decreaseExponent_le_goal (e := e) hm
  simp only [UnpackedFloat.round, targetExponent_eq, (rational_roundWithAccuracy _ he .exact).2]
  rw [apply_eq, Sign.apply.eq_2, Int.cast_mul, mul_assoc]

theorem round_nearest (hm : m ≠ 0) (hu : IsCanonical u) :
    |rational (UnpackedFloat.round .binary64 .positive m e) - m * 2 ^ e| ≤
      |(|rational u|) - m * 2 ^ e| := by
  have he := decreaseExponent_le_goal (e := e) hm
  have hsame := apply_decreaseExponent .positive m e (goal m e)
  simp only [Sign.apply, Int.cast_natCast] at hsame
  rw [← hsame]
  simp only [UnpackedFloat.round, targetExponent_eq, (rational_roundWithAccuracy _ he .exact).2,
    Sign.apply, Int.cast_natCast]
  cases u with
  | infinity | notANumber => exact hu.elim
  | zero s => simpa using abs_firstRounded_sub_le_units he 0
  | finite s n f hn =>
    rw [abs_rational_finite]
    exact abs_firstRounded_sub_le_canonical hu he

/-- Rounding an integer of units leads to a double that no other one is nearer than. -/
theorem normalize_nearest (hu : IsCanonical u) (zero : Sign) :
    |rational (UnpackedFloat.normalize .binary64 n e zero) - n * 2 ^ e| ≤
      |rational u - n * 2 ^ e| := by
  rw [normalize_eq]
  by_cases hzero : n = 0
  · simp [hzero]
  · have hmagnitude := round_nearest (e := e) (Int.natAbs_ne_zero.mpr hzero) hu
    have hunit : (0 : ℚ) < 2 ^ e := by positivity
    rw [if_neg hzero, rational_round _ (Int.natAbs_ne_zero.mpr hzero)]
    have habs : (n.natAbs : ℚ) * 2 ^ e = |(n * 2 ^ e : ℚ)| := by
      rw [abs_mul, abs_of_pos hunit, Nat.cast_natAbs, Int.cast_abs]
    rw [habs] at hmagnitude
    refine (hmagnitude.trans (abs_abs_sub_abs_le ..)).trans' ?_
    generalize rational (UnpackedFloat.round .binary64 .positive n.natAbs e) = r
    rcases lt_or_gt_of_ne hzero with hn | hn
    · have hneg : (n : ℚ) * 2 ^ e < 0 := mul_neg_of_neg_of_pos (by exact_mod_cast hn) hunit
      rw [if_pos hn, Sign.apply, Int.cast_neg, Int.cast_one, neg_one_mul, abs_of_neg hneg,
        ← abs_neg, neg_sub, sub_neg_eq_add, sub_neg_eq_add, add_comm]
    · have hpos : (0 : ℚ) < n * 2 ^ e := mul_pos (by exact_mod_cast hn) hunit
      rw [if_neg hn.not_gt, Sign.apply, Int.cast_one, one_mul, abs_of_pos hpos]

/-- No double is nearer to the exact sum than the computed one. -/
theorem add_nearest (hu : IsCanonical u) (hv : IsCanonical v) (hw : IsCanonical w) :
    |rational (UnpackedFloat.add .binary64 u v) - (rational u + rational v)| ≤
      |rational w - (rational u + rational v)| := by
  cases u with
  | infinity | notANumber => exact hu.elim
  | zero s =>
    cases v with
    | infinity | notANumber => exact hv.elim
    | zero t => cases s <;> cases t <;> simp [UnpackedFloat.add]
    | finite t m e hm => simp [UnpackedFloat.add]
  | finite s m e hm =>
    cases v with
    | infinity | notANumber => exact hv.elim
    | zero t => simp [UnpackedFloat.add]
    | finite t n f hn =>
      have hnearest := normalize_nearest (e := min e f) hw .positive
        (n := s.apply (decreaseExponent m e (min e f)).1 +
          t.apply (decreaseExponent n f (min e f)).1)
      have hleft := apply_decreaseExponent s m e (min e f)
      have hright := apply_decreaseExponent t n f (min e f)
      rw [snd_decreaseExponent (min_le_left ..)] at hleft
      rw [snd_decreaseExponent (min_le_right ..)] at hright
      rwa [Int.cast_add, add_mul, hleft, hright] at hnearest

/-- A sum does not cross a double that the exact sum does not cross. -/
theorem add_between (hu : IsCanonical u) (hv : IsCanonical v) (hw : IsCanonical w) :
    (rational w ≤ rational u + rational v →
      rational w ≤ rational (UnpackedFloat.add .binary64 u v)) ∧
    (rational u + rational v ≤ rational w →
      rational (UnpackedFloat.add .binary64 u v) ≤ rational w) := by
  have hnearest := add_nearest hu hv hw
  constructor
  · intro h
    rw [abs_of_nonpos (sub_nonpos.mpr h)] at hnearest
    linarith [(abs_le.mp hnearest).1]
  · intro h
    rw [abs_of_nonneg (sub_nonneg.mpr h)] at hnearest
    linarith [(abs_le.mp hnearest).2]

/-- A sum is on the side of one summand that the sign of the other one says. -/
theorem add_brackets (hu : IsCanonical u) (hv : IsCanonical v) :
    IsCanonical (UnpackedFloat.add .binary64 u v) ∧
    (0 ≤ rational v → rational u ≤ rational (UnpackedFloat.add .binary64 u v)) ∧
    (rational v ≤ 0 → rational (UnpackedFloat.add .binary64 u v) ≤ rational u) := by
  obtain ⟨hlow, hhigh⟩ := add_between hu hv hu
  exact ⟨(isRounded_add hu hv).canonical, fun h => hlow (le_add_of_nonneg_right h),
    fun h => hhigh (add_le_of_nonpos_right h)⟩

/-- No double is nearer to the exact sum than the computed one, if that is finite. -/
theorem abs_add_sub_le {x y z : Float} (hx : x.isFinite = true) (hy : y.isFinite = true)
    (h : (x + y).isFinite = true) (hz : z.isFinite = true) :
    |value (x + y) - (value x + value y)| ≤ |value z - (value x + value y)| := by
  have hcanonical := (isRounded_add (isCanonical_unpack hx) (isCanonical_unpack hy)).canonical
  have hvalue : value (x + y) = _ := value_pack hcanonical h
  rw [hvalue]
  exact add_nearest (isCanonical_unpack hx) (isCanonical_unpack hy) (isCanonical_unpack hz)

end Sums

end Orrery.Double
