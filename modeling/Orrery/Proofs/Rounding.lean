import Mathlib
import Orrery.Double

/-!
# Rounding

A finite double stands for a rational number (`value`).  An operation takes the exact result, or
what is left of it when digits too low to matter are cut off, and rounds it to 53 binary digits; if
the exponent would be too low then, there are fewer.  So it is off by at most a small part of the
exact result, or of the least normal number (`IsRounded`).  If it is not too large it comes back
from being packed, and so it is what the double stands for (`Rounds`).

Of the rounding itself only this much is used for that: that it leads to one of the two neighbours.
-/

namespace Orrery.Double

open Float.Model (UnpackedFloat Format totalExponent)
open Float.Model.UnpackedFloat

/-! ### Values -/

/-- The number that an unpacked double stands for, zero if there is none. -/
def rational : UnpackedFloat → ℚ
  | .finite s m e _ => (s.apply m : ℤ) * 2 ^ e
  | _ => 0

/-- The number that a finite double stands for. -/
def value (x : Float) : ℚ := rational x.toModel.unpack

@[simp] theorem rational_zero (s : Sign) : rational (.zero s) = 0 := rfl

theorem rational_positive {m : Nat} {e : Int} (hm : 0 < m) :
    rational (.finite .positive m e hm) = m * 2 ^ e := by
  rw [rational, Sign.apply, Int.cast_natCast]

theorem rational_negative {m : Nat} {e : Int} (hm : 0 < m) :
    rational (.finite .negative m e hm) = -(m * 2 ^ e) := by
  rw [rational, Sign.apply, Int.cast_neg, Int.cast_natCast, neg_mul]

theorem apply_eq (s : Sign) (n : ℤ) : s.apply n = s.apply 1 * n := by
  cases s <;> simp [Sign.apply]

theorem abs_apply_mul (s : Sign) (n : ℤ) (x : ℚ) : |(s.apply n : ℤ) * x| = |n * x| := by
  cases s <;> simp [Sign.apply]

theorem abs_rational_finite (s : Sign) {m : Nat} {e : Int} (hm : 0 < m) :
    |rational (.finite s m e hm)| = m * 2 ^ e := by
  rw [rational, abs_apply_mul, Int.cast_natCast, abs_of_nonneg (by positivity)]

/-- Finite, with a mantissa of 53 digits or with the lowest exponent that there is. -/
def IsCanonical : UnpackedFloat → Prop
  | .zero _ => True
  | .finite _ m e _ => m < 2 ^ 53 ∧ -1074 ≤ e ∧ (2 ^ 52 ≤ m ∨ e = -1074)
  | _ => False

/-! ### Bits -/

/-- The number with the given fields.  That of the exponent is shifted by 1075, and that of the
mantissa leaves out the leading one, which is there unless the exponent is the lowest. -/
def ofFields (s : Sign) (exponent : BitVec 11) (mantissa : BitVec 52) : UnpackedFloat :=
  if exponent = -1#11 then
    if mantissa = 0#52 then .infinity s else .notANumber
  else if exponent = 0#11 then
    if h : 0 < mantissa.toNat then .finite s mantissa.toNat (-1074) h else .zero s
  else .finite s (2 ^ 52 + mantissa.toNat) (exponent.toNat - 1075) (by omega)

theorem unpack_eq_ofFields (b : BitVec Format.binary64.numBits) :
    UnpackedFloat.unpack .binary64 b =
      ofFields (Sign.ofBitVec (unpackSign b)) (unpackExponent b) (unpackMantissa b) := by
  have hlow : ((0#11).toNat : ℤ) - ((Format.binary64.exponentBias : ℤ) + (52 : ℕ)) + 1 = -1074 :=
    rfl
  unfold UnpackedFloat.unpack ofFields
  dsimp only
  by_cases hones : unpackExponent b = -1#11
  · rw [if_pos hones, if_pos hones]
  · rw [if_neg hones, if_neg hones]
    by_cases hzero : unpackExponent b = 0#11
    · rw [if_pos hzero, if_pos hzero]
      by_cases hmantissa : unpackMantissa b = 0#52
      · rw [dif_pos hmantissa, dif_neg (by simp [hmantissa])]
      · have hpos : 0 < (unpackMantissa b).toNat :=
          Nat.pos_of_ne_zero fun h => hmantissa (BitVec.eq_of_toNat_eq h)
        rw [dif_neg hmantissa, dif_pos hpos]
        simp only [hzero, hlow]
    · rw [if_neg hzero, if_neg hzero]
      have hleading : (1#1 ++ unpackMantissa b).toNat = 2 ^ 52 + (unpackMantissa b).toNat := by
        rw [BitVec.toNat_append, ← Nat.shiftLeft_add_eq_or_of_lt (BitVec.isLt _)]
        rfl
      simp only [hleading]
      rfl

theorem isCanonical_unpack {x : Float} (h : x.isFinite = true) :
    IsCanonical x.toModel.unpack := by
  have hx : x.toModel.unpack.isFinite = true := h
  revert hx
  rw [Float.Model.unpack, unpack_eq_ofFields, ofFields]
  generalize @unpackMantissa .binary64 x.toModel.toBits.toBitVec = mantissa
  generalize @unpackExponent .binary64 x.toModel.toBits.toBitVec = exponent
  have hmantissa : mantissa.toNat < 2 ^ 52 := mantissa.isLt
  split
  · split <;> intro h <;> cases h
  · next hzero =>
    intro _
    split
    · split
      · exact ⟨by omega, by decide, .inr rfl⟩
      · trivial
    · next hzero =>
      have hexponent : exponent.toNat ≠ 0 := fun h => hzero (BitVec.eq_of_toNat_eq h)
      exact ⟨by omega, by omega, .inl (by omega)⟩

/-- Above the largest exponent there are only infinities. -/
theorem exponent_unpack_le {x : Float} {s : Sign} {m : Nat} {e : Int} {hm : 0 < m}
    (h : x.toModel.unpack = .finite s m e hm) : e ≤ 971 := by
  rw [Float.Model.unpack, unpack_eq_ofFields, ofFields] at h
  generalize @unpackMantissa .binary64 x.toModel.toBits.toBitVec = mantissa at h
  generalize @unpackExponent .binary64 x.toModel.toBits.toBitVec = exponent at h
  have hexponent : exponent.toNat < 2048 := exponent.isLt
  split at h
  · split at h <;> cases h
  · next hones =>
    have hmax : exponent.toNat ≠ 2047 := fun h => hones (BitVec.eq_of_toNat_eq h)
    split at h
    · split at h
      · cases h
        decide
      · cases h
    · cases h
      omega

theorem unpack_packComponents (s : Sign) (exponent : BitVec 11) (mantissa : BitVec 52) :
    UnpackedFloat.unpack .binary64 (packComponents .binary64 s exponent mantissa) =
      ofFields s exponent mantissa := by
  rw [unpack_eq_ofFields, unpackSign_packComponents, Sign.ofBitVec_toBitVec,
    unpackExponent_packComponents, unpackMantissa_packComponents]

/-- What is canonical comes back from being packed, if its exponent is in range. -/
theorem unpack_pack {s : Sign} {m : Nat} {e : Int} {hm : 0 < m}
    (hcanonical : IsCanonical (.finite s m e hm)) (he : e ≤ 971) :
    (Float.Model.pack (.finite s m e hm)).unpack = .finite s m e hm := by
  obtain ⟨hlt, hmin, hfull⟩ := hcanonical
  have hbias : Format.binary64.exponentBias = 1023 := rfl
  have hbits : Format.binary64.mantissaBits = 53 := rfl
  have hones : (-1#11).toNat = 2047 := rfl
  show UnpackedFloat.unpack .binary64 (UnpackedFloat.pack .binary64 (.finite s m e hm)) = _
  unfold UnpackedFloat.pack
  dsimp only
  rw [if_neg (by omega), hbits, hbias]
  by_cases hnormal : 2 ^ 52 ≤ m
  · have hlog : m.log2 = 52 := (Nat.log2_eq_iff hm.ne').mpr ⟨hnormal, hlt⟩
    generalize hfield : (e + (1023 : ℕ) + (52 : ℕ)).toNat = field
    have hexponent : (BitVec.ofNat 11 field).toNat = field := by
      rw [BitVec.toNat_ofNat, Nat.mod_eq_of_lt (by omega)]
    have hones : BitVec.ofNat 11 field ≠ -1#11 := by
      intro h
      have hmax : (BitVec.ofNat 11 field).toNat = 2047 := by rw [h]; rfl
      omega
    have hzero : BitVec.ofNat 11 field ≠ 0#11 := by
      intro h
      have hmin : (BitVec.ofNat 11 field).toNat = 0 := by rw [h]; rfl
      omega
    have hmantissa : 2 ^ 52 + (BitVec.ofNat 52 m).toNat = m := by
      rw [BitVec.toNat_ofNat]
      omega
    rw [if_pos (by omega), unpack_packComponents, ofFields, if_neg hones, if_neg hzero]
    congr 1
    omega
  · have hlog : m.log2 < 52 := (Nat.log2_lt hm.ne').mpr (by omega)
    have hmantissa : (BitVec.ofNat 52 m).toNat = m := by
      rw [BitVec.toNat_ofNat, Nat.mod_eq_of_lt (by omega)]
    obtain rfl : e = -1074 := by omega
    rw [if_neg (by omega), unpack_packComponents, ofFields, if_neg (by decide), if_pos rfl,
      dif_pos (by omega)]
    simp only [hmantissa]

theorem unpack_pack_zero (s : Sign) : (Float.Model.pack (.zero s)).unpack = .zero s := by
  cases s <;> rfl

theorem isFinite_pack_eq_false {s : Sign} {m : Nat} {e : Int} {hm : 0 < m} (he : 971 < e) :
    (Float.ofModel (.pack (.finite s m e hm))).isFinite = false := by
  have hbias : Format.binary64.exponentBias = 1023 := rfl
  have hpack : Float.Model.pack (.finite s m e hm) = Float.Model.pack (.infinity s) := by
    unfold Float.Model.pack UnpackedFloat.pack
    dsimp only
    congr 2
    rw [if_pos (by omega)]
  rw [hpack]
  cases s <;> decide

/-- What comes back from being packed is what the double stands for. -/
theorem value_of_unpack_pack {u : UnpackedFloat} (h : (Float.Model.pack u).unpack = u) :
    (Float.ofModel (.pack u)).isFinite = u.isFinite ∧ value (.ofModel (.pack u)) = rational u := by
  constructor
  · show (Float.Model.pack u).unpack.isFinite = u.isFinite
    rw [h]
  · show rational (Float.Model.pack u).unpack = rational u
    rw [h]

/-! ### Digits -/

/-- The exponent that leaves 53 digits of `m * 2 ^ e`, unless it would be below the lowest one. -/
def goal (m : Nat) (e : Int) : Int := max (m.log2 + e - 52) (-1074)

theorem targetExponent_eq (m : Nat) (e : Int) :
    Format.binary64.targetExponent (totalExponent m e) = goal m e := by
  have hbits : Format.binary64.mantissaBits = 53 := rfl
  have hmin : Format.binary64.minExponent = -1074 := rfl
  rw [Format.targetExponent, hbits, hmin, totalExponent, goal]
  omega

theorem mantissa_shiftRight (em : ExtendedMantissa) (k : Nat) :
    (em >>> k).mantissa = em.mantissa / 2 ^ k := by
  induction k with
  | zero => simp [HShiftRight.hShiftRight, Nat.repeat]
  | succ k ih =>
    show (em >>> k).mantissa / 2 = _
    rw [ih, Nat.div_div_eq_div_mul, Nat.pow_succ]

theorem mantissa_ofMantissaAndAccuracy (m : Nat) (accuracy : Accuracy) :
    (ExtendedMantissa.ofMantissaAndAccuracy m accuracy).mantissa = m := by
  cases accuracy with
  | exact => rfl
  | inexact o => cases o <;> rfl

theorem roundedMantissa_cases (em : ExtendedMantissa) :
    em.roundedMantissa = em.mantissa ∨ em.roundedMantissa = em.mantissa + 1 := by
  obtain ⟨m, round, sticky⟩ := em
  have htie : m + m % 2 = m ∨ m + m % 2 = m + 1 := by omega
  cases round <;> cases sticky
  · exact .inl rfl
  · exact .inl rfl
  · exact htie
  · exact .inr rfl

/-- The mantissa after the first shift and the rounding. -/
def firstRounded (m : Nat) (e : Int) (accuracy : Accuracy) : Nat :=
  (ExtendedMantissa.ofMantissaAndAccuracy m accuracy >>>
    (goal m e - e).toNat).roundedMantissa

theorem firstRounded_cases (m : Nat) (e : Int) (accuracy : Accuracy) :
    firstRounded m e accuracy = m / 2 ^ (goal m e - e).toNat ∨
      firstRounded m e accuracy = m / 2 ^ (goal m e - e).toNat + 1 := by
  have hcases := roundedMantissa_cases
    (ExtendedMantissa.ofMantissaAndAccuracy m accuracy >>> (goal m e - e).toNat)
  rwa [mantissa_shiftRight, mantissa_ofMantissaAndAccuracy] at hcases

variable {m : Nat} {e : Int}

theorem firstRounded_le (accuracy : Accuracy) : firstRounded m e accuracy ≤ 2 ^ 53 := by
  have hlog : m < 2 ^ (m.log2 + 1) := Nat.lt_log2_self
  have hpow : 2 ^ (m.log2 + 1) ≤ 2 ^ (53 + (goal m e - e).toNat) :=
    Nat.pow_le_pow_right (by decide) (by unfold goal; omega)
  have hfloor : m / 2 ^ (goal m e - e).toNat < 2 ^ 53 := by
    rw [Nat.div_lt_iff_lt_mul (by positivity), ← Nat.pow_add]
    exact hlog.trans_le hpow
  rcases firstRounded_cases m e accuracy with h | h <;> omega

/-- Nothing but zero has so few digits that its last one is before the lowest exponent. -/
theorem ne_zero_of_goal (he : e ≤ goal m e) (hlow : goal m e ≠ -1074) : m ≠ 0 := by
  rintro rfl
  have hlog : Nat.log2 0 = 0 := rfl
  unfold goal at he hlow
  omega

/-- There are 53 digits, or the exponent is the lowest. -/
theorem firstRounded_full (he : e ≤ goal m e) (accuracy : Accuracy) :
    2 ^ 52 ≤ firstRounded m e accuracy ∨ goal m e = -1074 := by
  by_cases hlow : goal m e = -1074
  · exact .inr hlow
  · refine .inl ?_
    have hpow : 2 ^ (52 + (goal m e - e).toNat) ≤ m := by
      have hlog : 52 + (goal m e - e).toNat = m.log2 := by unfold goal at *; omega
      rw [hlog]
      exact Nat.log2_self_le (ne_zero_of_goal he hlow)
    have hfloor : 2 ^ 52 ≤ m / 2 ^ (goal m e - e).toNat := by
      rw [Nat.le_div_iff_mul_le (by positivity), ← Nat.pow_add]
      exact hpow
    rcases firstRounded_cases m e accuracy with h | h <;> omega

/-- Shifting what is small enough for the mantissa does nothing. -/
theorem shiftToTargetExponent_of_lt (hm : m < 2 ^ 53) (he : -1074 ≤ e) :
    shiftToTargetExponent .binary64 m e .exact = (⟨m, false, false⟩, e) := by
  have hlog : m.log2 ≤ 52 := by
    by_cases hzero : m = 0
    · rw [hzero]
      decide
    · have := (Nat.log2_lt hzero).mpr hm
      omega
  have hshift : (goal m e - e).toNat = 0 := by unfold goal; omega
  rw [shiftToTargetExponent, targetExponent_eq, shiftToExponent, hshift]
  simp [ExtendedMantissa.ofMantissaAndAccuracy, HShiftRight.hShiftRight, Nat.repeat]

/-- A carry beyond the mantissa is undone by shifting once. -/
theorem shiftToTargetExponent_carry (he : -1074 ≤ e) :
    shiftToTargetExponent .binary64 (2 ^ 53) e .exact = (⟨2 ^ 52, false, false⟩, e + 1) := by
  have hlog : Nat.log2 (2 ^ 53) = 53 := Nat.log2_two_pow
  have hshift : (goal (2 ^ 53) e - e).toNat = 1 := by unfold goal; omega
  rw [shiftToTargetExponent, targetExponent_eq, shiftToExponent, hshift]
  rfl

theorem roundWithAccuracy_eq (s : Sign) (he : e ≤ goal m e) (accuracy : Accuracy) :
    roundWithAccuracy .binary64 s m e accuracy =
      if h : firstRounded m e accuracy = 0 then .zero s
      else if firstRounded m e accuracy < 2 ^ 53 then
        .finite s (firstRounded m e accuracy) (goal m e) (Nat.pos_of_ne_zero h)
      else .finite s (2 ^ 52) (goal m e + 1) (by decide) := by
  have hgoal : -1074 ≤ goal m e := le_max_right ..
  have hfirst : shiftToTargetExponent .binary64 m e accuracy =
      (ExtendedMantissa.ofMantissaAndAccuracy m accuracy >>> (goal m e - e).toNat, goal m e) := by
    rw [shiftToTargetExponent, targetExponent_eq, shiftToExponent]
    congr 1
    omega
  have hle := firstRounded_le (m := m) (e := e) accuracy
  unfold firstRounded at *
  rw [roundWithAccuracy, hfirst]
  dsimp only
  generalize (ExtendedMantissa.ofMantissaAndAccuracy m accuracy >>>
    (goal m e - e).toNat).roundedMantissa = n at *
  by_cases hlt : n < 2 ^ 53
  · simp only [shiftToTargetExponent_of_lt hlt hgoal, hlt, ↓reduceIte]
  · obtain rfl : n = 2 ^ 53 := by omega
    rw [shiftToTargetExponent_carry hgoal]
    rfl

/-! ### Errors -/

/-- A bound on the error of an operation, relative to the exact result.  It is twice the distance
from one to the next double. -/
@[irreducible]
def roundoff : ℚ := 2 ^ (-51 : ℤ)

/-- Below this number doubles do not get any closer to each other. -/
@[irreducible]
def leastNormal : ℚ := 2 ^ (-1022 : ℤ)

theorem roundoff_pos : 0 < roundoff := by unfold roundoff; positivity

theorem leastNormal_pos : 0 < leastNormal := by unfold leastNormal; positivity

theorem roundoff_le : roundoff ≤ 1 / 10 ^ 15 := by
  rw [roundoff]
  norm_num

theorem leastNormal_le : leastNormal ≤ 1 / 16 := by
  have hfour : (1 / 16 : ℚ) = 2 ^ (-4 : ℤ) := by norm_num
  rw [leastNormal, hfour]
  exact zpow_le_zpow_right₀ one_le_two (by decide)

theorem roundoff_mul_le {b c : ℚ} (hb : 0 ≤ b) (h : b ≤ c) :
    roundoff * (b + leastNormal) ≤ 1 / 10 ^ 15 * (c + 1 / 16) :=
  mul_le_mul roundoff_le (add_le_add h leastNormal_le) (add_nonneg hb leastNormal_pos.le)
    (by norm_num)

/-- The leading digit is where the units of the last one say. -/
theorem two_zpow_le_of_goal (he : e ≤ goal m e) (hlow : goal m e ≠ -1074) :
    (2 : ℚ) ^ (goal m e + 52) ≤ m * 2 ^ e := by
  have hgoal : goal m e + 52 = m.log2 + e := by unfold goal at *; omega
  have hlog : (2 : ℚ) ^ m.log2 ≤ m := by
    exact_mod_cast Nat.log2_self_le (ne_zero_of_goal he hlow)
  rw [hgoal, zpow_add₀ two_ne_zero, zpow_natCast]
  gcongr

/-- One unit of the last digit is a small part of the number, or of the least normal one. -/
theorem two_zpow_goal_le (he : e ≤ goal m e) :
    (2 : ℚ) ^ goal m e ≤ roundoff / 2 * (m * 2 ^ e + leastNormal) := by
  have hhalf : roundoff / 2 = 2 ^ (-52 : ℤ) := by
    rw [roundoff, div_eq_iff two_ne_zero, ← zpow_add_one₀ two_ne_zero]
    rfl
  have hsmall : (0 : ℚ) ≤ m * 2 ^ e := by positivity
  rw [hhalf]
  by_cases hlow : goal m e = -1074
  · have hleast : (2 : ℚ) ^ (-1074 : ℤ) = 2 ^ (-52 : ℤ) * leastNormal := by
      rw [leastNormal, ← zpow_add₀ two_ne_zero]
      rfl
    rw [hlow, hleast]
    gcongr
    linarith
  · have hleading := two_zpow_le_of_goal he hlow
    have hlast : (2 : ℚ) ^ goal m e = 2 ^ (-52 : ℤ) * 2 ^ (goal m e + 52) := by
      rw [← zpow_add₀ two_ne_zero]
      congr 1
      omega
    rw [hlast]
    gcongr
    linarith [leastNormal_pos]

theorem abs_firstRounded_sub_le (he : e ≤ goal m e) (accuracy : Accuracy) :
    |(firstRounded m e accuracy : ℚ) * 2 ^ goal m e - m * 2 ^ e| ≤ 2 ^ goal m e := by
  generalize hk : (goal m e - e).toNat = k
  have hgoal : goal m e = k + e := by omega
  have hpow : (0 : ℚ) < 2 ^ k := by positivity
  have hfloor : (m / 2 ^ k : ℕ) ≤ (m : ℚ) / 2 ^ k := by exact_mod_cast Nat.cast_div_le
  have hceil : (m : ℚ) / 2 ^ k ≤ (m / 2 ^ k : ℕ) + 1 := by
    rw [div_le_iff₀ hpow]
    exact_mod_cast (Nat.lt_mul_of_div_lt (Nat.lt_succ_self _) (by positivity)).le
  have hunit : |(firstRounded m e accuracy : ℚ) - m / 2 ^ k| ≤ 1 := by
    rw [abs_le]
    rcases firstRounded_cases m e accuracy with h | h <;> rw [h, hk] <;> push_cast <;>
      constructor <;> linarith
  have hexact : (m : ℚ) * 2 ^ e = m / 2 ^ k * 2 ^ goal m e := by
    rw [hgoal, zpow_add₀ two_ne_zero, zpow_natCast]
    field_simp
  rw [hexact, ← sub_mul, abs_mul, abs_of_pos (by positivity : (0 : ℚ) < 2 ^ goal m e)]
  exact mul_le_of_le_one_left (by positivity) hunit

theorem rational_roundWithAccuracy (s : Sign) (he : e ≤ goal m e) (accuracy : Accuracy) :
    IsCanonical (roundWithAccuracy .binary64 s m e accuracy) ∧
      rational (roundWithAccuracy .binary64 s m e accuracy) =
        (s.apply (firstRounded m e accuracy) : ℤ) * 2 ^ goal m e := by
  have hle := firstRounded_le (m := m) (e := e) accuracy
  have hfull := firstRounded_full he accuracy
  have hgoal : -1074 ≤ goal m e := le_max_right ..
  rw [roundWithAccuracy_eq s he]
  split
  · next hzero =>
    rw [hzero]
    refine ⟨trivial, ?_⟩
    cases s <;> simp [rational, Sign.apply]
  · split
    · next hlt => exact ⟨⟨hlt, hgoal, hfull⟩, rfl⟩
    · have hcarry : firstRounded m e accuracy = 2 ^ 53 := by omega
      refine ⟨⟨by decide, by omega, .inl le_rfl⟩, ?_⟩
      rw [hcarry, rational, zpow_add_one₀ two_ne_zero]
      cases s <;> norm_num [Sign.apply] <;> ring

/-- `u` is what `t` is rounded to, before it is packed: it is off by a small part of `t`, or of the
least normal number. -/
structure IsRounded (u : UnpackedFloat) (t : ℚ) : Prop where
  canonical : IsCanonical u
  near : |rational u - t| ≤ roundoff * (|t| + leastNormal)

theorem isRounded_self {u : UnpackedFloat} (hu : IsCanonical u) : IsRounded u (rational u) := by
  refine ⟨hu, ?_⟩
  rw [sub_self, abs_zero]
  exact mul_nonneg roundoff_pos.le (add_nonneg (abs_nonneg _) leastNormal_pos.le)

/-- One unit of the last digit comes from the rounding, and one is left for what was cut off
before. -/
theorem isRounded_roundWithAccuracy (s : Sign) (he : e ≤ goal m e) (accuracy : Accuracy) {q : ℚ}
    (hlow : m * 2 ^ e ≤ q) (hhigh : q ≤ (m + 1) * 2 ^ e) :
    IsRounded (roundWithAccuracy .binary64 s m e accuracy) ((s.apply 1 : ℤ) * q) := by
  obtain ⟨hcanonical, hvalue⟩ := rational_roundWithAccuracy s he accuracy
  refine ⟨hcanonical, ?_⟩
  have hq : 0 ≤ q := le_trans (by positivity) hlow
  have hrounded := abs_firstRounded_sub_le he accuracy
  have hcut : |(m : ℚ) * 2 ^ e - q| ≤ 2 ^ e := by
    rw [abs_sub_comm, abs_of_nonneg (sub_nonneg.mpr hlow)]
    linarith
  have hunits : (2 : ℚ) ^ e ≤ 2 ^ goal m e := zpow_le_zpow_right₀ one_le_two he
  have hsmall : (2 : ℚ) ^ goal m e ≤ roundoff / 2 * (q + leastNormal) :=
    (two_zpow_goal_le he).trans
      (mul_le_mul_of_nonneg_left (by linarith) (half_pos roundoff_pos).le)
  rw [hvalue, apply_eq, Int.cast_mul, mul_assoc, ← mul_sub, abs_apply_mul, abs_apply_mul,
    Int.cast_one, one_mul, one_mul, Int.cast_natCast, abs_of_nonneg hq]
  calc _ ≤ _ := abs_sub_le _ ((m : ℚ) * 2 ^ e) _
    _ ≤ roundoff * (q + leastNormal) := by linarith

theorem isRounded_exact (s : Sign) (he : e ≤ goal m e) :
    IsRounded (roundWithAccuracy .binary64 s m e .exact) ((s.apply m : ℤ) * 2 ^ e) := by
  rw [apply_eq, Int.cast_mul, mul_assoc]
  exact isRounded_roundWithAccuracy s he .exact le_rfl (by
    have hunit : (0 : ℚ) < 2 ^ e := by positivity
    push_cast
    linarith)

theorem apply_decreaseExponent (s : Sign) (m : Nat) (e t : Int) :
    ((s.apply (decreaseExponent m e t).1 : ℤ) : ℚ) * 2 ^ (decreaseExponent m e t).2 =
      (s.apply m : ℤ) * 2 ^ e := by
  have hexponent : (2 : ℚ) ^ e = 2 ^ (e - t).toNat * 2 ^ (e - (e - t).toNat) := by
    rw [← zpow_natCast, ← zpow_add₀ two_ne_zero]
    congr 1
    omega
  simp only [decreaseExponent, Nat.shiftLeft_eq]
  rw [hexponent, apply_eq s (m : ℤ), apply_eq]
  push_cast
  ring

/-- The digits that are appended to have enough of them do not change where the last one goes. -/
theorem decreaseExponent_le_goal (hm : m ≠ 0) :
    (decreaseExponent m e (goal m e)).2 ≤
      goal (decreaseExponent m e (goal m e)).1 (decreaseExponent m e (goal m e)).2 := by
  generalize hk : (e - goal m e).toNat = k
  have hlog : (m <<< k).log2 = m.log2 + k := by
    rw [Nat.log2_eq_iff (by simp [hm]), Nat.shiftLeft_eq, Nat.add_right_comm, Nat.pow_add,
      Nat.pow_add _ _ k]
    have hbounds := (Nat.log2_eq_iff hm).mp rfl
    exact ⟨Nat.mul_le_mul_right _ hbounds.1, Nat.mul_lt_mul_of_pos_right hbounds.2 (by positivity)⟩
  simp only [decreaseExponent, hk]
  unfold goal at *
  omega

theorem isRounded_round (s : Sign) (hm : m ≠ 0) :
    IsRounded (UnpackedFloat.round .binary64 s m e) ((s.apply m : ℤ) * 2 ^ e) := by
  have he := decreaseExponent_le_goal (e := e) hm
  rw [UnpackedFloat.round, targetExponent_eq, ← apply_decreaseExponent s m e (goal m e)]
  exact isRounded_exact s he

/-- Every integer is a natural number with a sign. -/
theorem normalize_eq (n : ℤ) (zero : Sign) :
    UnpackedFloat.normalize .binary64 n e zero = if n = 0 then .zero zero else
      UnpackedFloat.round .binary64 (if n < 0 then .negative else .positive) n.natAbs e := by
  rcases lt_trichotomy n 0 with hn | rfl | hn
  · have habs : (-n).toNat = n.natAbs := by omega
    rw [UnpackedFloat.normalize, Int.compare_eq_lt.mpr hn, if_neg hn.ne, if_pos hn, habs]
  · rfl
  · have habs : n.toNat = n.natAbs := by omega
    rw [UnpackedFloat.normalize, Int.compare_eq_gt.mpr hn, if_neg hn.ne', if_neg hn.not_gt, habs]

theorem isRounded_normalize (n : ℤ) (zero : Sign) :
    IsRounded (UnpackedFloat.normalize .binary64 n e zero) (n * 2 ^ e) := by
  rw [normalize_eq]
  by_cases hn : n = 0
  · rw [if_pos hn, hn, Int.cast_zero, zero_mul]
    exact isRounded_self trivial
  · have hsigned : (if n < 0 then Sign.negative else .positive).apply n.natAbs = n := by
      split <;> simp only [Sign.apply] <;> omega
    have hround := isRounded_round (e := e) (if n < 0 then .negative else .positive)
      (Int.natAbs_ne_zero.mpr hn)
    rw [if_neg hn]
    rwa [hsigned] at hround

/-! ### Results -/

/-- `x` is what `t` is rounded to: it is finite unless `t` is very large, and then off by a small
part of `t`, or of the least normal number. -/
structure Rounds (x : Float) (t : ℚ) : Prop where
  finite : |t| ≤ 2 ^ 900 → x.isFinite = true
  near : x.isFinite = true → |value x - t| ≤ roundoff * (|t| + leastNormal)

/-- Nothing up to this number overflows when it is rounded. -/
def huge : ℚ := 2 ^ (1023 : ℤ)

theorem one_le_huge : 1 ≤ huge := one_le_zpow₀ one_le_two (by decide)

theorem two_pow_le_huge : 2 ^ 900 ≤ huge := by
  rw [huge, ← zpow_natCast]
  exact zpow_le_zpow_right₀ one_le_two (by decide)

/-- What is too large to be packed comes from rounding a very large number. -/
theorem IsRounded.large {s : Sign} {hm : 0 < m} {t : ℚ} (h : IsRounded (.finite s m e hm) t)
    (he : 971 < e) : huge < |t| := by
  obtain ⟨⟨-, -, hfull⟩, hnear⟩ := h
  have hlarge : 2 * huge ≤ |rational (.finite s m e hm)| := by
    have hdigits : (2 : ℚ) ^ (52 : ℤ) ≤ m := by exact_mod_cast hfull.resolve_right (by omega)
    have hexponent : (2 : ℚ) ^ (972 : ℤ) ≤ 2 ^ e := zpow_le_zpow_right₀ one_le_two (by omega)
    rw [abs_rational_finite]
    calc 2 * huge = 2 ^ (52 : ℤ) * 2 ^ (972 : ℤ) := by
          rw [huge, ← zpow_add₀ two_ne_zero, ← zpow_one_add₀ two_ne_zero]
          rfl
      _ ≤ m * 2 ^ e := by gcongr
  by_contra hsmall
  rw [not_lt] at hsmall
  have hpart := roundoff_mul_le (abs_nonneg t) hsmall
  linarith [one_le_huge, abs_sub_abs_le_abs_sub (rational (.finite s m e hm)) t]

/-- What is canonical is what the double stands for that it is packed into, if that is finite. -/
theorem value_pack {u : UnpackedFloat} (hu : IsCanonical u)
    (h : (Float.ofModel (.pack u)).isFinite = true) : value (.ofModel (.pack u)) = rational u := by
  cases u with
  | infinity | notANumber => exact hu.elim
  | zero s => exact (value_of_unpack_pack (unpack_pack_zero s)).2
  | finite s m e hm =>
    have he : e ≤ 971 := by
      by_contra he
      rw [isFinite_pack_eq_false (not_le.mp he)] at h
      cases h
    exact (value_of_unpack_pack (unpack_pack hu he)).2

/-- What is rounded from a number that is not very large is finite. -/
theorem IsRounded.isFinite_pack {u : UnpackedFloat} {t : ℚ} (h : IsRounded u t) (ht : |t| ≤ huge) :
    (Float.ofModel (.pack u)).isFinite = true := by
  cases u with
  | infinity | notANumber => exact h.canonical.elim
  | zero s => exact (value_of_unpack_pack (unpack_pack_zero s)).1
  | finite s m e hm =>
    have he : e ≤ 971 := not_lt.mp fun he => (h.large he).not_ge ht
    exact (value_of_unpack_pack (unpack_pack h.canonical he)).1

theorem IsRounded.pack {u : UnpackedFloat} {t : ℚ} (h : IsRounded u t) :
    Rounds (.ofModel (.pack u)) t where
  finite ht := h.isFinite_pack (ht.trans two_pow_le_huge)
  near hfinite := by
    rw [value_pack h.canonical hfinite]
    exact h.near

end Orrery.Double
