import Orrery.Proofs.Growth

/-!
# Remainders

The bits of a double are a sign, an exponent field and a fraction (`Double.Spells`).  The parts that
are read off them stand for what the double stands for (`Double.exists_parts`), and so does the
double that parts are put together to, if there are at most 53 digits
(`Double.Parts.toFloat_exact`).

A remainder has that many at most: counted in the smaller one of both units it is less than a number
that was not scaled.  So it is exact (`Double.remainder_spec`).
-/

namespace Orrery.Double

open Float.Model (UnpackedFloat Format)
open Float.Model.UnpackedFloat

/-! ### Bits -/

/-- The bits are a sign, an exponent field and a fraction, from the highest to the lowest. -/
structure Spells (bits : UInt64) (negative : Bool) (field fraction : Nat) : Prop where
  field_lt : field < 2 ^ 11
  fraction_lt : fraction < 2 ^ 52
  toNat_eq : bits.toNat = negative.toNat * 2 ^ 63 + field * 2 ^ 52 + fraction

theorem exists_spells (bits : UInt64) : ∃ negative field fraction,
    Spells bits negative field fraction := by
  have hbits : bits.toNat < 2 ^ 64 := bits.toNat_lt
  refine ⟨decide (2 ^ 63 ≤ bits.toNat), bits.toNat / 2 ^ 52 % 2 ^ 11, bits.toNat % 2 ^ 52,
    by omega, by omega, ?_⟩
  by_cases hsign : 2 ^ 63 ≤ bits.toNat
  · rw [decide_eq_true hsign, Bool.toNat_true]
    omega
  · rw [decide_eq_false hsign, Bool.toNat_false]
    omega

variable {bits : UInt64} {negative : Bool} {field fraction : Nat}

namespace Spells

theorem toNat_field (h : Spells bits negative field fraction) :
    ((bits >>> 52) &&& 0x7FF).toNat = field := by
  obtain ⟨hfield, hfraction, hbits⟩ := h
  have hmask : (2047 : Nat) = 2 ^ 11 - 1 := rfl
  simp only [UInt64.toNat_and, UInt64.toNat_shiftRight, UInt64.reduceToNat, Nat.reduceMod,
    Nat.shiftRight_eq_div_pow, hmask, Nat.and_two_pow_sub_one_eq_mod]
  cases negative <;> simp only [Bool.toNat_true, Bool.toNat_false] at hbits <;> omega

theorem toNat_fraction (h : Spells bits negative field fraction) :
    (bits &&& 0xFFFFFFFFFFFFF).toNat = fraction := by
  obtain ⟨hfield, hfraction, hbits⟩ := h
  have hmask : (4503599627370495 : Nat) = 2 ^ 52 - 1 := rfl
  simp only [UInt64.toNat_and, UInt64.reduceToNat, hmask, Nat.and_two_pow_sub_one_eq_mod]
  omega

theorem shiftRight_eq (h : Spells bits negative field fraction) :
    (bits >>> 63 == 1) = negative := by
  obtain ⟨hfield, hfraction, hbits⟩ := h
  have hshift : (bits >>> 63).toNat = negative.toNat := by
    simp only [UInt64.toNat_shiftRight, UInt64.reduceToNat, Nat.reduceMod,
      Nat.shiftRight_eq_div_pow]
    omega
  rw [Bool.eq_iff_iff, beq_iff_eq, ← UInt64.toNat_inj, hshift]
  cases negative <;> simp

theorem unpackMantissa_eq (h : Spells bits negative field fraction) :
    @unpackMantissa .binary64 bits.toBitVec = .ofNat 52 fraction := by
  obtain ⟨hfield, hfraction, hbits⟩ := h
  apply BitVec.eq_of_toNat_eq
  simp only [unpackMantissa, BitVec.extractLsb_toNat, BitVec.toNat_cast, BitVec.toNat_ofNat]
  show bits.toNat >>> 0 % 2 ^ 52 = _
  rw [Nat.shiftRight_zero]
  omega

theorem unpackExponent_eq (h : Spells bits negative field fraction) :
    @unpackExponent .binary64 bits.toBitVec = .ofNat 11 field := by
  obtain ⟨hfield, hfraction, hbits⟩ := h
  apply BitVec.eq_of_toNat_eq
  simp only [unpackExponent, BitVec.extractLsb_toNat, BitVec.toNat_cast, BitVec.toNat_ofNat]
  show bits.toNat >>> 52 % 2 ^ 11 = _
  rw [Nat.shiftRight_eq_div_pow]
  omega

theorem unpackSign_eq (h : Spells bits negative field fraction) :
    Sign.ofBitVec (@unpackSign .binary64 bits.toBitVec) =
      if negative then .negative else .positive := by
  obtain ⟨hfield, hfraction, hbits⟩ := h
  have hsign : @unpackSign .binary64 bits.toBitVec = .ofNat 1 negative.toNat := by
    apply BitVec.eq_of_toNat_eq
    simp only [unpackSign, BitVec.extractLsb_toNat, BitVec.toNat_cast, BitVec.toNat_ofNat]
    show bits.toNat >>> 63 % 2 ^ 1 = _
    rw [Nat.shiftRight_eq_div_pow]
    omega
  rw [hsign]
  cases negative <;> rfl

/-- What the bits stand for, by their exponent field. -/
theorem unpack_eq (h : Spells bits negative field fraction) :
    UnpackedFloat.unpack .binary64 bits.toBitVec =
      let s : Sign := if negative then .negative else .positive
      if field = 2047 then if fraction = 0 then .infinity s else .notANumber
      else if field = 0 then
        if hpos : 0 < fraction then .finite s fraction (-1074) hpos else .zero s
      else .finite s (2 ^ 52 + fraction) (field - 1075) (by omega) := by
  have hnat : ∀ {w n k : Nat}, n < 2 ^ w → k < 2 ^ w → (BitVec.ofNat w n = .ofNat w k ↔ n = k) := by
    intro w n k hn hk
    rw [← BitVec.toNat_inj, BitVec.toNat_ofNat, BitVec.toNat_ofNat, Nat.mod_eq_of_lt hn,
      Nat.mod_eq_of_lt hk]
  have hones : BitVec.ofNat 11 field = -1#11 ↔ field = 2047 := hnat h.field_lt (by decide)
  have hzero : BitVec.ofNat 11 field = 0#11 ↔ field = 0 := hnat h.field_lt (by decide)
  have hnone : BitVec.ofNat 52 fraction = 0#52 ↔ fraction = 0 := hnat h.fraction_lt (by decide)
  rw [unpack_eq_ofFields, h.unpackMantissa_eq, h.unpackExponent_eq, h.unpackSign_eq]
  simp only [ofFields, hones, hzero, hnone, BitVec.toNat_ofNat, Nat.mod_eq_of_lt h.field_lt,
    Nat.mod_eq_of_lt h.fraction_lt]

end Spells

/-! ### Parts -/

/-- The number that the parts stand for. -/
def Parts.value (p : Parts) : ℚ := (if p.negative then -1 else 1) * (p.mantissa * 2 ^ p.exponent)

theorem rational_finite_sign {m : Nat} {e : Int} {hm : 0 < m} :
    rational (.finite (if negative then .negative else .positive) m e hm) =
      Parts.value ⟨negative, m, e⟩ := by
  cases negative
  · exact (rational_positive hm).trans (one_mul _).symm
  · exact (rational_negative hm).trans (neg_one_mul _).symm

/-- Smaller units, and more of them. -/
theorem Parts.value_mul_two_pow {m : Nat} {e t : Int} (h : t ≤ e) :
    Parts.value ⟨negative, m * 2 ^ (e - t).toNat, t⟩ = Parts.value ⟨negative, m, e⟩ := by
  simp only [Parts.value, two_zpow_eq h]
  push_cast
  ring

/-- The parts that these fields spell. -/
def Parts.spelled (negative : Bool) (field fraction : Nat) : Parts :=
  if field = 0 then ⟨negative, fraction, -1074⟩ else ⟨negative, 2 ^ 52 + fraction, field - 1075⟩

/-- Below the highest exponent field the bits stand for what the parts stand for, which is not lost
in packing. -/
theorem Spells.rational_unpack (h : Spells bits negative field fraction) (hfield : field ≤ 2046) :
    let u := UnpackedFloat.unpack .binary64 bits.toBitVec
    (Float.Model.pack u).unpack = u ∧ u.isFinite = true ∧
      rational u = (Parts.spelled negative field fraction).value := by
  have hfraction := h.fraction_lt
  rw [h.unpack_eq, Parts.spelled]
  dsimp only
  rw [if_neg (by omega)]
  by_cases hzero : field = 0
  · rw [if_pos hzero, if_pos hzero]
    split
    · exact ⟨unpack_pack ⟨by omega, le_rfl, .inr rfl⟩ (by decide), rfl, rational_finite_sign⟩
    · next hnone =>
      obtain rfl : fraction = 0 := by omega
      exact ⟨unpack_pack_zero _, rfl, by simp [Parts.value]⟩
  · rw [if_neg hzero, if_neg hzero]
    exact ⟨unpack_pack ⟨by omega, by omega, .inl (by omega)⟩ (by omega), rfl, rational_finite_sign⟩

/-- What the bits stand for is what the double with these bits stands for. -/
theorem value_ofBits (h : Spells bits negative field fraction) (hfield : field ≤ 2046) :
    (Float.ofBits bits).isFinite = true ∧
      value (Float.ofBits bits) = (Parts.spelled negative field fraction).value := by
  obtain ⟨hpack, hfinite, hvalue⟩ := h.rational_unpack hfield
  obtain ⟨hsame, hback⟩ := value_of_unpack_pack hpack
  exact ⟨hsame.trans hfinite, hback.trans hvalue⟩

variable {x : Float}

theorem parts?_eq (h : Spells x.toBits negative field fraction) :
    parts? x = if field = 2047 then none else some (.spelled negative field fraction) := by
  unfold parts? isNegative Parts.spelled
  simp only [h.toNat_field, h.toNat_fraction, h.shiftRight_eq]
  split
  · rfl
  · split <;> rfl

/-- A finite number is what its parts stand for. -/
theorem exists_parts (hx : x.isFinite = true) : ∃ p, parts? x = some p ∧ p.mantissa < 2 ^ 53 ∧
    (-1074 ≤ p.exponent ∧ p.exponent ≤ 971) ∧ p.value = value x := by
  obtain ⟨negative, field, fraction, h⟩ := exists_spells x.toBits
  have hlt := h.field_lt
  have hfraction := h.fraction_lt
  have hfield : field ≠ 2047 := by
    intro hones
    have hfinite : (UnpackedFloat.unpack .binary64 x.toBits.toBitVec).isFinite = true := hx
    rw [h.unpack_eq] at hfinite
    dsimp only at hfinite
    rw [if_pos hones] at hfinite
    split at hfinite <;> cases hfinite
  refine ⟨_, (parts?_eq h).trans (if_neg hfield), ?_, ?_, (h.rational_unpack (by omega)).2.2.symm⟩
  · unfold Parts.spelled
    split <;> dsimp only <;> omega
  · unfold Parts.spelled
    split <;> dsimp only <;> omega

/-- What is not finite has no parts. -/
theorem isFinite_of_parts? {p : Parts} (hp : parts? x = some p) : x.isFinite = true := by
  obtain ⟨negative, field, fraction, h⟩ := exists_spells x.toBits
  have hlt := h.field_lt
  rw [parts?_eq h] at hp
  by_cases hones : field = 2047
  · rw [if_pos hones] at hp
    cases hp
  · exact (h.rational_unpack (by omega)).2.1

theorem scaleNat_of_nonneg {m : Nat} {k : Int} (hk : 0 ≤ k) : scaleNat m k = m * 2 ^ k.toNat := by
  rw [scaleNat, if_pos hk, Nat.shiftLeft_eq]

/-- The fields put together. -/
theorem spells_or (negative : Bool) {field fraction : Nat} (hfield : field < 2 ^ 11)
    (hfraction : fraction < 2 ^ 52) :
    Spells ((if negative then (0x8000000000000000 : UInt64) else 0) ||| field.toUInt64 <<< 52 |||
      fraction.toUInt64) negative field fraction := by
  refine ⟨hfield, hfraction, ?_⟩
  have hsign : (if negative then (0x8000000000000000 : UInt64) else 0).toNat =
      negative.toNat <<< 63 := by
    cases negative <;> rfl
  have hshift : (field.toUInt64 <<< 52).toNat = field <<< 52 := by
    rw [UInt64.toNat_shiftLeft]
    simp [Nat.shiftLeft_eq]
    omega
  have hlow : fraction.toUInt64.toNat = fraction := by
    simp
    omega
  have hhigh : negative.toNat <<< 63 + field <<< 52 = (negative.toNat * 2 ^ 11 + field) <<< 52 := by
    simp only [Nat.shiftLeft_eq]
    omega
  rw [UInt64.toNat_or, UInt64.toNat_or, hsign, hshift, hlow,
    ← Nat.shiftLeft_add_eq_or_of_lt (by rw [Nat.shiftLeft_eq]; omega), hhigh,
    ← Nat.shiftLeft_add_eq_or_of_lt hfraction, Nat.shiftLeft_eq]
  omega

/-- Without an exponent field. -/
theorem spells_or_fraction (negative : Bool) (hfraction : fraction < 2 ^ 52) :
    Spells ((if negative then (0x8000000000000000 : UInt64) else 0) ||| fraction.toUInt64)
      negative 0 fraction := by
  simpa using spells_or negative (show 0 < 2 ^ 11 by decide) hfraction

theorem spells_sign (negative : Bool) :
    Spells (if negative then (0x8000000000000000 : UInt64) else 0) negative 0 0 := by
  simpa using spells_or_fraction negative (show 0 < 2 ^ 52 by decide)

namespace Parts

/-- Below the least normal number the units are the smallest that there are. -/
theorem toFloat_subnormal {m : Nat} {e : Int} (hzero : m ≠ 0) (hlow : -1074 ≤ e)
    (hsmall : (m.log2 : ℤ) + e < -1022) :
    (toFloat ⟨negative, m, e⟩).isFinite = true ∧
      Double.value (toFloat ⟨negative, m, e⟩) = value ⟨negative, m, e⟩ := by
  have hfraction : m * 2 ^ (e + 1074).toNat < 2 ^ 52 :=
    calc m * 2 ^ (e + 1074).toNat < 2 ^ (m.log2 + 1) * 2 ^ (e + 1074).toNat := by
          gcongr
          exact Nat.lt_log2_self
      _ = 2 ^ (m.log2 + 1 + (e + 1074).toNat) := (Nat.pow_add ..).symm
      _ ≤ 2 ^ 52 := Nat.pow_le_pow_right (by decide) (by omega)
  obtain ⟨hfinite, hvalue⟩ := value_ofBits (spells_or_fraction negative hfraction) (by decide)
  unfold toFloat
  dsimp only
  rw [if_neg hzero, if_neg (by omega), if_pos hsmall, scaleNat_of_nonneg (by omega)]
  refine ⟨hfinite, hvalue.trans ?_⟩
  have hscale : e + 1074 = e - -1074 := (sub_neg_eq_add ..).symm
  rw [spelled, if_pos rfl, hscale]
  exact value_mul_two_pow hlow

/-- The digits of a normal number are shifted until there are 53 of them. -/
theorem toFloat_normal {m : Nat} {e : Int} (hzero : m ≠ 0) (hm : m < 2 ^ 53) (hhigh : e ≤ 971)
    (hlarge : -1022 ≤ (m.log2 : ℤ) + e) :
    (toFloat ⟨negative, m, e⟩).isFinite = true ∧
      Double.value (toFloat ⟨negative, m, e⟩) = value ⟨negative, m, e⟩ := by
  have hlog : m.log2 ≤ 52 := Nat.le_of_lt_succ ((Nat.log2_lt hzero).mpr hm)
  obtain ⟨k, hk⟩ : ∃ k : Nat, m.log2 + k = 52 := Nat.exists_eq_add_of_le' hlog |>.imp (by omega)
  have hshift : (52 - m.log2 : ℤ).toNat = k := by omega
  have hleast : 2 ^ 52 ≤ m * 2 ^ k := by
    rw [← hk, Nat.pow_add]
    exact Nat.mul_le_mul_right _ (Nat.log2_self_le hzero)
  have hmost : m * 2 ^ k < 2 ^ 53 := by
    have hpow : 2 ^ 53 = 2 ^ (m.log2 + 1) * 2 ^ k := by
      rw [← Nat.pow_add]
      congr 1
      omega
    rw [hpow]
    gcongr
    exact Nat.lt_log2_self
  have hhidden : hiddenBit = 2 ^ 52 := rfl
  have hfield : (m.log2 + e + 1023).toNat < 2 ^ 11 := by omega
  have hfraction : m * 2 ^ k - hiddenBit < 2 ^ 52 := by omega
  obtain ⟨hfinite, hvalue⟩ := value_ofBits (spells_or negative hfield hfraction) (by omega)
  unfold toFloat
  dsimp only
  rw [if_neg hzero, if_neg (by omega), if_neg (by omega), scaleNat_of_nonneg (by omega), hshift]
  refine ⟨hfinite, hvalue.trans ?_⟩
  have hexponent : ((m.log2 + e + 1023).toNat : ℤ) - 1075 = e - k := by omega
  have hscale : k = (e - (e - k)).toNat := by omega
  rw [spelled, if_neg (by omega), hhidden, Nat.add_sub_cancel' hleast, hexponent]
  nth_rewrite 1 [hscale]
  exact value_mul_two_pow (by omega)

/-- A mantissa of at most 53 digits is not rounded. -/
theorem toFloat_exact {p : Parts} (hm : p.mantissa < 2 ^ 53) (hlow : -1074 ≤ p.exponent)
    (hhigh : p.exponent ≤ 971) : p.toFloat.isFinite = true ∧ Double.value p.toFloat = p.value := by
  obtain ⟨negative, m, e⟩ := p
  by_cases hzero : m = 0
  · obtain ⟨hfinite, hvalue⟩ := value_ofBits (spells_sign negative) (by decide)
    unfold toFloat
    dsimp only
    rw [if_pos hzero]
    exact ⟨hfinite, hvalue.trans (by simp [spelled, value, hzero])⟩
  · rcases lt_or_ge ((m.log2 : ℤ) + e) (-1022) with hsmall | hlarge
    · exact toFloat_subnormal hzero hlow hsmall
    · exact toFloat_normal hzero hm hhigh hlarge

end Parts

/-! ### Remainders -/

/-- What is left of `x` after all whole `y` have been taken off toward zero. -/
structure IsRemainder (x y r : ℚ) : Prop where
  lt : |r| < |y|
  whole : ∃ n : ℕ, (0 ≤ r ∧ x = n * |y| + r) ∨ (r ≤ 0 ∧ x = -(n * |y|) + r)

namespace Parts

/-- The units in which both numbers are counted for the division. -/
theorem value_scaleNat {a : Parts} {e : Int} (he : e ≤ a.exponent) :
    a.value = value ⟨a.negative, scaleNat a.mantissa (a.exponent - e), e⟩ := by
  rw [scaleNat_of_nonneg (by omega), value_mul_two_pow he]

theorem abs_value (p : Parts) : |p.value| = p.mantissa * 2 ^ p.exponent := by
  have hnonneg : (0 : ℚ) ≤ p.mantissa * 2 ^ p.exponent := by positivity
  unfold value
  cases p.negative
  · simp [abs_of_nonneg hnonneg]
  · simp [abs_of_nonneg hnonneg]

/-- The remainder of counting down in common units. -/
theorem isRemainder_mod (negative : Bool) {other : Bool} (m : Nat) {n : Nat} (e : Int)
    (hn : n ≠ 0) :
    IsRemainder (value ⟨negative, m, e⟩) (value ⟨other, n, e⟩) (value ⟨negative, m % n, e⟩) := by
  have hunit : (0 : ℚ) < 2 ^ e := by positivity
  have hlt : ((m % n : ℕ) : ℚ) < n := by exact_mod_cast Nat.mod_lt m (Nat.pos_of_ne_zero hn)
  have hsplit : (m : ℚ) = n * (m / n : ℕ) + (m % n : ℕ) := by
    exact_mod_cast (Nat.div_add_mod m n).symm
  constructor
  · rw [abs_value, abs_value]
    exact mul_lt_mul_of_pos_right hlt hunit
  · refine ⟨m / n, ?_⟩
    have hnonneg : (0 : ℚ) ≤ (m % n : ℕ) * 2 ^ e := by positivity
    rw [abs_value]
    cases negative
    · left
      simp only [value, Bool.false_eq_true, ↓reduceIte, one_mul]
      exact ⟨hnonneg, by rw [hsplit]; ring⟩
    · right
      simp only [value, ↓reduceIte]
      exact ⟨by linarith, by rw [hsplit]; ring⟩

end Parts

variable {y : Float}

/-- The remainder is exact. -/
theorem remainder_spec (hx : x.isFinite = true) (hy : y.isFinite = true) (hne : value y ≠ 0) :
    (remainder x y).isFinite = true ∧ IsRemainder (value x) (value y) (value (remainder x y)) := by
  obtain ⟨a, ha, hasmall, ⟨halow, hahigh⟩, havalue⟩ := exists_parts hx
  obtain ⟨b, hb, hbsmall, ⟨hblow, -⟩, hbvalue⟩ := exists_parts hy
  have hpos : b.mantissa ≠ 0 := by
    intro hzero
    rw [← hbvalue, Parts.value, hzero] at hne
    simp at hne
  have hleft := min_le_left a.exponent b.exponent
  have hright := min_le_right a.exponent b.exponent
  have hscaled : scaleNat b.mantissa (b.exponent - min a.exponent b.exponent) ≠ 0 := by
    rw [scaleNat_of_nonneg (by omega)]
    positivity
  -- one of both is not scaled, and the remainder is at most as large as that
  have hsmall : scaleNat a.mantissa (a.exponent - min a.exponent b.exponent) %
      scaleNat b.mantissa (b.exponent - min a.exponent b.exponent) < 2 ^ 53 := by
    rcases min_choice a.exponent b.exponent with h | h
    · refine (Nat.mod_le _ _).trans_lt ?_
      rw [h, sub_self, scaleNat_of_nonneg le_rfl]
      simpa using hasmall
    · refine (Nat.mod_lt _ (Nat.pos_of_ne_zero hscaled)).trans ?_
      rw [h, sub_self, scaleNat_of_nonneg le_rfl]
      simpa using hbsmall
  unfold remainder
  rw [ha, hb]
  dsimp only
  rw [if_neg hpos]
  obtain ⟨hfinite, hvalue⟩ := Parts.toFloat_exact (p := ⟨a.negative, _, _⟩) hsmall
    (le_min halow hblow) (hleft.trans hahigh)
  refine ⟨hfinite, ?_⟩
  rw [hvalue, ← havalue, ← hbvalue, Parts.value_scaleNat hleft, Parts.value_scaleNat hright]
  exact Parts.isRemainder_mod _ _ _ hscaled

/-- Only finite numbers leave a finite remainder. -/
theorem isFinite_of_remainder (h : (remainder x y).isFinite = true) : x.isFinite = true := by
  cases hx : parts? x with
  | some p => exact isFinite_of_parts? hx
  | none =>
    rw [remainder, hx] at h
    have hnan : nan.isFinite = false := rfl
    exact absurd (hnan.symm.trans h) Bool.false_ne_true

end Orrery.Double
