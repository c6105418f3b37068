import Orrery.Proofs.Finite
import Orrery.Proofs.Rounding

/-!
# Arithmetic

Sums, differences, products and quotients of finite doubles are the exact ones, rounded
(`Double.rounds_add` and so on).  A root is rounded from a number whose square falls short of the
radicand by a small part (`Double.exists_rounds_sqrt`), as the exact root need not be rational.
Magnitudes are exact (`Double.abs_exact`), and so are comparisons (`Double.lt_iff`).

Where numbers may be of any size, errors are measured against them; so are those of roots and of
their reciprocals.  Where numbers are of moderate size, errors are added up as they are (`Near`).
-/

namespace Orrery.Double

open Float.Model (UnpackedFloat Format totalExponent)
open Float.Model.UnpackedFloat

variable {u v : UnpackedFloat}

/-! ### Sums -/

theorem snd_decreaseExponent {m : Nat} {e t : Int} (ht : t ≤ e) :
    (decreaseExponent m e t).2 = t := by
  simp only [decreaseExponent]
  omega

theorem neg_apply (s : Sign) (n : ℤ) : (-s).apply n = -s.apply n := by
  cases s with
  | positive => rfl
  | negative => exact (neg_neg n).symm

theorem isRounded_add (hu : IsCanonical u) (hv : IsCanonical v) :
    IsRounded (UnpackedFloat.add .binary64 u v) (rational u + rational v) := by
  cases u with
  | infinity | notANumber => exact hu.elim
  | zero s =>
    cases v with
    | infinity | notANumber => exact hv.elim
    | zero t =>
      rw [rational_zero, rational_zero, add_zero]
      cases s <;> cases t <;> exact isRounded_self trivial
    | finite t m e hm =>
      rw [rational_zero, zero_add]
      exact isRounded_self hv
  | finite s m e hm =>
    cases v with
    | infinity | notANumber => exact hv.elim
    | zero t =>
      rw [rational_zero, add_zero]
      exact isRounded_self hu
    | finite t n f hn =>
      have hsum := isRounded_normalize (e := min e f)
        (s.apply (decreaseExponent m e (min e f)).1 + t.apply (decreaseExponent n f (min e f)).1)
        .positive
      have hleft := apply_decreaseExponent s m e (min e f)
      have hright := apply_decreaseExponent t n f (min e f)
      rw [snd_decreaseExponent (min_le_left ..)] at hleft
      rw [snd_decreaseExponent (min_le_right ..)] at hright
      rwa [Int.cast_add, add_mul, hleft, hright] at hsum

theorem unpacked_sub_eq (u v : UnpackedFloat) :
    UnpackedFloat.sub .binary64 u v = UnpackedFloat.add .binary64 u v.neg := by
  cases u with
  | notANumber => rfl
  | infinity | zero => cases v <;> rfl
  | finite s m e hm =>
    cases v with
    | notANumber | infinity | zero => rfl
    | finite t n f hn =>
      simp only [UnpackedFloat.sub, UnpackedFloat.add, UnpackedFloat.neg, neg_apply,
        Int.sub_eq_add_neg]

theorem isRounded_sub (hu : IsCanonical u) (hv : IsCanonical v) :
    IsRounded (UnpackedFloat.sub .binary64 u v) (rational u - rational v) := by
  have hcanonical : IsCanonical v.neg := by
    cases v with
    | infinity | notANumber => exact hv.elim
    | zero | finite => exact hv
  have hneg : rational v.neg = -rational v := by
    cases v with
    | infinity | notANumber | zero => exact neg_zero.symm
    | finite t n f hn =>
      rw [UnpackedFloat.neg, rational, rational, neg_apply, Int.cast_neg, neg_mul]
  rw [unpacked_sub_eq, sub_eq_add_neg, ← hneg]
  exact isRounded_add hu hcanonical

/-! ### Products, quotients and roots -/

theorem mul_apply (s t : Sign) (n k : ℤ) : (s * t).apply (n * k) = s.apply n * t.apply k := by
  cases s <;> cases t
  · exact (neg_mul_neg n k).symm
  · exact (neg_mul n k).symm
  · exact (mul_neg n k).symm
  · rfl

theorem isRounded_mul (hu : IsCanonical u) (hv : IsCanonical v) :
    IsRounded (UnpackedFloat.mul .binary64 u v) (rational u * rational v) := by
  cases u with
  | infinity | notANumber => exact hu.elim
  | zero s =>
    rw [rational_zero, zero_mul]
    cases v with
    | infinity | notANumber => exact hv.elim
    | zero | finite => exact isRounded_self trivial
  | finite s m e hm =>
    cases v with
    | infinity | notANumber => exact hv.elim
    | zero t =>
      rw [rational_zero, mul_zero]
      exact isRounded_self trivial
    | finite t n f hn =>
      have hgoal : e + f ≤ goal (m * n) (e + f) := by
        obtain ⟨-, hemin, hmfull⟩ := hu
        obtain ⟨-, hfmin, hnfull⟩ := hv
        unfold goal
        by_cases hlow : e = -1074 ∧ f = -1074
        · omega
        · have hlarge : 2 ^ 52 ≤ m * n := by
            by_cases he : e = -1074
            · exact (hnfull.resolve_right (by omega)).trans (Nat.le_mul_of_pos_left n hm)
            · exact (hmfull.resolve_right he).trans (Nat.le_mul_of_pos_right m hn)
          have hlog := (Nat.le_log2 (Nat.mul_pos hm hn).ne').mpr hlarge
          omega
      have hproduct := isRounded_exact (s * t) hgoal
      have hvalue : (((s * t).apply (m * n : ℕ) : ℤ) : ℚ) * 2 ^ (e + f) =
          rational (.finite s m e hm) * rational (.finite t n f hn) := by
        rw [rational, rational, zpow_add₀ two_ne_zero, Nat.cast_mul, mul_apply, Int.cast_mul]
        ring
      rwa [hvalue] at hproduct

theorem div_apply_one (s t : Sign) : (s / t).apply 1 = s.apply 1 * t.apply 1 := by
  cases s <;> cases t <;> rfl

/-- The quotient has 53 digits once enough of them were appended to the dividend. -/
theorem le_shiftLeft_div {m n k : Nat} (hm : m ≠ 0) (hn : 0 < n)
    (hk : 53 + n.log2 ≤ m.log2 + k) : 2 ^ 52 ≤ (m <<< k) / n := by
  have hdivisor : n < 2 ^ (n.log2 + 1) := Nat.lt_log2_self
  have hdividend : 2 ^ m.log2 ≤ m := Nat.log2_self_le hm
  rw [Nat.le_div_iff_mul_le hn, Nat.shiftLeft_eq]
  calc 2 ^ 52 * n ≤ 2 ^ 52 * 2 ^ (n.log2 + 1) := Nat.mul_le_mul_left _ hdivisor.le
    _ = 2 ^ (53 + n.log2) := by rw [← Nat.pow_add]; congr 1; omega
    _ ≤ 2 ^ (m.log2 + k) := Nat.pow_le_pow_right (by decide) hk
    _ = 2 ^ m.log2 * 2 ^ k := Nat.pow_add ..
    _ ≤ m * 2 ^ k := Nat.mul_le_mul_right _ hdividend

/-- The quotient of two numbers, with digits appended to the dividend. -/
theorem rational_div_finite {s t : Sign} {m n k : Nat} {e f target : Int} {hm : 0 < m} {hn : 0 < n}
    (hk : k = e - f - target) :
    rational (.finite s m e hm) / rational (.finite t n f hn) =
      ((s / t).apply 1 : ℤ) * ((m <<< k : ℕ) / n * 2 ^ target) := by
  have hexponent : (2 : ℚ) ^ e = 2 ^ k * 2 ^ target * 2 ^ f := by
    rw [← zpow_natCast, ← zpow_add₀ two_ne_zero, ← zpow_add₀ two_ne_zero]
    congr 1
    omega
  rw [rational, rational, apply_eq s, apply_eq t, div_apply_one, hexponent, Nat.shiftLeft_eq]
  push_cast
  cases t <;> simp only [Sign.apply] <;> push_cast <;> field_simp

theorem isRounded_div (hu : IsCanonical u) (hv : IsCanonical v) (hne : rational v ≠ 0) :
    IsRounded (UnpackedFloat.div .binary64 u v) (rational u / rational v) := by
  cases v with
  | infinity | notANumber => exact hv.elim
  | zero t => exact absurd rfl hne
  | finite t n f hn =>
    cases u with
    | infinity | notANumber => exact hu.elim
    | zero s =>
      rw [rational_zero, zero_div]
      exact isRounded_self trivial
    | finite s m e hm =>
      have hbits : Format.binary64.mantissaBits = 53 := rfl
      have hmin : Format.binary64.minExponent = -1074 := rfl
      rw [UnpackedFloat.div, divCore]
      dsimp only
      generalize htarget : min (e - f) (Format.binary64.targetExponent
        (totalExponent m e - totalExponent n f)) = target
      generalize hshift : (e - f - target).toNat = k
      rw [Format.targetExponent, hbits, hmin] at htarget
      unfold totalExponent at htarget
      have hgoal : target ≤ goal ((m <<< k) / n) target := by
        by_cases hlow : target ≤ -1074
        · exact hlow.trans (le_max_right ..)
        · have hfull := le_shiftLeft_div hm.ne' hn (k := k) (by omega)
          have hlog := (Nat.le_log2 (by omega)).mpr hfull
          unfold goal
          omega
      have hpos : (0 : ℚ) < n := by exact_mod_cast hn
      have hunit : (0 : ℚ) < 2 ^ target := by positivity
      have hlow : (((m <<< k) / n : ℕ) : ℚ) * 2 ^ target ≤ (m <<< k : ℕ) / n * 2 ^ target := by
        gcongr
        exact Nat.cast_div_le
      have hhigh : ((m <<< k : ℕ) / n : ℚ) * 2 ^ target ≤
          (((m <<< k) / n : ℕ) + 1) * 2 ^ target := by
        gcongr
        rw [div_le_iff₀ hpos]
        exact_mod_cast (Nat.lt_mul_of_div_lt (Nat.lt_succ_self _) hn).le
      have hvalue : rational (.finite s m e hm) / rational (.finite t n f hn) =
          ((s / t).apply 1 : ℤ) * ((m <<< k : ℕ) / n * 2 ^ target) := rational_div_finite (by omega)
      rw [hvalue]
      exact isRounded_roundWithAccuracy _ hgoal _ hlow hhigh

/-- The root has 53 digits once enough of them were appended to the radicand. -/
theorem le_sqrt_shiftLeft {m k : Nat} (hm : m ≠ 0) (hk : 104 ≤ m.log2 + k) :
    2 ^ 52 ≤ (m <<< k).sqrt := by
  have hradicand : 2 ^ 52 * 2 ^ 52 ≤ m <<< k := by
    rw [Nat.shiftLeft_eq]
    calc 2 ^ 52 * 2 ^ 52 ≤ 2 ^ (m.log2 + k) := by
          rw [← Nat.pow_add]
          exact Nat.pow_le_pow_right (by decide) hk
      _ = 2 ^ m.log2 * 2 ^ k := Nat.pow_add ..
      _ ≤ m * 2 ^ k := Nat.mul_le_mul_right _ (Nat.log2_self_le hm)
  have hnext := Nat.lt_succ_sqrt (m <<< k)
  by_contra hsmall
  have hle : (m <<< k).sqrt.succ ≤ 2 ^ 52 := by omega
  exact absurd (hradicand.trans_lt hnext) (Nat.mul_le_mul hle hle).not_gt

/-- A number with 53 digits is close to the next one. -/
theorem cast_le_of_lt_succ_sq {n root : Nat} (hroot : 2 ^ 52 ≤ root)
    (hn : n < root.succ * root.succ) : (n : ℚ) ≤ (1 + 2 * roundoff) * (root * root : ℕ) := by
  have hdigits : roundoff * 2 ^ 51 = 1 := by
    rw [roundoff, ← zpow_natCast, ← zpow_add₀ two_ne_zero]
    rfl
  have hlarge : (2 : ℚ) ^ 52 ≤ root := by exact_mod_cast hroot
  have hone : (1 : ℚ) ≤ root := le_trans (by norm_num) hlarge
  have hfour : 4 ≤ 2 * roundoff * root := by
    have := mul_le_mul_of_nonneg_left hlarge roundoff_pos.le
    linarith
  have hstep : 4 * (root : ℚ) ≤ 2 * roundoff * root * root :=
    mul_le_mul_of_nonneg_right hfour (by positivity)
  have hcast : (n : ℚ) ≤ (root + 1) * (root + 1) := by exact_mod_cast hn.le
  push_cast
  linarith

/-- A number, with digits appended to it. -/
theorem rational_shiftLeft {m k : Nat} {e target : Int} {hm : 0 < m} (hk : k = e - 2 * target) :
    rational (.finite .positive m e hm) = (m <<< k : ℕ) * (2 ^ target * 2 ^ target) := by
  have hexponent : (2 : ℚ) ^ e = 2 ^ k * (2 ^ target * 2 ^ target) := by
    rw [← zpow_natCast, ← zpow_add₀ two_ne_zero, ← zpow_add₀ two_ne_zero]
    congr 1
    omega
  rw [rational, hexponent, Nat.shiftLeft_eq, Sign.apply]
  push_cast
  ring

/-- The root is rounded from a number whose square falls short of the radicand by a small part. -/
theorem exists_isRounded_sqrt (hu : IsCanonical u) (hpos : 0 ≤ rational u) :
    ∃ q, IsRounded (UnpackedFloat.sqrt .binary64 u) q ∧ 0 ≤ q ∧ q * q ≤ rational u ∧
      rational u ≤ (1 + 2 * roundoff) * (q * q) := by
  cases u with
  | infinity | notANumber => exact hu.elim
  | zero s => exact ⟨0, isRounded_self trivial, by simp⟩
  | finite s m e hm =>
    cases s with
    | negative =>
      have hneg : rational (.finite .negative m e hm) < 0 := by
        rw [rational_negative, neg_lt_zero]
        positivity
      exact absurd hpos hneg.not_ge
    | positive =>
      have hbits : Format.binary64.mantissaBits = 53 := rfl
      have hmin : Format.binary64.minExponent = -1074 := rfl
      have hhalf : ∀ i : ℤ, i.ediv 2 = i / 2 := fun _ => rfl
      rw [UnpackedFloat.sqrt, sqrtCore]
      dsimp only
      generalize htarget : min (e.ediv 2) (Format.binary64.targetExponent
        ((totalExponent m e + 1).ediv 2)) = target
      generalize hshift : (e - 2 * target).toNat = k
      rw [Format.targetExponent, hbits, hmin, hhalf, hhalf, totalExponent] at htarget
      obtain ⟨-, hlowest, -⟩ := hu
      have hradicand : rational (.finite .positive m e hm) =
          (m <<< k : ℕ) * (2 ^ target * 2 ^ target) := rational_shiftLeft (by omega)
      have hroot := le_sqrt_shiftLeft hm.ne' (k := k) (by omega)
      have hbelow : (((m <<< k).sqrt * (m <<< k).sqrt : ℕ) : ℚ) ≤ (m <<< k : ℕ) := by
        exact_mod_cast Nat.sqrt_le (m <<< k)
      have habove := Nat.lt_succ_sqrt (m <<< k)
      generalize (m <<< k).sqrt = root at *
      have hgoal : target ≤ goal root target := by
        have hlog := (Nat.le_log2 (by omega)).mpr hroot
        unfold goal
        omega
      have hunit : (0 : ℚ) < 2 ^ target := by positivity
      have hsquare : (root * 2 ^ target * (root * 2 ^ target) : ℚ) =
          (root * root : ℕ) * (2 ^ target * 2 ^ target) := by
        push_cast
        ring
      refine ⟨root * 2 ^ target, ?_, by positivity, ?_, ?_⟩
      · have hrounded := isRounded_roundWithAccuracy .positive hgoal
          (if m <<< k - root * root = 0 then .exact
            else .inexact (if m <<< k - root * root ≤ root then .lt else .gt))
          (le_refl ((root : ℚ) * 2 ^ target)) (by linarith)
        rwa [Sign.apply, Int.cast_one, one_mul] at hrounded
      · rw [hradicand, hsquare]
        gcongr
      · rw [hradicand, hsquare, ← mul_assoc (1 + 2 * roundoff)]
        exact mul_le_mul_of_nonneg_right (cast_le_of_lt_succ_sq hroot habove) (by positivity)

/-! ### Comparisons -/

theorem compare_then_eq_lt_iff {e f : Int} {m n : Nat} :
    (compare e f).then (compare m n) = .lt ↔ e < f ∨ e = f ∧ m < n := by
  rw [Ordering.then_eq_lt, compare_lt_iff_lt, compare_eq_iff_eq, compare_lt_iff_lt]

/-- Of canonical numbers the one with the larger exponent is larger. -/
theorem magnitude_lt_of_lt {s t : Sign} {m n : Nat} {e f : Int} {hm : 0 < m} {hn : 0 < n}
    (hu : IsCanonical (.finite s m e hm)) (hv : IsCanonical (.finite t n f hn)) (h : e < f) :
    (m : ℚ) * 2 ^ e < n * 2 ^ f := by
  obtain ⟨hlt, hlowest, -⟩ := hu
  obtain ⟨-, -, hfull⟩ := hv
  have hm : (m : ℚ) < 2 ^ 53 := by exact_mod_cast hlt
  have hn : (2 : ℚ) ^ 52 ≤ n := by exact_mod_cast hfull.resolve_right (by omega)
  calc (m : ℚ) * 2 ^ e < 2 ^ 53 * 2 ^ e := by gcongr
    _ = 2 ^ 52 * 2 ^ (e + 1) := by rw [zpow_add_one₀ two_ne_zero]; ring
    _ ≤ n * 2 ^ f := by gcongr; exacts [one_le_two, h]

theorem magnitude_lt_iff {s t : Sign} {m n : Nat} {e f : Int} {hm : 0 < m} {hn : 0 < n}
    (hu : IsCanonical (.finite s m e hm)) (hv : IsCanonical (.finite t n f hn)) :
    (compare e f).then (compare m n) = .lt ↔ (m : ℚ) * 2 ^ e < n * 2 ^ f := by
  rw [compare_then_eq_lt_iff]
  rcases lt_trichotomy e f with h | rfl | h
  · exact iff_of_true (.inl h) (magnitude_lt_of_lt hu hv h)
  · have hunit : (0 : ℚ) < 2 ^ e := by positivity
    rw [mul_lt_mul_iff_left₀ hunit, Nat.cast_lt]
    simp
  · exact iff_of_false (by omega) (magnitude_lt_of_lt hv hu h).not_gt

theorem unpacked_lt_iff (hu : IsCanonical u) (hv : IsCanonical v) :
    u.lt v = true ↔ rational u < rational v := by
  have hpos : ∀ {m : ℕ} {e : ℤ}, 0 < m → (0 : ℚ) < m * 2 ^ e :=
    fun h => mul_pos (by exact_mod_cast h) (by positivity)
  cases u with
  | infinity | notANumber => exact hu.elim
  | zero s =>
    cases v with
    | infinity | notANumber => exact hv.elim
    | zero t => exact iff_of_false (by simp [UnpackedFloat.lt, UnpackedFloat.compare]) (lt_irrefl 0)
    | finite t n f hn =>
      rw [rational_zero]
      cases t with
      | positive =>
        rw [rational_positive]
        exact iff_of_true rfl (hpos hn)
      | negative =>
        refine iff_of_false (by simp [UnpackedFloat.lt, UnpackedFloat.compare]) ?_
        rw [rational_negative]
        exact (neg_neg_of_pos (hpos hn)).not_gt
  | finite s m e hm =>
    cases v with
    | infinity | notANumber => exact hv.elim
    | zero t =>
      rw [rational_zero]
      cases s with
      | negative =>
        rw [rational_negative]
        exact iff_of_true rfl (neg_neg_of_pos (hpos hm))
      | positive =>
        refine iff_of_false (by simp [UnpackedFloat.lt, UnpackedFloat.compare]) ?_
        rw [rational_positive]
        exact (hpos hm).not_gt
    | finite t n f hn =>
      cases s <;> cases t
      case negative.negative =>
        have hmagnitude := magnitude_lt_iff hv hu
        rw [rational_negative, rational_negative, neg_lt_neg_iff, ← hmagnitude]
        simp [UnpackedFloat.lt, UnpackedFloat.compare, Ordering.swap_then, Int.compare_swap,
          Nat.compare_swap]
      case negative.positive =>
        rw [rational_negative, rational_positive]
        exact iff_of_true rfl ((neg_neg_of_pos (hpos hm)).trans (hpos hn))
      case positive.negative =>
        refine iff_of_false (by simp [UnpackedFloat.lt, UnpackedFloat.compare]) ?_
        rw [rational_negative, rational_positive]
        exact ((neg_neg_of_pos (hpos hn)).trans (hpos hm)).not_gt
      case positive.positive =>
        have hmagnitude := magnitude_lt_iff hu hv
        rw [rational_positive, rational_positive, ← hmagnitude]
        simp [UnpackedFloat.lt, UnpackedFloat.compare]

/-! ### Doubles -/

section Doubles

variable {x y : Float}

/-- No finite double is beyond the reciprocal of a quarter of the least normal number. -/
theorem abs_value_mul_leastNormal_le (hx : x.isFinite = true) : |value x| * leastNormal ≤ 4 := by
  have hu := isCanonical_unpack hx
  unfold value
  cases hunpack : x.toModel.unpack with
  | infinity | notANumber | zero => simp [rational]
  | finite s m e hm =>
    rw [hunpack] at hu
    have hexponent : (2 : ℚ) ^ e ≤ 2 ^ (971 : ℤ) :=
      zpow_le_zpow_right₀ one_le_two (exponent_unpack_le hunpack)
    have hmantissa : (m : ℚ) ≤ 2 ^ (53 : ℤ) := by exact_mod_cast hu.1.le
    rw [abs_rational_finite]
    calc (m : ℚ) * 2 ^ e * leastNormal
        ≤ 2 ^ (53 : ℤ) * 2 ^ (971 : ℤ) * 2 ^ (-1022 : ℤ) := by rw [leastNormal]; gcongr
      _ = 4 := by
        rw [← zpow_add₀ two_ne_zero, ← zpow_add₀ two_ne_zero]
        norm_num

theorem rounds_add (hx : x.isFinite = true) (hy : y.isFinite = true) :
    Rounds (x + y) (value x + value y) :=
  (isRounded_add (isCanonical_unpack hx) (isCanonical_unpack hy)).pack

theorem rounds_sub (hx : x.isFinite = true) (hy : y.isFinite = true) :
    Rounds (x - y) (value x - value y) :=
  (isRounded_sub (isCanonical_unpack hx) (isCanonical_unpack hy)).pack

theorem rounds_mul (hx : x.isFinite = true) (hy : y.isFinite = true) :
    Rounds (x * y) (value x * value y) :=
  (isRounded_mul (isCanonical_unpack hx) (isCanonical_unpack hy)).pack

theorem rounds_div (hx : x.isFinite = true) (hy : y.isFinite = true) (hne : value y ≠ 0) :
    Rounds (x / y) (value x / value y) :=
  (isRounded_div (isCanonical_unpack hx) (isCanonical_unpack hy) hne).pack

/-- No number below zero has a root. -/
theorem nonneg_of_isFinite_sqrt (h : x.sqrt.isFinite = true) : 0 ≤ value x := by
  have hroot : (UnpackedFloat.sqrt .binary64 x.toModel.unpack).isFinite = true := isFinite_of_pack h
  unfold value
  cases hunpack : x.toModel.unpack with
  | infinity | notANumber | zero => exact le_rfl
  | finite s m e hm =>
    cases s with
    | positive =>
      rw [rational_positive]
      positivity
    | negative =>
      rw [hunpack] at hroot
      cases hroot

theorem exists_rounds_sqrt (hx : x.isFinite = true) (hpos : 0 ≤ value x) :
    ∃ q, Rounds x.sqrt q ∧ 0 ≤ q ∧ q * q ≤ value x ∧
      value x ≤ (1 + 2 * roundoff) * (q * q) := by
  obtain ⟨q, hrounded, hq⟩ := exists_isRounded_sqrt (isCanonical_unpack hx) hpos
  exact ⟨q, hrounded.pack, hq⟩

theorem abs_exact (hx : x.isFinite = true) : x.abs.isFinite = true ∧ value x.abs = |value x| := by
  have hu := isCanonical_unpack hx
  have hback : (Float.Model.pack x.toModel.unpack.abs).unpack = x.toModel.unpack.abs := by
    cases hunpack : x.toModel.unpack with
    | infinity | notANumber =>
      rw [hunpack] at hu
      exact hu.elim
    | zero s => exact unpack_pack_zero .positive
    | finite s m e hm =>
      rw [hunpack] at hu
      exact unpack_pack (s := .positive) hu (exponent_unpack_le hunpack)
  have habs : ∀ u : UnpackedFloat, u.isFinite = u.abs.isFinite ∧ rational u.abs = |rational u| := by
    intro u
    cases u with
    | infinity | notANumber | zero => exact ⟨rfl, abs_zero.symm⟩
    | finite s m e hm =>
      exact ⟨rfl, by rw [UnpackedFloat.abs, rational_positive, abs_rational_finite]⟩
  obtain ⟨hsame, hvalue⟩ := value_of_unpack_pack hback
  exact ⟨hsame.trans ((habs _).1.symm.trans hx), hvalue.trans (habs _).2⟩

theorem lt_iff (hx : x.isFinite = true) (hy : y.isFinite = true) :
    x.lt y = true ↔ value x < value y := by
  rw [value, value, ← unpacked_lt_iff (isCanonical_unpack hx) (isCanonical_unpack hy)]
  exact decide_eq_true_iff

theorem value_tolerance : 9 / 10 ^ 7 ≤ value 1e-6 ∧ value 1e-6 ≤ 11 / 10 ^ 7 := by
  have hunpack : (1e-6 : Float).toModel.unpack =
      .finite .positive 4722366482869645 (-72) (by decide) := rfl
  rw [value, hunpack, rational_positive]
  norm_num

theorem value_zero : value 0.0 = 0 := rfl

theorem value_one : value 1.0 = 1 := by
  have hunpack : (1.0 : Float).toModel.unpack = .finite .positive (2 ^ 52) (-52) (by decide) := rfl
  rw [value, hunpack, rational_positive]
  norm_num

/-! ### Roots and reciprocals -/

/-- A root whose square is almost a normal number is far above the least one. -/
theorem leastNormal_le_root {q r : ℚ} (hq : 0 ≤ q) (hr : leastNormal ≤ r)
    (hnear : r ≤ (1 + 2 * roundoff) * (q * q)) : leastNormal ≤ q := by
  have hleast := leastNormal_pos
  by_contra hlt
  have hsquare : q * q ≤ leastNormal * (1 / 16) :=
    mul_le_mul (by linarith) (by linarith [leastNormal_le]) hq hleast.le
  have htwice : (1 + 2 * roundoff) * (q * q) ≤ 2 * (q * q) :=
    mul_le_mul_of_nonneg_right (by linarith [roundoff_le]) (mul_self_nonneg q)
  linarith

/-- A relative error of a root becomes one of its square. -/
theorem abs_sub_square_le {q r root : ℚ} (hq : 0 < q) (hlow : q * q ≤ r)
    (hhigh : r ≤ (1 + 2 * roundoff) * (q * q)) (hnear : |root - q| ≤ 2 * roundoff * q) :
    0 < root ∧ |r - root * root| ≤ 16 * roundoff * (root * root) := by
  have hroundoff := roundoff_pos
  have htiny : 2 * roundoff * q ≤ q / 100 := by
    have := mul_le_mul_of_nonneg_right roundoff_le hq.le
    linarith
  obtain ⟨hbelow, habove⟩ := abs_le.mp hnear
  refine ⟨by linarith, ?_⟩
  have hsquares : |q * q - root * root| ≤ 2 * roundoff * q * (3 * q) := by
    have hfactor : q * q - root * root = -((root - q) * (q + root)) := by ring
    rw [hfactor, abs_neg, abs_mul]
    exact mul_le_mul hnear (abs_le.mpr ⟨by linarith, by linarith⟩) (abs_nonneg _) (by positivity)
  have hgrow : q * q ≤ 2 * (root * root) := by
    have hle : q ≤ 11 / 10 * root := by linarith
    have hsquare := mul_self_le_mul_self hq.le hle
    linarith [mul_self_nonneg root]
  have hscale := mul_le_mul_of_nonneg_left hgrow hroundoff.le
  have hfirst : |r - q * q| ≤ 2 * roundoff * (q * q) := by
    have hnonneg : 0 ≤ 2 * roundoff * (q * q) := by positivity
    exact abs_le.mpr ⟨by linarith, by linarith⟩
  calc |r - root * root| ≤ |r - q * q| + |q * q - root * root| := abs_sub_le ..
    _ ≤ 16 * roundoff * (root * root) := by linarith

/-- The square of the root is close to the radicand, unless that is very small. -/
theorem sqrt_near (h : x.sqrt.isFinite = true) (hlarge : leastNormal ≤ value x) :
    0 < value x.sqrt ∧
      |value x - value x.sqrt * value x.sqrt| ≤
        16 * roundoff * (value x.sqrt * value x.sqrt) := by
  obtain ⟨q, hrounds, hq, hlow, hhigh⟩ :=
    exists_rounds_sqrt (isFinite_of_sqrt h) (nonneg_of_isFinite_sqrt h)
  have hroot := leastNormal_le_root hq hlarge hhigh
  have hnear : |value x.sqrt - q| ≤ 2 * roundoff * q :=
    calc |value x.sqrt - q| ≤ roundoff * (|q| + leastNormal) := hrounds.near h
      _ ≤ roundoff * (q + q) := by
        rw [abs_of_nonneg hq]
        exact mul_le_mul_of_nonneg_left (by linarith) roundoff_pos.le
      _ = 2 * roundoff * q := by ring
  exact abs_sub_square_le (leastNormal_pos.trans_le hroot) hlow hhigh hnear

/-- The least normal number is above the square of `2 ^ (-900)`. -/
theorem two_le_two_pow_mul_leastNormal : 2 ≤ 2 ^ 900 * 2 ^ 900 * leastNormal := by
  have hsum : (2 : ℚ) ^ (778 : ℤ) = 2 ^ (900 : ℤ) * 2 ^ (900 : ℤ) * 2 ^ (-1022 : ℤ) := by
    rw [← zpow_add₀ two_ne_zero, ← zpow_add₀ two_ne_zero]
    rfl
  have htwo : (2 : ℚ) ^ (1 : ℤ) ≤ 2 ^ (778 : ℤ) := zpow_le_zpow_right₀ one_le_two (by decide)
  rw [zpow_one, hsum] at htwo
  rw [leastNormal]
  exact_mod_cast htwo

/-- A root is neither close to the largest double nor close to the least normal one. -/
theorem sqrt_moderate (h : x.sqrt.isFinite = true) (hlarge : leastNormal ≤ value x) :
    leastNormal * value x.sqrt ≤ 1 ∧ 1 ≤ 2 ^ 900 * value x.sqrt := by
  obtain ⟨hpos, hnear⟩ := sqrt_near h hlarge
  have hbound := abs_value_mul_leastNormal_le (isFinite_of_sqrt h)
  have hleast := leastNormal_pos
  have hsixteenth := leastNormal_le
  rw [abs_of_pos (hleast.trans_le hlarge)] at hbound
  generalize value x.sqrt = root at *
  generalize value x = radicand at *
  have hsquare : 0 < root * root := mul_pos hpos hpos
  have htiny := mul_le_mul_of_nonneg_right roundoff_le hsquare.le
  obtain ⟨hbelow, habove⟩ := abs_le.mp hnear
  constructor
  · by_contra hlt
    have hone : 1 ≤ leastNormal * root * (leastNormal * root) :=
      one_le_mul_of_one_le_of_one_le (by linarith) (by linarith)
    have hfive : root * root * leastNormal ≤ 5 := by
      have hle : root * root ≤ 5 / 4 * radicand := by linarith
      have := mul_le_mul_of_nonneg_right hle hleast.le
      linarith
    have := mul_le_mul_of_nonneg_right hfive hleast.le
    linarith
  · have hpower := two_le_two_pow_mul_leastNormal
    have hbig : (0 : ℚ) < 2 ^ 900 := by positivity
    generalize (2 : ℚ) ^ 900 = big at *
    by_contra hlt
    have hone : big * root * (big * root) < 1 :=
      mul_lt_one_of_nonneg_of_lt_one_left (by positivity) (by linarith) (by linarith)
    have hhalf : leastNormal ≤ 2 * (root * root) := by linarith
    have := mul_le_mul_of_nonneg_left hhalf (by positivity : 0 ≤ big * big)
    linarith

/-- The reciprocal of a root, multiplied by the root, is close to one. -/
theorem one_div_sqrt_near (h : x.sqrt.isFinite = true) (hlarge : leastNormal ≤ value x) :
    (1.0 / x.sqrt).isFinite = true ∧
      |value (1.0 / x.sqrt) * value x.sqrt - 1| ≤ 2 * roundoff := by
  obtain ⟨hpos, hnear⟩ := sqrt_near h hlarge
  obtain ⟨hsmall, hlarge⟩ := sqrt_moderate h hlarge
  have hone : (1.0 : Float).isFinite = true := rfl
  have hrounds := rounds_div hone h hpos.ne'
  rw [value_one] at hrounds
  generalize value x.sqrt = root at *
  have habs : |1 / root| = 1 / root := abs_of_pos (by positivity)
  have hfinite : (1.0 / x.sqrt).isFinite = true := by
    refine hrounds.finite ?_
    rwa [habs, div_le_iff₀ hpos]
  refine ⟨hfinite, ?_⟩
  have hnear := hrounds.near hfinite
  have hleast : leastNormal ≤ 1 / root := (le_div_iff₀ hpos).mpr hsmall
  have hstep : value (1.0 / x.sqrt) * root - 1 = (value (1.0 / x.sqrt) - 1 / root) * root := by
    field_simp
  rw [habs] at hnear
  rw [hstep, abs_mul, abs_of_pos hpos]
  calc _ ≤ roundoff * (1 / root + 1 / root) * root := by
        gcongr
        exact hnear.trans (mul_le_mul_of_nonneg_left (by linarith) roundoff_pos.le)
    _ = 2 * roundoff := by field_simp; ring

/-! ### Numbers of moderate size -/

section Nearness

variable {r s m n e f : ℚ}

theorem Rounds.moderate {t : ℚ} (hx : Rounds x t) (ht : |t| ≤ 100) :
    x.isFinite = true ∧ |value x - t| ≤ 1 / 10 ^ 12 := by
  have hmoderate : (100 : ℚ) ≤ 2 ^ 900 :=
    calc (100 : ℚ) ≤ 2 ^ 7 := by norm_num
      _ ≤ 2 ^ 900 := pow_le_pow_right₀ one_le_two (by decide)
  have hfinite := hx.finite (ht.trans hmoderate)
  have hsmall := roundoff_mul_le (abs_nonneg t) ht
  exact ⟨hfinite, (hx.near hfinite).trans (hsmall.trans (by norm_num))⟩

/-- `x` is a double close to `r`, which is not large. -/
structure Near (x : Float) (r size error : ℚ) : Prop where
  finite : x.isFinite = true
  size : |r| ≤ size
  error : |value x - r| ≤ error

theorem near_self (hx : x.isFinite = true) (h : |value x| ≤ m) : Near x (value x) m 0 :=
  ⟨hx, h, by simp⟩

theorem near_one : Near 1.0 1 1 0 := by
  have hself := near_self (x := 1.0) (m := 1) rfl (by rw [value_one, abs_one])
  rwa [value_one] at hself

theorem Near.abs_value_le (hx : Near x r m e) : |value x| ≤ m + e := by
  have htriangle := abs_add_le r (value x - r)
  rw [add_sub_cancel] at htriangle
  linarith [hx.size, hx.error]

theorem Near.of_rounds {t : ℚ} (hx : Rounds x t) (ht : |t| ≤ 100) (hr : |r| ≤ m)
    (hnear : |t - r| ≤ e) : Near x r m (e + 1 / 10 ^ 12) := by
  obtain ⟨hfinite, herror⟩ := hx.moderate ht
  refine ⟨hfinite, hr, ?_⟩
  calc |value x - r| ≤ |value x - t| + |t - r| := abs_sub_le ..
    _ ≤ e + 1 / 10 ^ 12 := by linarith

theorem Near.add (hx : Near x r m e) (hy : Near y s n f) (h : m + e + (n + f) ≤ 100) :
    Near (x + y) (r + s) (m + n) (e + f + 1 / 10 ^ 12) := by
  refine .of_rounds (rounds_add hx.finite hy.finite) ?_ ?_ ?_
  · exact (abs_add_le ..).trans ((add_le_add hx.abs_value_le hy.abs_value_le).trans h)
  · exact (abs_add_le ..).trans (add_le_add hx.size hy.size)
  · rw [add_sub_add_comm]
    exact (abs_add_le ..).trans (add_le_add hx.error hy.error)

theorem Near.sub (hx : Near x r m e) (hy : Near y s n f) (h : m + e + (n + f) ≤ 100) :
    Near (x - y) (r - s) (m + n) (e + f + 1 / 10 ^ 12) := by
  refine .of_rounds (rounds_sub hx.finite hy.finite) ?_ ?_ ?_
  · exact (abs_sub ..).trans ((add_le_add hx.abs_value_le hy.abs_value_le).trans h)
  · exact (abs_sub ..).trans (add_le_add hx.size hy.size)
  · rw [sub_sub_sub_comm]
    exact (abs_sub ..).trans (add_le_add hx.error hy.error)

theorem Near.mul (hx : Near x r m e) (hy : Near y s n f) (h : (m + e) * (n + f) ≤ 100) :
    Near (x * y) (r * s) (m * n) (e * (n + f) + m * f + 1 / 10 ^ 12) := by
  have hsize := (abs_nonneg r).trans hx.size
  have hvalue := (abs_nonneg _).trans hx.abs_value_le
  refine .of_rounds (rounds_mul hx.finite hy.finite) ?_ ?_ ?_
  · rw [abs_mul]
    exact (mul_le_mul hx.abs_value_le hy.abs_value_le (abs_nonneg _) hvalue).trans h
  · rw [abs_mul]
    exact mul_le_mul hx.size hy.size (abs_nonneg _) hsize
  · have hsplit : value x * value y - r * s = (value x - r) * value y + r * (value y - s) := by
      ring
    rw [hsplit]
    refine (abs_add_le ..).trans ?_
    rw [abs_mul, abs_mul]
    exact add_le_add
      (mul_le_mul hx.error hy.abs_value_le (abs_nonneg _) ((abs_nonneg _).trans hx.error))
      (mul_le_mul hx.size hy.error (abs_nonneg _) hsize)

end Nearness

end Doubles

end Orrery.Double
