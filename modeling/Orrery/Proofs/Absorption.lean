import Orrery.Proofs.Orientation

/-!
# Absorption

A sum of doubles may be equal to one of its summands though the other one is not zero.  Then that
one is a very small part of the first (`Double.abs_value_le_of_absorbed`).  So a step along a unit
vector that leads nowhere is very short beside the coordinates that it was added to
(`Vec3.dwarfs_of_absorbed`).

A unit vector that is turned about another one and normalized again may come out as it was, too.
Then it was hardly to be moved at all: it is along the axis, or the angle is that of no turn or of
whole ones (`Vec3.idles_of_absorbed`).  How close it is to that is as close as the rounding errors
of turning are estimated (`Vec3.near_turned_coord`).
-/

namespace Orrery

open Double

/-! ### Equal numbers -/

namespace Double

open Float.Model (UnpackedFloat)

variable {x y : Float}

/-- Numbers that compare equal stand for the same number, if one of them is finite. -/
theorem value_eq_of_eq (h : (x == y) = true) (hy : y.isFinite = true) :
    x.isFinite = true ∧ value x = value y := by
  have hunpacked : ∀ u v : UnpackedFloat, u.beq v = true → v.isFinite = true →
      u.isFinite = true ∧ rational u = rational v := by
    intro u v huv hv
    cases u with
    | notANumber => cases huv
    | infinity s =>
      cases v with
      | notANumber | infinity => cases hv
      | zero t => cases s <;> cases huv
      | finite t n f hn => cases s <;> cases huv
    | zero s =>
      cases v with
      | notANumber | infinity => cases hv
      | zero t => exact ⟨rfl, rfl⟩
      | finite t n f hn => cases t <;> cases huv
    | finite s m e hm =>
      cases v with
      | notANumber | infinity => cases hv
      | zero t => cases s <;> cases huv
      | finite t n f hn =>
        refine ⟨rfl, ?_⟩
        cases s <;> cases t <;>
          simp [UnpackedFloat.beq, UnpackedFloat.compare, Ordering.then_eq_eq] at huv
        all_goals
          obtain ⟨rfl, rfl⟩ := huv
          rfl
  exact hunpacked x.toModel.unpack y.toModel.unpack h hy

theorem eq_self_of_isFinite (h : x.isFinite = true) : (x == x) = true := by
  have hunpacked : ∀ u : UnpackedFloat, u.isFinite = true → u.beq u = true := by
    intro u hu
    cases u with
    | notANumber | infinity => cases hu
    | zero => rfl
    | finite s m e hm => cases s <;> simp [UnpackedFloat.beq, UnpackedFloat.compare]
  exact hunpacked x.toModel.unpack h

/-- A summand that the sum does without is a very small part of the other summand, or of the least
normal number. -/
theorem abs_value_le_of_absorbed (hx : x.isFinite = true) (h : (x + y == x) = true) :
    y.isFinite = true ∧ |value y| ≤ 2 * roundoff * (|value x| + leastNormal) := by
  obtain ⟨hsum, hsame⟩ := value_eq_of_eq h hx
  have hy := (isFinite_of_add hsum).2
  have hnear := (rounds_add hx hy).near hsum
  rw [hsame, sub_add_cancel_left, abs_neg] at hnear
  have hgrow : roundoff * (|value x + value y| + leastNormal) ≤
      roundoff * (|value x| + |value y| + leastNormal) := by
    have := roundoff_pos
    gcongr
    exact abs_add_le ..
  have htiny : roundoff * |value y| ≤ |value y| / 2 := by
    have := mul_le_mul_of_nonneg_right roundoff_le (abs_nonneg (value y))
    linarith [abs_nonneg (value y)]
  refine ⟨hy, ?_⟩
  linarith

end Double

/-! ### Steps -/

namespace Vec3

variable {v w d : Point}

theorem sameAs_iff : v.sameAs w = true ↔
    (v.x == w.x) = true ∧ (v.y == w.y) = true ∧ (v.z == w.z) = true := by
  unfold sameAs
  simp only [Bool.and_eq_true, and_assoc]
  rfl

theorem sameAs_self (h : v.isFinite = true) : v.sameAs v = true := by
  obtain ⟨hx, hy, hz⟩ := isFinite_iff_coords.mp h
  exact sameAs_iff.mpr
    ⟨eq_self_of_isFinite hx, eq_self_of_isFinite hy, eq_self_of_isFinite hz⟩

/-- The step is very short beside the coordinates: however large these are at most, it is at most a
small part of that, or of the least normal number. -/
def Dwarfs (v : Point) (step : Float) : Prop :=
  ∀ b, (∀ x ∈ v.numbers, |value x| ≤ b) → |value step| ≤ 8 * roundoff * (b + leastNormal)

/-- The same for one coordinate of the step. -/
theorem abs_mul_le_of_absorbed {x d s : Float} {b : ℚ} (hx : x.isFinite = true) (hb : |value x| ≤ b)
    (h : (x + d * s == x) = true) : |value d * value s| ≤ 4 * roundoff * (b + leastNormal) := by
  obtain ⟨hproduct, hsmall⟩ := abs_value_le_of_absorbed hx h
  obtain ⟨hd, hs⟩ := isFinite_of_mul hproduct
  have hnear := (rounds_mul hd hs).near hproduct
  have hpos := roundoff_pos
  have hleast := leastNormal_pos
  have htop : 2 * roundoff * (|value x| + leastNormal) ≤ 2 * roundoff * (b + leastNormal) := by
    gcongr
  have htriangle := abs_sub_abs_le_abs_sub (value d * value s) (value (d * s))
  rw [abs_sub_comm] at htriangle
  have htiny : roundoff * |value d * value s| ≤ |value d * value s| / 10 := by
    have := mul_le_mul_of_nonneg_right roundoff_le (abs_nonneg (value d * value s))
    linarith [abs_nonneg (value d * value s)]
  have hrest : roundoff * leastNormal ≤ roundoff * (b + leastNormal) := by
    have := (abs_nonneg _).trans hb
    gcongr
    linarith
  linarith [mul_pos hpos hleast]

/-- A step along a unit vector that leads nowhere is very short. -/
theorem dwarfs_of_absorbed {step : Float} (hv : v.isFinite = true) (hd : d.isNormalized = true)
    (h : (v + d * step).sameAs v = true) : v.Dwarfs step := by
  intro b hb
  obtain ⟨hx, hy, hz⟩ := isFinite_iff_coords.mp hv
  obtain ⟨hxsame, hysame, hzsame⟩ := sameAs_iff.mp h
  have hx := abs_mul_le_of_absorbed hx (hb v.x (by simp [numbers])) hxsame
  have hy := abs_mul_le_of_absorbed hy (hb v.y (by simp [numbers])) hysame
  have hz := abs_mul_le_of_absorbed hz (hb v.z (by simp [numbers])) hzsame
  obtain ⟨-, hunit⟩ := square_of_isNormalized hd
  have hb : 0 ≤ b := (abs_nonneg _).trans (hb v.x (by simp [numbers]))
  have htop : 0 ≤ roundoff * (b + leastNormal) :=
    mul_nonneg roundoff_pos.le (add_nonneg hb leastNormal_pos.le)
  rw [mul_assoc] at hx hy hz ⊢
  generalize roundoff * (b + leastNormal) = top at *
  have hsum : value step * value step * d.square =
      value d.x * value step * (value d.x * value step) +
        value d.y * value step * (value d.y * value step) +
          value d.z * value step * (value d.z * value step) := by
    rw [square, inner]
    ring
  have hsquares : value step * value step * d.square ≤ 48 * (top * top) := by
    have hone : ∀ {p : ℚ}, |p| ≤ 4 * top → p * p ≤ 16 * (top * top) := by
      intro p hp
      have := mul_self_le_mul_self (abs_nonneg p) hp
      rw [abs_mul_abs_self] at this
      linarith
    linarith [hone hx, hone hy, hone hz]
  have hlow : value step * value step * (9 / 10) ≤ value step * value step * d.square := by
    have := (abs_le.mp hunit).1
    exact mul_le_mul_of_nonneg_left (by linarith) (mul_self_nonneg _)
  exact abs_le_of_sq_le_sq (by linarith [mul_self_nonneg top]) (by linarith)

end Vec3

/-! ### Turns -/

namespace Vec3

variable {v axis : Point}

/-- The square of the distance of the tip of `v` from the line along the unit vector `axis`, without
rounding. -/
def leverage (axis v : Point) : ℚ := axis.square * v.square - axis.inner v * axis.inner v

theorem leverage_nonneg (axis v : Point) : 0 ≤ axis.leverage v :=
  sub_nonneg.mpr (inner_mul_self_le axis v)

/-- Turning `v` by `angle` about `axis` would hardly move it.  Seen from as far from the axis as the
tip of `v` is, the sine of the angle is below `1 / 10 ^ 8`; and so is this distance, or the cosine
is above zero. -/
def Idles (v axis : Point) (angle : Float) : Prop :=
  axis.leverage v * (value (sine angle) * value (sine angle)) ≤ 1 / 10 ^ 16 ∧
    (0 < value (cosine angle) ∨ axis.leverage v ≤ 1 / 10 ^ 16)

/-- How far a vector is from itself, turned about an axis and scaled, can be read off the vector
product with the axis: there the part along the axis is gone, and what is left of the other part has
been turned by a right angle. -/
theorem cross_turned {v₁ v₂ v₃ k₁ k₂ k₃ c s l p d₁ d₂ d₃ : ℚ}
    (hp : p = k₁ * v₁ + k₂ * v₂ + k₃ * v₃)
    (hd₁ : d₁ = l * (v₁ * c + (k₂ * v₃ - k₃ * v₂) * s + k₁ * (p * (1 - c))) - v₁)
    (hd₂ : d₂ = l * (v₂ * c + (k₃ * v₁ - k₁ * v₃) * s + k₂ * (p * (1 - c))) - v₂)
    (hd₃ : d₃ = l * (v₃ * c + (k₁ * v₂ - k₂ * v₁) * s + k₃ * (p * (1 - c))) - v₃) {n k : ℚ}
    (hn : n = v₁ * v₁ + v₂ * v₂ + v₃ * v₃) (hk : k = k₁ * k₁ + k₂ * k₂ + k₃ * k₃) :
    ((l * c - 1) * (l * c - 1) + l * l * k * (s * s)) * (k * n - p * p) +
        (k₁ * d₁ + k₂ * d₂ + k₃ * d₃) * (k₁ * d₁ + k₂ * d₂ + k₃ * d₃) =
      k * (d₁ * d₁ + d₂ * d₂ + d₃ * d₃) := by
  subst hp hd₁ hd₂ hd₃ hn hk
  ring

/-- If a vector is close to itself, turned about an axis and scaled, then it is close to the axis or
the angle to that of no turn. -/
theorem idles_of_close {lever k l c s d : ℚ} (hlever : 0 ≤ lever) (hk : |k - 1| ≤ 1 / 10 ^ 5)
    (hl : 0 ≤ l) (hlow : 9 / 10 ≤ l * l)
    (h : ((l * c - 1) * (l * c - 1) + l * l * k * (s * s)) * lever ≤ k * d)
    (hd : d ≤ 1 / (3 * 10 ^ 16)) :
    lever * (s * s) ≤ 1 / 10 ^ 16 ∧ (0 < c ∨ lever ≤ 1 / 10 ^ 16) := by
  obtain ⟨hklow, hkhigh⟩ := abs_le.mp hk
  have hright : k * d ≤ 1 / (2 * 10 ^ 16) := by
    calc k * d ≤ k * (1 / (3 * 10 ^ 16)) :=
          mul_le_mul_of_nonneg_left hd (by linarith only [hklow])
      _ ≤ 1 / (2 * 10 ^ 16) := by linarith only [hkhigh]
  have hfirst : 0 ≤ (l * c - 1) * (l * c - 1) * lever :=
    mul_nonneg (mul_self_nonneg _) hlever
  have hsine : 0 ≤ lever * (s * s) := mul_nonneg hlever (mul_self_nonneg _)
  have hscale : 8 / 10 ≤ l * l * k :=
    calc (8 / 10 : ℚ) ≤ 9 / 10 * k := by linarith only [hklow]
      _ ≤ l * l * k := mul_le_mul_of_nonneg_right hlow (by linarith only [hklow])
  have hsecond := mul_le_mul_of_nonneg_right hscale hsine
  have hsum : ((l * c - 1) * (l * c - 1) + l * l * k * (s * s)) * lever =
      (l * c - 1) * (l * c - 1) * lever + l * l * k * (lever * (s * s)) := by ring
  rw [hsum] at h
  refine ⟨by linarith only [h, hfirst, hsecond, hright], ?_⟩
  by_cases hc : 0 < c
  · exact .inl hc
  · refine .inr ?_
    -- beyond a right angle the vector would have to go at least as far as it is from the axis
    have hback : l * c ≤ 0 := mul_nonpos_of_nonneg_of_nonpos hl (not_lt.mp hc)
    have hone : 1 ≤ (l * c - 1) * (l * c - 1) := by
      have := mul_self_le_mul_self zero_le_one
        (by linarith only [hback] : (1 : ℚ) ≤ -(l * c - 1))
      linarith only [this]
    have := mul_le_mul_of_nonneg_right hone hlever
    linarith only [this, h, hsecond, hsine, hright]

/-- One coordinate of a vector that is scaled: it is close to what it would be without the rounding
of the vector and of the product. -/
theorem abs_scaled_sub_le {w l u v : Float} {r : ℚ} (hw : |value w - r| ≤ 1 / 10 ^ 9)
    (hwfin : w.isFinite = true) (hlfin : l.isFinite = true) (hl : |value l| ≤ 2)
    (hsize : |value w * value l| ≤ 2) (hu : u = w * l) (huv : (u == v) = true)
    (hv : v.isFinite = true) : |value l * r - value v| ≤ 3 / 10 ^ 9 := by
  obtain ⟨-, hsame⟩ := value_eq_of_eq huv hv
  obtain ⟨-, hnear⟩ := (rounds_mul hwfin hlfin).moderate (hsize.trans (by norm_num))
  rw [← hu, hsame, abs_sub_comm] at hnear
  have hfirst : |value l * r - value w * value l| ≤ 2 * (1 / 10 ^ 9) := by
    rw [mul_comm (value w), ← mul_sub, abs_mul, abs_sub_comm]
    exact mul_le_mul hl hw (abs_nonneg _) zero_le_two
  calc |value l * r - value v|
      ≤ |value l * r - value w * value l| + |value w * value l - value v| := abs_sub_le ..
    _ ≤ 3 / 10 ^ 9 := by linarith

/-- The number that a vector of about the length one is scaled by to normalize it. -/
theorem reciprocal_length {w : Point} (hfinite : w.isFinite = true)
    (hsquare : |w.square - 1| ≤ 1 / 10) (hlength : w.length.isFinite = true) :
    (1.0 / w.length).isFinite = true ∧ 0 ≤ value (1.0 / w.length) ∧
      9 / 10 ≤ value (1.0 / w.length) * value (1.0 / w.length) ∧
      value (1.0 / w.length) * value (1.0 / w.length) ≤ 2 ∧
      w.square * (value (1.0 / w.length) * value (1.0 / w.length)) ≤ 2 := by
  obtain ⟨-, hlarge, -⟩ := leastNormal_le_dot hfinite hsquare
  obtain ⟨hpos, -⟩ := sqrt_near hlength hlarge
  obtain ⟨hinverse, hone⟩ := one_div_sqrt_near hlength hlarge
  obtain ⟨hlow, hhigh⟩ := abs_le.mp (abs_square_mul_sub_one_le hlength hlarge)
  obtain ⟨hbelow, habove⟩ := abs_le.mp hsquare
  change 0 < value w.length at hpos
  change |value (1.0 / w.length) * value w.length - 1| ≤ _ at hone
  refine ⟨hinverse, ?_, ?_, ?_, by linarith⟩
  all_goals generalize value (1.0 / w.length) = l at *
  · by_contra hneg
    have hproduct := mul_neg_of_neg_of_pos (not_le.mp hneg) hpos
    linarith [(abs_le.mp hone).1, roundoff_le]
  · have := mul_le_mul_of_nonneg_right (by linarith : w.square ≤ 11 / 10) (mul_self_nonneg l)
    linarith
  · have := mul_le_mul_of_nonneg_right (by linarith : 9 / 10 ≤ w.square) (mul_self_nonneg l)
    linarith

/-- What is about as long as one can be normalized. -/
theorem exists_normalize? {w : Point} (hfinite : w.isFinite = true)
    (hsquare : |w.square - 1| ≤ 1 / 10) : ∃ u, w.normalize? = some u := by
  obtain ⟨hdot, hlarge, hsmall⟩ := leastNormal_le_dot hfinite hsquare
  obtain ⟨q, hrounds, hq, hqlow, -⟩ := exists_rounds_sqrt hdot (leastNormal_pos.le.trans hlarge)
  have hroot : |q| ≤ 2 := abs_le_of_sq_le_sq (by linarith) zero_le_two
  obtain ⟨hlength, -⟩ := hrounds.moderate (hroot.trans (by norm_num))
  obtain ⟨hpos, -⟩ := sqrt_near hlength hlarge
  refine ⟨_, normalize?_eq_some_iff.mpr ⟨hlength, ?_, rfl⟩⟩
  rw [Bool.eq_false_iff]
  intro hzero
  have hvalue := (value_eq_of_eq hzero rfl).2
  exact hpos.ne' (hvalue.trans value_zero)

/-- A unit vector that comes out as it was when it is turned about another one and normalized again
was hardly to be moved. -/
theorem idles_of_absorbed {angle : Float} (hv : v.isNormalized = true)
    (haxis : axis.isNormalized = true)
    (hcircle : (⟨cosine angle, sine angle, 0.0⟩ : Point).isNormalized = true)
    (h : ((v.rotateAbout axis angle).normalize?.getD v).sameAs v = true) :
    v.Idles axis angle := by
  obtain ⟨hwfin, hsquare⟩ := abs_square_turned_sub_one_le
    (w := v.rotateAbout axis angle) hv haxis hcircle rfl rfl rfl
  obtain ⟨u, hu⟩ := exists_normalize? hwfin hsquare
  have hsame : u.sameAs v = true := by rwa [hu] at h
  obtain ⟨hx, hy, hz⟩ := near_turned (w := v.rotateAbout axis angle) hv haxis hcircle rfl rfl rfl
  obtain ⟨hlength, -, hu⟩ := normalize?_eq_some_iff.mp hu
  obtain ⟨hinverse, hpos, hlow, hhigh, hscaled⟩ := reciprocal_length hwfin hsquare hlength
  generalize v.rotateAbout axis angle = w at *
  generalize 1.0 / w.length = r at *
  obtain ⟨hxsame, hysame, hzsame⟩ := sameAs_iff.mp hsame
  obtain ⟨hvx, hvy, hvz⟩ := isFinite_iff_coords.mp (square_of_isNormalized hv).1
  have hsum : w.square * (value r * value r) =
      value w.x * value r * (value w.x * value r) + value w.y * value r * (value w.y * value r) +
        value w.z * value r * (value w.z * value r) := by
    rw [square, inner]
    ring
  obtain ⟨hxsize, hysize, hzsize⟩ := abs_le_two (hsum ▸ hscaled.trans (by norm_num))
  have hr : |value r| ≤ 2 := abs_le_of_sq_le_sq (by linarith) zero_le_two
  have hdx := abs_scaled_sub_le hx.error hx.finite hinverse hr hxsize (by rw [hu]; rfl) hxsame hvx
  have hdy := abs_scaled_sub_le hy.error hy.finite hinverse hr hysize (by rw [hu]; rfl) hysame hvy
  have hdz := abs_scaled_sub_le hz.error hz.finite hinverse hr hzsize (by rw [hu]; rfl) hzsame hvz
  have hexact := cross_turned (c := value (cosine angle)) (s := value (sine angle)) (l := value r)
    (rfl : axis.inner v = _) rfl rfl rfl (rfl : v.square = _) (rfl : axis.square = _)
  have hone : ∀ {d : ℚ}, |d| ≤ 3 / 10 ^ 9 → d * d ≤ 9 / 10 ^ 18 := by
    intro d hd
    have := mul_self_le_mul_self (abs_nonneg d) hd
    rw [abs_mul_abs_self] at this
    linarith only [this]
  refine idles_of_close (leverage_nonneg axis v) (square_of_isNormalized haxis).2 hpos hlow
    (le_of_add_le_of_nonneg_left hexact.le (mul_self_nonneg _)) ?_
  linarith only [hone hdx, hone hdy, hone hdz]

end Vec3

end Orrery
