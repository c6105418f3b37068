import Orrery.Proofs.Arithmetic

/-!
# Unit vectors

The length of a vector is computed with rounding, and so is what `Vec3.normalize?` makes of it.
Both are compared with the square of the length as it would be without rounding (`Vec3.square`).  A
vector whose square is very close to one passes for a unit vector (`Vec3.isNormalized_of_square`),
and the square of one that passes is close to one (`Vec3.square_of_isNormalized`).

Below the normal numbers a rounding error may be as large as the number itself.  So normalizing
leads to a unit vector unless the square of the length was computed to be less than a normal number
(`Vec3.isNormalized_of_normalize?`).  A unit vector that is turned about another one is far from
that, if the sine and the cosine are those of an angle (`Vec3.isNormalized_rotateAbout`).
-/

namespace Orrery

open Double

/-! ### Squares of lengths -/

namespace Vec3

variable {v w : Point}

/-- The inner product, without rounding. -/
def inner (v w : Point) : ℚ :=
  value v.x * value w.x + value v.y * value w.y + value v.z * value w.z

/-- The square of the length, without rounding. -/
def square (v : Point) : ℚ := v.inner v

theorem square_nonneg (v : Point) : 0 ≤ v.square :=
  add_nonneg (add_nonneg (mul_self_nonneg _) (mul_self_nonneg _)) (mul_self_nonneg _)

/-- The inner product is at most the product of the lengths. -/
theorem inner_mul_self_le (v w : Point) : v.inner w * v.inner w ≤ v.square * w.square := by
  unfold square inner
  generalize value v.x = v₁, value v.y = v₂, value v.z = v₃, value w.x = w₁, value w.y = w₂,
    value w.z = w₃
  have hx := mul_self_nonneg (v₂ * w₃ - v₃ * w₂)
  have hy := mul_self_nonneg (v₃ * w₁ - v₁ * w₃)
  have hz := mul_self_nonneg (v₁ * w₂ - v₂ * w₁)
  linarith

/-- A sum of three numbers none of which is negative, each of them rounded before. -/
theorem abs_add_three_sub_le {x y z : Float} {r s t : ℚ} (hx : Rounds x r) (hy : Rounds y s)
    (hz : Rounds z t) (hr : 0 ≤ r) (hs : 0 ≤ s) (ht : 0 ≤ t) (h : (x + y + z).isFinite = true) :
    |value (x + y + z) - (r + s + t)| ≤ 16 * roundoff * (r + s + t + leastNormal) := by
  obtain ⟨hxy, hzfin⟩ := isFinite_of_add h
  obtain ⟨hxfin, hyfin⟩ := isFinite_of_add hxy
  have hx := hx.near hxfin
  have hy := hy.near hyfin
  have hz := hz.near hzfin
  have hsum := (rounds_add hxfin hyfin).near hxy
  have htotal := (rounds_add hxy hzfin).near h
  have hleast := leastNormal_pos
  generalize htop : r + s + t + leastNormal = top
  have hpos : 0 ≤ top := by linarith only [htop, hr, hs, ht, hleast]
  -- each error is at most a few times that of rounding the whole sum
  have hquarter : roundoff * top ≤ top / 4 := by
    have := mul_le_mul_of_nonneg_right roundoff_le hpos
    linarith only [this, hpos]
  have hgrow : ∀ {b c : ℚ}, b + leastNormal ≤ c * top →
      roundoff * (b + leastNormal) ≤ c * (roundoff * top) := by
    intro b c hb
    have := mul_le_mul_of_nonneg_left hb roundoff_pos.le
    linarith only [this]
  have hx := hx.trans (hgrow (c := 1) (by rw [abs_of_nonneg hr]; linarith only [htop, hs, ht]))
  have hy := hy.trans (hgrow (c := 1) (by rw [abs_of_nonneg hs]; linarith only [htop, hr, ht]))
  have hz := hz.trans (hgrow (c := 1) (by rw [abs_of_nonneg ht]; linarith only [htop, hr, hs]))
  obtain ⟨hxlow, hxhigh⟩ := abs_le.mp hx
  obtain ⟨hylow, hyhigh⟩ := abs_le.mp hy
  obtain ⟨hzlow, hzhigh⟩ := abs_le.mp hz
  have hpair : |value x + value y| ≤ 2 * top := by
    refine abs_le.mpr ⟨?_, ?_⟩
    · linarith only [hxlow, hylow, hr, hs, hquarter, hpos]
    · linarith only [hxhigh, hyhigh, htop, ht, hleast, hquarter, hpos]
  obtain ⟨hsumlow, hsumhigh⟩ := abs_le.mp
    (hsum.trans (hgrow (c := 3) (by linarith only [hpair, htop, hr, hs, ht])))
  have hall : |value (x + y) + value z| ≤ 4 * top := by
    refine abs_le.mpr ⟨?_, ?_⟩
    · linarith only [hsumlow, hxlow, hylow, hzlow, hr, hs, ht, hquarter, hpos]
    · linarith only [hsumhigh, hxhigh, hyhigh, hzhigh, htop, hleast, hquarter, hpos]
  obtain ⟨hlow, hhigh⟩ := abs_le.mp
    (htotal.trans (hgrow (c := 5) (by linarith only [hall, htop, hr, hs, ht])))
  apply abs_le.mpr
  constructor
  · linarith only [hlow, hsumlow, hxlow, hylow, hzlow, hxhigh]
  · linarith only [hhigh, hsumhigh, hxhigh, hyhigh, hzhigh, hxlow]

/-- The inner product is off by a small part of the square of the length, or of the least normal
number. -/
theorem abs_dot_self_sub_le (h : (v.dot v).isFinite = true) :
    |value (v.dot v) - v.square| ≤ 16 * roundoff * (v.square + leastNormal) := by
  obtain ⟨hx, hy, hz⟩ := isFinite_iff_coords.mp (isFinite_of_dot_self h)
  exact abs_add_three_sub_le (rounds_mul hx hx) (rounds_mul hy hy) (rounds_mul hz hz)
    (mul_self_nonneg _) (mul_self_nonneg _) (mul_self_nonneg _) h

theorem abs_le_two {p q r : ℚ} (h : p * p + q * q + r * r ≤ 4) : |p| ≤ 2 ∧ |q| ≤ 2 ∧ |r| ≤ 2 := by
  have hp := mul_self_nonneg p
  have hq := mul_self_nonneg q
  have hr := mul_self_nonneg r
  refine ⟨?_, ?_, ?_⟩ <;> exact abs_le_of_sq_le_sq (by linarith) zero_le_two

theorem near_coords (hv : v.isFinite = true) (hsmall : v.square ≤ 4) :
    Near v.x (value v.x) 2 0 ∧ Near v.y (value v.y) 2 0 ∧ Near v.z (value v.z) 2 0 := by
  obtain ⟨hx, hy, hz⟩ := isFinite_iff_coords.mp hv
  obtain ⟨hxsmall, hysmall, hzsmall⟩ := abs_le_two hsmall
  exact ⟨near_self hx hxsmall, near_self hy hysmall, near_self hz hzsmall⟩

theorem near_dot (hv : v.isFinite = true) (hw : w.isFinite = true) (hvsmall : v.square ≤ 4)
    (hwsmall : w.square ≤ 4) : Near (v.dot w) (v.inner w) 12 (1 / 10 ^ 11) := by
  obtain ⟨hvx, hvy, hvz⟩ := near_coords hv hvsmall
  obtain ⟨hwx, hwy, hwz⟩ := near_coords hw hwsmall
  have hx := hvx.mul hwx (by norm_num)
  have hy := hvy.mul hwy (by norm_num)
  have hz := hvz.mul hwz (by norm_num)
  have hsum := (hx.add hy (by norm_num)).add hz (by norm_num)
  exact ⟨hsum.finite, hsum.size.trans (by norm_num), hsum.error.trans (by norm_num)⟩

/-- Numbers that are close to each other and not large have squares that are close to each other. -/
theorem abs_mul_self_sub_le {y p e : ℚ} (hnear : |y - p| ≤ e) (hp : |p| ≤ 2) (he : e ≤ 1) :
    |y * y - p * p| ≤ 5 * e := by
  have hsum : |y + p| ≤ 5 := by
    obtain ⟨hlow, hhigh⟩ := abs_le.mp hnear
    obtain ⟨hlow', hhigh'⟩ := abs_le.mp hp
    exact abs_le.mpr ⟨by linarith, by linarith⟩
  have hfactor : y * y - p * p = (y + p) * (y - p) := by ring
  rw [hfactor, abs_mul]
  exact mul_le_mul hsum hnear (abs_nonneg _) (by norm_num)

/-- Coordinates that are off by little lead to a square that is off by little. -/
theorem abs_square_sub_one_le {r₁ r₂ r₃ d e : ℚ} (hx : |value v.x - r₁| ≤ e)
    (hy : |value v.y - r₂| ≤ e) (hz : |value v.z - r₃| ≤ e) (he : e ≤ 1)
    (h : |r₁ * r₁ + r₂ * r₂ + r₃ * r₃ - 1| ≤ d) (hd : d ≤ 3) : |v.square - 1| ≤ d + 15 * e := by
  obtain ⟨hlow, hhigh⟩ := abs_le.mp h
  obtain ⟨hxsmall, hysmall, hzsmall⟩ := abs_le_two (by linarith : r₁ * r₁ + r₂ * r₂ + r₃ * r₃ ≤ 4)
  obtain ⟨hxlow, hxhigh⟩ := abs_le.mp (abs_mul_self_sub_le hx hxsmall he)
  obtain ⟨hylow, hyhigh⟩ := abs_le.mp (abs_mul_self_sub_le hy hysmall he)
  obtain ⟨hzlow, hzhigh⟩ := abs_le.mp (abs_mul_self_sub_le hz hzsmall he)
  rw [square, inner]
  exact abs_le.mpr ⟨by linarith, by linarith⟩

end Vec3

/-! ### The test for unit vectors -/

namespace Vec3

variable {v : Point}

/-- Below or above one, the square is further from it. -/
theorem abs_sub_one_le {q : ℚ} (hq : 0 ≤ q) : |q - 1| ≤ |q * q - 1| := by
  have hfactor : q * q - 1 = (q + 1) * (q - 1) := by ring
  rw [hfactor, abs_mul]
  exact le_mul_of_one_le_left (abs_nonneg _) ((le_abs_self _).trans' (by linarith))

theorem two_roundoff_mul_le {t : ℚ} (h : 0 ≤ t) : 2 * roundoff * t ≤ 2 / 10 ^ 15 * t := by
  refine mul_le_mul_of_nonneg_right ?_ h
  linarith only [roundoff_le]

/-- A vector whose length is very close to one passes for a unit vector. -/
theorem isNormalized_of_square (h : v.isFinite = true) (hnear : |v.square - 1| ≤ 1 / 10 ^ 10) :
    v.isNormalized = true := by
  obtain ⟨hlow, hhigh⟩ := abs_le.mp hnear
  have hsmall : v.square ≤ 4 := by linarith only [hhigh]
  have hdot : Near (v.dot v) v.square 12 (1 / 10 ^ 11) := near_dot h h hsmall hsmall
  obtain ⟨hdotlow, hdothigh⟩ := abs_le.mp hdot.error
  obtain ⟨q, hrounds, hq, hqlow, hqhigh⟩ := exists_rounds_sqrt hdot.finite
    (by linarith only [hdotlow, hlow])
  have hgrow := two_roundoff_mul_le (mul_self_nonneg q)
  have hone : |q - 1| ≤ 1 / 10 ^ 9 :=
    (abs_sub_one_le hq).trans (abs_le.mpr ⟨by linarith only [hqhigh, hgrow, hdotlow, hlow], by
      linarith only [hqlow, hdothigh, hhigh]⟩)
  have hlength : Near v.length 1 1 (1 / 10 ^ 9 + 1 / 10 ^ 12) := by
    refine .of_rounds hrounds ?_ (by norm_num) hone
    obtain ⟨hlow, hhigh⟩ := abs_le.mp hone
    exact abs_le.mpr ⟨by linarith only [hlow], by linarith only [hhigh]⟩
  have hdiff := hlength.sub near_one (by norm_num)
  obtain ⟨hfinite, habs⟩ := abs_exact hdiff.finite
  refine (lt_iff hfinite rfl).mpr ?_
  rw [habs]
  have herror := hdiff.error
  rw [sub_self, sub_zero] at herror
  exact herror.trans_lt (lt_of_lt_of_le (by norm_num) value_tolerance.1)

/-- The length of a vector that passes for a unit vector is close to one. -/
theorem abs_value_length_sub_one_le (h : v.isNormalized = true) :
    v.length.isFinite = true ∧ |value v.length - 1| ≤ 12 / 10 ^ 7 := by
  have hdiff : (v.length - 1.0).isFinite = true := isFinite_of_abs_lt_tolerance h
  obtain ⟨hlength, hone⟩ := isFinite_of_sub hdiff
  obtain ⟨hfinite, habs⟩ := abs_exact hdiff
  have hlt : value (v.length - 1.0).abs < value 1e-6 := (lt_iff hfinite rfl).mp h
  rw [habs] at hlt
  have hnear := (rounds_sub hlength hone).near hdiff
  rw [value_one] at hnear
  have hlittle := roundoff_mul_le (abs_nonneg (value v.length - 1)) le_rfl
  have htriangle := abs_sub_abs_le_abs_sub (value v.length - 1) (value (v.length - 1.0))
  rw [abs_sub_comm (value v.length - 1)] at htriangle
  exact ⟨hlength, by linarith [value_tolerance.2]⟩

/-- A vector that passes for a unit vector is about as long as one. -/
theorem square_of_isNormalized (h : v.isNormalized = true) :
    v.isFinite = true ∧ |v.square - 1| ≤ 1 / 10 ^ 5 := by
  obtain ⟨hlength, hunit⟩ := abs_value_length_sub_one_le h
  have hdot : (v.dot v).isFinite = true := isFinite_of_sqrt hlength
  refine ⟨isFinite_of_dot_self hdot, ?_⟩
  obtain ⟨q, hrounds, hq, hqlow, hqhigh⟩ :=
    exists_rounds_sqrt hdot (nonneg_of_isFinite_sqrt hlength)
  have hroot : |value v.length - q| ≤ roundoff * (|q| + leastNormal) := hrounds.near hlength
  rw [abs_of_nonneg hq] at hroot
  obtain ⟨hrootlow, hroothigh⟩ := abs_le.mp (hroot.trans (roundoff_mul_le hq le_rfl))
  obtain ⟨hunitlow, hunithigh⟩ := abs_le.mp hunit
  have hone : |q - 1| ≤ 13 / 10 ^ 7 := abs_le.mpr
    ⟨by linarith only [hroothigh, hunitlow, hq], by linarith only [hrootlow, hunithigh, hq]⟩
  have hsquare : |q * q - 1 * 1| ≤ 5 * (13 / 10 ^ 7) :=
    abs_mul_self_sub_le hone (by norm_num) (by norm_num)
  obtain ⟨hsquarelow, hsquarehigh⟩ := abs_le.mp hsquare
  have hgrow := two_roundoff_mul_le (mul_self_nonneg q)
  have hspread : 16 * roundoff * (v.square + leastNormal) ≤ 16 / 10 ^ 15 * (v.square + 1 / 16) := by
    linarith only [roundoff_mul_le v.square_nonneg le_rfl]
  obtain ⟨hsumlow, hsumhigh⟩ := abs_le.mp ((abs_dot_self_sub_le hdot).trans hspread)
  apply abs_le.mpr
  constructor
  · linarith only [hsumhigh, hqlow, hsquarelow]
  · linarith only [hsumlow, hqhigh, hgrow, hsquarehigh]

end Vec3

/-! ### Normalizing -/

namespace Double

/-- The least number that is represented with all digits. -/
def minNormal : Float := Float.ofBits 0x0010000000000000

theorem value_minNormal : value minNormal = leastNormal := by
  have hunpack : minNormal.toModel.unpack =
      .finite .positive (2 ^ 52) (-1074) (by decide) := rfl
  rw [value, hunpack, rational_positive, leastNormal, Nat.cast_pow, Nat.cast_ofNat,
    ← zpow_natCast, ← zpow_add₀ two_ne_zero]
  rfl

end Double

namespace Vec3

variable {v : Point}

theorem abs_mul_sub_one_le {a b s t : ℚ} (ha : |a - 1| ≤ s) (hb : |b - 1| ≤ t) (hs : s ≤ 1) :
    |a * b - 1| ≤ s + 2 * t := by
  have hle : |a| ≤ 2 := by
    obtain ⟨hlow, hhigh⟩ := abs_le.mp ha
    exact abs_le.mpr ⟨by linarith, by linarith⟩
  have hsplit : a * b - 1 = (a - 1) + a * (b - 1) := by ring
  rw [hsplit]
  calc |a - 1 + a * (b - 1)| ≤ |a - 1| + |a * (b - 1)| := abs_add_le ..
    _ ≤ s + 2 * t := by
      rw [abs_mul]
      exact add_le_add ha (mul_le_mul hle hb (abs_nonneg _) zero_le_two)

theorem abs_div_sub_one_le {a b s : ℚ} (hb : 0 < b) (h : |a - b| ≤ s * b) : |a / b - 1| ≤ s := by
  have hsplit : a / b - 1 = (a - b) / b := by field_simp
  rwa [hsplit, abs_div, abs_of_pos hb, div_le_iff₀ hb]

theorem abs_square_div_sub_one_le (h : (v.dot v).isFinite = true)
    (hlarge : leastNormal ≤ value (v.dot v)) :
    |v.square / value (v.dot v) - 1| ≤ 1 / 10 ^ 13 := by
  have hpos := leastNormal_pos
  have hnonneg := v.square_nonneg
  refine abs_div_sub_one_le (hpos.trans_le hlarge) ?_
  have hnear : |value (v.dot v) - v.square| ≤ 16 / 10 ^ 15 * (v.square + value (v.dot v)) := by
    refine (abs_dot_self_sub_le h).trans ?_
    have hroundoff := roundoff_le
    gcongr
    linarith
  rw [abs_sub_comm]
  obtain ⟨hlow, hhigh⟩ := abs_le.mp hnear
  exact abs_le.mpr ⟨by linarith, by linarith⟩

/-- Scaling by the reciprocal of the computed length leads close to the length one. -/
theorem abs_square_mul_sub_one_le (hlength : v.length.isFinite = true)
    (hlarge : leastNormal ≤ value (v.dot v)) :
    |v.square * (value (1.0 / v.length) * value (1.0 / v.length)) - 1| ≤ 1 / 10 ^ 11 := by
  have hsquare := abs_square_div_sub_one_le (isFinite_of_sqrt hlength) hlarge
  obtain ⟨hpos, hroot⟩ := sqrt_near hlength hlarge
  obtain ⟨-, hinverse⟩ := one_div_sqrt_near hlength hlarge
  have hroundoff := roundoff_le
  have hdot : 0 < value (v.dot v) := leastNormal_pos.trans_le hlarge
  change |value (1.0 / v.length) * value v.length - 1| ≤ _ at hinverse
  change 0 < value v.length at hpos
  change |_ - value v.length * value v.length| ≤ _ * (value v.length * value v.length) at hroot
  generalize value (1.0 / v.length) = inverse at *
  generalize value v.length = length at *
  generalize value (v.dot v) = dot at *
  have hradicand : |dot / (length * length) - 1| ≤ 1 / 10 ^ 13 :=
    (abs_div_sub_one_le (mul_pos hpos hpos) hroot).trans (by linarith)
  have hinverse : |inverse * length - 1| ≤ 1 / 10 ^ 13 := hinverse.trans (by linarith)
  -- the three errors, each of which is relative
  have hproduct : v.square * (inverse * inverse) =
      v.square / dot * (dot / (length * length) * (inverse * length * (inverse * length))) := by
    field_simp
  rw [hproduct]
  have htwo := abs_mul_sub_one_le hinverse hinverse (by norm_num)
  have hthree := abs_mul_sub_one_le hradicand htwo (by norm_num)
  exact (abs_mul_sub_one_le hsquare hthree (by norm_num)).trans (by norm_num)

/-- The scaled vector is very close to the length one. -/
theorem square_near_one (hlength : v.length.isFinite = true)
    (hlarge : leastNormal ≤ value (v.dot v)) :
    (v * (1.0 / v.length)).isFinite = true ∧
      |(v * (1.0 / v.length)).square - 1| ≤ 1 / 10 ^ 10 := by
  obtain ⟨hx, hy, hz⟩ := isFinite_iff_coords.mp (isFinite_of_dot_self (isFinite_of_sqrt hlength))
  obtain ⟨hinverse, -⟩ := one_div_sqrt_near hlength hlarge
  change (1.0 / v.length).isFinite = true at hinverse
  have hnear := abs_square_mul_sub_one_le hlength hlarge
  generalize (1.0 / v.length) = r at *
  have hsum : v.square * (value r * value r) =
      value v.x * value r * (value v.x * value r) + value v.y * value r * (value v.y * value r) +
        value v.z * value r * (value v.z * value r) := by
    rw [square, inner]
    ring
  rw [hsum] at hnear
  have hfour := (sub_le_iff_le_add.mp (abs_le.mp hnear).2).trans
    (by norm_num : (1 / 10 ^ 11 + 1 : ℚ) ≤ 4)
  obtain ⟨hpx, hpy, hpz⟩ := abs_le_two hfour
  have hhundred : (2 : ℚ) ≤ 100 := by norm_num
  obtain ⟨hxfin, hxnear⟩ := (rounds_mul hx hinverse).moderate (hpx.trans hhundred)
  obtain ⟨hyfin, hynear⟩ := (rounds_mul hy hinverse).moderate (hpy.trans hhundred)
  obtain ⟨hzfin, hznear⟩ := (rounds_mul hz hinverse).moderate (hpz.trans hhundred)
  refine ⟨isFinite_iff_coords.mpr ⟨hxfin, hyfin, hzfin⟩, ?_⟩
  have hsquare := abs_square_sub_one_le (v := v * r) hxnear hynear hznear (by norm_num) hnear
    (by norm_num)
  exact hsquare.trans (by norm_num)

/-- A vector is normalized if its length is a number, but not zero. -/
theorem normalize?_eq_some_iff {u : Point} : v.normalize? = some u ↔
    v.length.isFinite = true ∧ (v.length == 0.0) = false ∧ u = v * (1.0 / v.length) := by
  have hdef : v.normalize? = if !v.length.isFinite || v.length == 0.0 then none
      else some (v * (1.0 / v.length)) := rfl
  rw [hdef]
  cases v.length.isFinite <;> cases v.length == 0.0 <;> simp [eq_comm]

theorem isFinite_length_of_normalize? {u : Point} (h : v.normalize? = some u) :
    v.length.isFinite = true := (normalize?_eq_some_iff.mp h).1

/-- Normalizing leads to a unit vector unless the square of the length is less than a normal
number. -/
theorem isNormalized_of_normalize? {u : Point} (h : v.normalize? = some u)
    (hlarge : (v.dot v).lt minNormal = false) : u.isNormalized = true := by
  obtain ⟨hlength, -, rfl⟩ := normalize?_eq_some_iff.mp h
  have hleast : leastNormal ≤ value (v.dot v) := by
    rw [← value_minNormal, ← not_lt,
      ← lt_iff (isFinite_of_sqrt hlength) rfl, hlarge]
    exact Bool.false_ne_true
  obtain ⟨hfinite, hsquare⟩ := square_near_one hlength hleast
  exact isNormalized_of_square hfinite hsquare

end Vec3

/-! ### Turning -/

namespace Vec3

variable {v : Point}

/-- What is left of the length of a vector that is turned about an axis, if neither is exactly one
unit long and the sine and the cosine are not exact. -/
theorem turned_square {v₁ v₂ v₃ k₁ k₂ k₃ c s p r₁ r₂ r₃ : ℚ}
    (hp : p = k₁ * v₁ + k₂ * v₂ + k₃ * v₃)
    (hr₁ : r₁ = v₁ * c + (k₂ * v₃ - k₃ * v₂) * s + k₁ * (p * (1 - c)))
    (hr₂ : r₂ = v₂ * c + (k₃ * v₁ - k₁ * v₃) * s + k₂ * (p * (1 - c)))
    (hr₃ : r₃ = v₃ * c + (k₁ * v₂ - k₂ * v₁) * s + k₃ * (p * (1 - c))) {n k : ℚ}
    (hn : n = v₁ * v₁ + v₂ * v₂ + v₃ * v₃) (hk : k = k₁ * k₁ + k₂ * k₂ + k₃ * k₃) :
    r₁ * r₁ + r₂ * r₂ + r₃ * r₃ - 1 = (n - 1) + n * (1 - c * c) * (k - 1) +
      (k * n - p * p) * (c * c + s * s - 1) + p * p * ((1 - c) * (1 - c)) * (k - 1) := by
  subst hp hr₁ hr₂ hr₃ hn hk
  ring

/-- The deviations from one in `turned_square` do not add up to much. -/
theorem abs_turned_square_sub_one_le {n k p c s : ℚ} (hn : |n - 1| ≤ 1 / 10 ^ 5)
    (hk : |k - 1| ≤ 1 / 10 ^ 5) (hc : |c * c + s * s - 1| ≤ 1 / 10 ^ 5) (hp : p * p ≤ k * n) :
    |(n - 1) + n * (1 - c * c) * (k - 1) + (k * n - p * p) * (c * c + s * s - 1) +
      p * p * ((1 - c) * (1 - c)) * (k - 1)| ≤ 1 / 10 ^ 2 := by
  have hterm : ∀ {x y : ℚ}, |x| ≤ 50 → |y| ≤ 1 / 10 ^ 5 → |x * y| ≤ 50 / 10 ^ 5 := by
    intro x y hx hy
    rw [abs_mul]
    exact (mul_le_mul hx hy (abs_nonneg _) (by norm_num)).trans (by norm_num)
  obtain ⟨hnlow, hnhigh⟩ := abs_le.mp hn
  obtain ⟨hklow, hkhigh⟩ := abs_le.mp hk
  obtain ⟨hclow, hchigh⟩ := abs_le.mp hc
  have hpnonneg := mul_self_nonneg p
  have hcsmall : c * c ≤ 2 := by linarith only [hchigh, mul_self_nonneg s]
  have hknsmall : k * n ≤ 4 :=
    (mul_le_mul (by linarith only [hkhigh]) (by linarith only [hnhigh])
      (by linarith only [hnlow]) zero_le_two).trans
      (by norm_num : (2 : ℚ) * 2 ≤ 4)
  have hversine : (1 - c) * (1 - c) ≤ 6 := by
    linarith only [hcsmall, mul_self_nonneg (1 + c)]
  have hfirst : |n * (1 - c * c)| ≤ 50 := by
    rw [abs_mul]
    refine (mul_le_mul (abs_le.mpr ⟨by linarith only [hnlow], ?_⟩ : |n| ≤ 2)
      (abs_le.mpr ⟨by linarith only [hcsmall], ?_⟩ : |1 - c * c| ≤ 2) (abs_nonneg _)
      zero_le_two).trans (by norm_num)
    · linarith only [hnhigh]
    · linarith only [mul_self_nonneg c]
  have hsecond : |k * n - p * p| ≤ 50 := abs_le.mpr
    ⟨by linarith only [hp], by linarith only [hknsmall, hpnonneg]⟩
  have hthird : |p * p * ((1 - c) * (1 - c))| ≤ 50 := by
    rw [abs_of_nonneg (mul_nonneg hpnonneg (mul_self_nonneg _))]
    exact (mul_le_mul (hp.trans hknsmall) hversine (mul_self_nonneg _) (by norm_num)).trans
      (by norm_num)
  obtain ⟨hlow₁, hhigh₁⟩ := abs_le.mp (hterm hfirst hk)
  obtain ⟨hlow₂, hhigh₂⟩ := abs_le.mp (hterm hsecond hc)
  obtain ⟨hlow₃, hhigh₃⟩ := abs_le.mp (hterm hthird hk)
  apply abs_le.mpr
  constructor
  · linarith only [hnlow, hlow₁, hlow₂, hlow₃]
  · linarith only [hnhigh, hhigh₁, hhigh₂, hhigh₃]

theorem abs_turned_sub_one_le {axis : Point} {c s r₁ r₂ r₃ : ℚ}
    (hr₁ : r₁ = value v.x * c + (value axis.y * value v.z - value axis.z * value v.y) * s +
      value axis.x * (axis.inner v * (1 - c)))
    (hr₂ : r₂ = value v.y * c + (value axis.z * value v.x - value axis.x * value v.z) * s +
      value axis.y * (axis.inner v * (1 - c)))
    (hr₃ : r₃ = value v.z * c + (value axis.x * value v.y - value axis.y * value v.x) * s +
      value axis.z * (axis.inner v * (1 - c)))
    (hv : |v.square - 1| ≤ 1 / 10 ^ 5) (haxis : |axis.square - 1| ≤ 1 / 10 ^ 5)
    (hc : |c * c + s * s - 1| ≤ 1 / 10 ^ 5) :
    |r₁ * r₁ + r₂ * r₂ + r₃ * r₃ - 1| ≤ 1 / 10 ^ 2 := by
  have hexact : r₁ * r₁ + r₂ * r₂ + r₃ * r₃ - 1 = (v.square - 1) +
      v.square * (1 - c * c) * (axis.square - 1) +
      (axis.square * v.square - axis.inner v * axis.inner v) * (c * c + s * s - 1) +
      axis.inner v * axis.inner v * ((1 - c) * (1 - c)) * (axis.square - 1) :=
    turned_square rfl hr₁ hr₂ hr₃ rfl rfl
  rw [hexact]
  exact abs_turned_square_sub_one_le hv haxis hc (inner_mul_self_le axis v)

/-- One coordinate of a turned vector, with its rounding errors. -/
theorem near_turned_coord {x c y₁ z₁ y₂ z₂ s k g : Float} {r : ℚ} (hx : Near x (value x) 2 0)
    (hc : Near c (value c) 2 0) (hy₁ : Near y₁ (value y₁) 2 0) (hz₁ : Near z₁ (value z₁) 2 0)
    (hy₂ : Near y₂ (value y₂) 2 0) (hz₂ : Near z₂ (value z₂) 2 0) (hs : Near s (value s) 2 0)
    (hk : Near k (value k) 2 0) (hg : Near g r 36 (1 / 10 ^ 10)) :
    Near (x * c + (y₁ * z₁ - y₂ * z₂) * s + k * g)
      (value x * value c + (value y₁ * value z₁ - value y₂ * value z₂) * value s + value k * r)
      92 (1 / 10 ^ 9) := by
  have hcross := (hy₁.mul hz₁ (by norm_num)).sub (hy₂.mul hz₂ (by norm_num)) (by norm_num)
  have hfirst := (hx.mul hc (by norm_num)).add (hcross.mul hs (by norm_num)) (by norm_num)
  have hsum := hfirst.add (hk.mul hg (by norm_num)) (by norm_num)
  exact ⟨hsum.finite, hsum.size.trans (by norm_num), hsum.error.trans (by norm_num)⟩

section Circle

variable {axis : Point} {c s : Float}

/-- The coordinates of a unit vector turned about another one, with their rounding errors. -/
theorem near_turned {w : Point} (hv : v.isNormalized = true) (haxis : axis.isNormalized = true)
    (hcircle : (⟨c, s, 0.0⟩ : Point).isNormalized = true)
    (hwx : w.x = v.x * c + (axis.y * v.z - axis.z * v.y) * s + axis.x * (axis.dot v * (1.0 - c)))
    (hwy : w.y = v.y * c + (axis.z * v.x - axis.x * v.z) * s + axis.y * (axis.dot v * (1.0 - c)))
    (hwz : w.z = v.z * c + (axis.x * v.y - axis.y * v.x) * s + axis.z * (axis.dot v * (1.0 - c))) :
    Near w.x (value v.x * value c + (value axis.y * value v.z - value axis.z * value v.y) * value s +
      value axis.x * (axis.inner v * (1 - value c))) 92 (1 / 10 ^ 9) ∧
    Near w.y (value v.y * value c + (value axis.z * value v.x - value axis.x * value v.z) * value s +
      value axis.y * (axis.inner v * (1 - value c))) 92 (1 / 10 ^ 9) ∧
    Near w.z (value v.z * value c + (value axis.x * value v.y - value axis.y * value v.x) * value s +
      value axis.z * (axis.inner v * (1 - value c))) 92 (1 / 10 ^ 9) := by
  obtain ⟨hvfin, hvnear⟩ := square_of_isNormalized hv
  obtain ⟨hkfin, hknear⟩ := square_of_isNormalized haxis
  obtain ⟨hcfin, hcnear⟩ := square_of_isNormalized hcircle
  have hfour : ∀ {q : ℚ}, |q - 1| ≤ 1 / 10 ^ 5 → q ≤ 4 := fun h => by
    linarith [(abs_le.mp h).2]
  obtain ⟨hv₁, hv₂, hv₃⟩ := near_coords hvfin (hfour hvnear)
  obtain ⟨hk₁, hk₂, hk₃⟩ := near_coords hkfin (hfour hknear)
  obtain ⟨hc, hs, -⟩ := near_coords hcfin (hfour hcnear)
  have hversine := (near_dot hkfin hvfin (hfour hknear) (hfour hvnear)).mul
    (near_one.sub hc (by norm_num)) (by norm_num)
  have hversine : Near (axis.dot v * (1.0 - c)) (axis.inner v * (1 - value c)) 36 (1 / 10 ^ 10) :=
    ⟨hversine.finite, hversine.size.trans (by norm_num), hversine.error.trans (by norm_num)⟩
  rw [hwx, hwy, hwz]
  exact ⟨near_turned_coord hv₁ hc hk₂ hv₃ hk₃ hv₂ hs hk₁ hversine,
    near_turned_coord hv₂ hc hk₃ hv₁ hk₁ hv₃ hs hk₂ hversine,
    near_turned_coord hv₃ hc hk₁ hv₂ hk₂ hv₁ hs hk₃ hversine⟩

/-- The point of an angle is close to the unit circle if it passes for a unit vector. -/
theorem abs_circle_sub_one_le (hcircle : (⟨c, s, 0.0⟩ : Point).isNormalized = true) :
    |value c * value c + value s * value s - 1| ≤ 1 / 10 ^ 5 := by
  obtain ⟨-, hnear⟩ := square_of_isNormalized hcircle
  simpa [square, inner, value_zero] using hnear

/-- A unit vector turned about another one is about as long as one, if the sine and the cosine are
those of an angle. -/
theorem abs_square_turned_sub_one_le {w : Point} (hv : v.isNormalized = true)
    (haxis : axis.isNormalized = true) (hcircle : (⟨c, s, 0.0⟩ : Point).isNormalized = true)
    (hwx : w.x = v.x * c + (axis.y * v.z - axis.z * v.y) * s + axis.x * (axis.dot v * (1.0 - c)))
    (hwy : w.y = v.y * c + (axis.z * v.x - axis.x * v.z) * s + axis.y * (axis.dot v * (1.0 - c)))
    (hwz : w.z = v.z * c + (axis.x * v.y - axis.y * v.x) * s + axis.z * (axis.dot v * (1.0 - c))) :
    w.isFinite = true ∧ |w.square - 1| ≤ 1 / 10 := by
  obtain ⟨hx, hy, hz⟩ := near_turned hv haxis hcircle hwx hwy hwz
  have hexact := abs_turned_sub_one_le rfl rfl rfl (square_of_isNormalized hv).2
    (square_of_isNormalized haxis).2 (abs_circle_sub_one_le hcircle)
  have hsquare := abs_square_sub_one_le hx.error hy.error hz.error (by norm_num) hexact
    (by norm_num)
  exact ⟨isFinite_iff_coords.mpr ⟨hx.finite, hy.finite, hz.finite⟩, hsquare.trans (by norm_num)⟩

/-- The inner product of a vector that is about as long as one is a normal number. -/
theorem leastNormal_le_dot {w : Point} (hfinite : w.isFinite = true)
    (hsquare : |w.square - 1| ≤ 1 / 10) :
    (w.dot w).isFinite = true ∧ leastNormal ≤ value (w.dot w) ∧ value (w.dot w) ≤ 2 := by
  obtain ⟨hlow, hhigh⟩ := abs_le.mp hsquare
  have hdot := near_dot hfinite hfinite (by linarith) (by linarith)
  have herror : |value (w.dot w) - w.square| ≤ 1 / 10 ^ 11 := hdot.error
  obtain ⟨hbelow, habove⟩ := abs_le.mp herror
  exact ⟨hdot.finite, by linarith [leastNormal_le], by linarith⟩

/-- A unit vector that is turned about another one and normalized again is a unit vector, if the
sine and the cosine are those of an angle. -/
theorem isNormalized_rotateAbout {angle : Float} {u : Point} (hv : v.isNormalized = true)
    (haxis : axis.isNormalized = true)
    (hcircle : (⟨cosine angle, sine angle, 0.0⟩ : Point).isNormalized = true)
    (h : (v.rotateAbout axis angle).normalize? = some u) : u.isNormalized = true := by
  obtain ⟨hfinite, hsquare⟩ := abs_square_turned_sub_one_le
    (w := v.rotateAbout axis angle) hv haxis hcircle rfl rfl rfl
  obtain ⟨hdot, hlarge, -⟩ := leastNormal_le_dot hfinite hsquare
  refine isNormalized_of_normalize? h ?_
  rw [Bool.eq_false_iff, ne_eq, lt_iff hdot rfl, value_minNormal, not_lt]
  exact hlarge

end Circle

end Vec3

end Orrery
