import Orrery.Proofs.Exact

/-!
# Vectors of real numbers

Read over the real numbers, the formulas for vectors obey the laws of Euclidean space: the inner
product is bilinear, its square root is a length, and a vector other than zero can be normalized
(`Vec3.normalize?_eq`).
-/

namespace Orrery.Vec3

attribute [ext] Vec3

/-! ### Coordinates -/

section Coordinates

variable (v w : Vec3 ℝ) (s : ℝ)

theorem add_eq : v + w = ⟨v.x + w.x, v.y + w.y, v.z + w.z⟩ := rfl

theorem sub_eq : v - w = ⟨v.x - w.x, v.y - w.y, v.z - w.z⟩ := rfl

theorem scale_eq : v * s = ⟨v.x * s, v.y * s, v.z * s⟩ := rfl

theorem dot_eq : v.dot w = v.x * w.x + v.y * w.y + v.z * w.z := rfl

theorem cross_eq : v.cross w =
    ⟨v.y * w.z - v.z * w.y, v.z * w.x - v.x * w.z, v.x * w.y - v.y * w.x⟩ := rfl

theorem rotateAbout_eq (angle : ℝ) : v.rotateAbout w angle =
    v * Real.cos angle + w.cross v * Real.sin angle + w * (w.dot v * (1 - Real.cos angle)) := rfl

end Coordinates

/-! ### Parts of a way -/

section Way

variable (v w : Vec3 ℝ) (s t : ℝ)

theorem scale_scale : v * s * t = v * (s * t) := by
  simp only [scale_eq, mul_assoc]

/-- What is left of the way to `w` after a part of it. -/
theorem sub_add_scale : w - (v + (w - v) * t) = (w - v) * (1 - t) := by
  ext <;> simp only [add_eq, sub_eq, scale_eq] <;> ring

theorem add_scale_sub : v + (w - v) * t - v = (w - v) * t := by
  ext <;> simp only [add_eq, sub_eq, scale_eq] <;> ring

end Way

/-! ### Inner products -/

section Dot

variable (u v w : Vec3 ℝ) (s t : ℝ)

theorem dot_comm : v.dot w = w.dot v := by
  simp only [dot_eq]
  ring

theorem add_dot : (u + v).dot w = u.dot w + v.dot w := by
  simp only [add_eq, dot_eq]
  ring

theorem scale_dot : (v * s).dot w = s * v.dot w := by
  simp only [scale_eq, dot_eq]
  ring

theorem dot_scale : v.dot (w * s) = s * v.dot w := by
  simp only [scale_eq, dot_eq]
  ring

theorem dot_self_nonneg : 0 ≤ v.dot v :=
  add_nonneg (add_nonneg (mul_self_nonneg _) (mul_self_nonneg _)) (mul_self_nonneg _)

end Dot

/-! ### Lengths -/

section Length

variable (v w : Vec3 ℝ) (s : ℝ)

theorem length_nonneg : 0 ≤ v.length := Real.sqrt_nonneg _

theorem length_mul_self : v.length * v.length = v.dot v := Real.mul_self_sqrt v.dot_self_nonneg

theorem length_scale : (v * s).length = v.length * |s| := by
  show Real.sqrt ((v * s).dot (v * s)) = Real.sqrt (v.dot v) * |s|
  rw [scale_dot, dot_scale, ← mul_assoc, mul_comm, Real.sqrt_mul v.dot_self_nonneg,
    Real.sqrt_mul_self_eq_abs]

theorem distance_self : v.distance v = 0 := by
  show Real.sqrt ((v - v).dot (v - v)) = 0
  simp [sub_eq, dot_eq]

theorem distance_comm : v.distance w = w.distance v := by
  show Real.sqrt ((v - w).dot (v - w)) = Real.sqrt ((w - v).dot (w - v))
  congr 1
  simp only [sub_eq, dot_eq]
  ring

theorem length_sub : (w - v).length = v.distance w := distance_comm w v

variable {v}

theorem length_eq_one_iff : v.length = 1 ↔ v.dot v = 1 := Real.sqrt_eq_one

theorem isNormalized_iff : v.isNormalized = true ↔ |v.length - 1| < 1 / 10 ^ 6 := Scalar.lt_iff

theorem isNormalized_of_length (h : v.length = 1) : v.isNormalized = true := by
  rw [isNormalized_iff, h]
  norm_num

/-- Every vector has a direction but zero. -/
theorem normalize?_eq (v : Vec3 ℝ) :
    v.normalize? = if v.length = 0 then none else some (v * (1 / v.length)) := by
  show (if (!true || decide (v.length = 0)) = true then none else some (v * (1 / v.length))) = _
  simp

theorem normalize?_of_length_eq_one (h : v.length = 1) : v.normalize? = some v := by
  rw [normalize?_eq, h, if_neg one_ne_zero, div_one]
  simp only [scale_eq, mul_one]

theorem length_of_normalize? {u : Vec3 ℝ} (h : v.normalize? = some u) : u.length = 1 := by
  rw [normalize?_eq] at h
  split at h
  · cases h
  · next hzero =>
    have hpos : 0 < v.length := lt_of_le_of_ne v.length_nonneg (Ne.symm hzero)
    rw [← Option.some.inj h, length_scale, abs_of_pos (one_div_pos.mpr hpos),
      mul_one_div_cancel hzero]

end Length

end Orrery.Vec3
