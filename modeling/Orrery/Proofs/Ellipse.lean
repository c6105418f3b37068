import Orrery.Proofs.Space

/-!
# Orbits in exact arithmetic

An orbit is given by its semi-latus rectum and its eccentricity, and its points by their distance
from the occupied focus.  They are the points of an ellipse, which is given by its center and its
diameters (`Orbit.IsOnEllipse`), whichever of the two is the origin.  So that is where an orbit
leads in any ticks (`Orbit.ellipse_traced`).

Quotients of real numbers are defined even if the divisor is zero.  That no divisor is says the same
formulas, evaluated with numbers that are undefined after a division by zero.
-/

namespace Orrery

/-! ### Numbers that may be undefined -/

/-- Measuring without rounding, where a quotient by zero is undefined, and so is the square root of
a number below zero.  What is computed from something undefined is undefined. -/
noncomputable instance : Scalar (Option ℝ) where
  add := Option.map₂ (· + ·)
  sub := Option.map₂ (· - ·)
  mul := Option.map₂ (· * ·)
  div x y := (y.filter (· ≠ 0)).bind fun y => x.map (· / y)
  neg := Option.map (- ·)
  zero := some 0
  one := some 1
  fullTurn := some Scalar.fullTurn
  tolerance := some Scalar.tolerance
  lt x y := x.any fun x => y.any fun y => Scalar.lt x y
  le x y := x.any fun x => y.any fun y => Scalar.le x y
  eq x y := x.any fun x => y.any fun y => Scalar.eq x y
  isFinite := Option.isSome
  abs := Option.map (|·|)
  sqrt x := (x.filter (0 ≤ ·)).map Real.sqrt
  sin := Option.map Real.sin
  cos := Option.map Real.cos
  larger := Option.map₂ max
  smaller := Option.map₂ min
  withSignOf := Option.map₂ Scalar.withSignOf
  wrap x m := (m.filter (· ≠ 0)).bind fun m => x.map (Scalar.wrap · m)

namespace Scalar

theorem some_div {x y : ℝ} (hy : y ≠ 0) : (some x / some y : Option ℝ) = some (x / y) := by
  show ((some y).filter (· ≠ 0)).bind (fun y => (some x).map (· / y)) = some (x / y)
  rw [Option.filter_some, if_pos (decide_eq_true hy)]
  rfl

theorem sqrt_some {x : ℝ} (hx : 0 ≤ x) : Scalar.sqrt (some x) = some (Real.sqrt x) := by
  show ((some x).filter (0 ≤ ·)).map Real.sqrt = some (Real.sqrt x)
  rw [Option.filter_some, if_pos (decide_eq_true hx)]
  rfl

theorem wrap_some (x : ℝ) {m : ℝ} (hm : m ≠ 0) :
    Scalar.wrap (some x) (some m) = some (Scalar.wrap x m) := by
  show ((some m).filter (· ≠ 0)).bind (fun m => (some x).map (Scalar.wrap · m)) = _
  rw [Option.filter_some, if_pos (decide_eq_true hm)]
  rfl

end Scalar

/-- The vector with every coordinate replaced. -/
def Vec3.map {α β : Type} (f : α → β) (v : Vec3 α) : Vec3 β := ⟨f v.x, f v.y, f v.z⟩

/-- The state with every number replaced. -/
def Kinematics.map {α β : Type} (f : α → β) (k : Kinematics α) : Kinematics β :=
  ⟨k.coords.map f, k.orientation.map f, f k.distanceMoved, f k.angleRotated⟩

namespace Vec3

theorem map_distance (v w : Vec3 ℝ) :
    (v.map some).distance (w.map some) = some (v.distance w) :=
  Scalar.sqrt_some (v - w).dot_self_nonneg

theorem map_sameAs (v w : Vec3 ℝ) : (v.map some).sameAs (w.map some) = v.sameAs w := rfl

end Vec3

theorem Kinematics.coords_map {α β : Type} (f : α → β) (k : Kinematics α) :
    (k.map f).coords = k.coords.map f := rfl

namespace Orbit

/-- The orbit with every number replaced. -/
def map {α β : Type} (f : α → β) (o : Orbit α) : Orbit β :=
  ⟨f o.semiLatusRectum, f o.eccentricity, f o.speed, o.major.map f, o.minor.map f, o.origin,
    f o.trueAnomaly⟩

/-- The orbit with the true anomaly that it has some seconds later. -/
def turned {α : Type} [Scalar α] (o : Orbit α) (elapsed : α) : Orbit α :=
  { o with trueAnomaly := Scalar.wrap (o.trueAnomaly + o.speed * elapsed) Scalar.fullTurn }

/-- The point at the present true anomaly. -/
def here {α : Type} [Scalar α] (o : Orbit α) : Vec3 α := o.pointAt o.trueAnomaly

theorem advance_eq {α : Type} [Scalar α] (o : Orbit α) (k : Kinematics α) (elapsed : α) :
    o.advance k elapsed =
      (o.turned elapsed,
        { k with
          coords := (o.turned elapsed).here
          distanceMoved := k.distanceMoved + k.coords.distance (o.turned elapsed).here },
        !(o.turned elapsed).here.sameAs k.coords) := rfl

/-- Where an orbit leads in ticks of the given lengths. -/
def travel {α : Type} [Scalar α] (o : Orbit α) (k : Kinematics α) (lengths : List α) :
    Orbit α × Kinematics α :=
  lengths.foldl (fun now elapsed =>
    let (o, k, _) := now.1.advance now.2 elapsed
    (o, k)) (o, k)

section Travel

variable {α : Type} [Scalar α] {o : Orbit α} {k : Kinematics α}

theorem travel_cons (elapsed : α) (lengths : List α) : o.travel k (elapsed :: lengths) =
    (o.advance k elapsed).1.travel (o.advance k elapsed).2.1 lengths := rfl

theorem travel_concat (lengths : List α) (elapsed : α) : o.travel k (lengths ++ [elapsed]) =
    (((o.travel k lengths).1.advance (o.travel k lengths).2 elapsed).1,
      ((o.travel k lengths).1.advance (o.travel k lengths).2 elapsed).2.1) :=
  List.foldl_append

/-- Only the true anomaly changes. -/
theorem pointAt_travel (lengths : List α) (θ : α) :
    (o.travel k lengths).1.pointAt θ = o.pointAt θ := by
  induction lengths using List.reverseRecOn with
  | nil => rfl
  | append_singleton lengths elapsed ih =>
    rw [travel_concat]
    exact ih

/-- Every tick leads to the point at the true anomaly after it. -/
theorem coords_travel {lengths : List α} (hlengths : lengths ≠ []) :
    (o.travel k lengths).2.coords = o.pointAt (o.travel k lengths).1.trueAnomaly := by
  obtain ⟨lengths, elapsed, rfl⟩ := (List.eq_nil_or_concat lengths).resolve_left hlengths
  rw [List.concat_eq_append, travel_concat]
  exact pointAt_travel lengths _

end Travel

/-- The center of the ellipse, in the frame of the rule. -/
noncomputable def center (o : Orbit ℝ) : Vec3 ℝ :=
  o.focus - o.major * (o.semiMajorAxis * o.eccentricity)

/-- A point of the ellipse: it lies in the plane of the axes, and its parts along them, seen from
the center, satisfy the equation of the ellipse. -/
def IsOnEllipse (o : Orbit ℝ) (c : Vec3 ℝ) : Prop :=
  let a := o.semiMajorAxis
  let x := (c - o.center).dot o.major
  let y := (c - o.center).dot o.minor
  c = o.center + o.major * x + o.minor * y ∧
    x ^ 2 / a ^ 2 + y ^ 2 / (a ^ 2 * (1 - o.eccentricity ^ 2)) = 1

/-- A bounded ellipse, and axes that are unit vectors at a right angle. -/
structure IsProper (o : Orbit ℝ) : Prop where
  latus : 0 < o.semiLatusRectum
  eccentricity_nonneg : 0 ≤ o.eccentricity
  eccentricity_lt : o.eccentricity < 1
  major : o.major.length = 1
  minor : o.minor.length = 1
  right : o.major.dot o.minor = 0

/-- The equation of an ellipse from a focus leads to the one from the center. -/
theorem equation_of_circle {p e c s : ℝ} (hp : p ≠ 0) (hdivisor : 1 - e * e ≠ 0)
    (hradius : 1 + e * c ≠ 0) (hcircle : s ^ 2 + c ^ 2 = 1) :
    (p / (1 + e * c) * c + p / (1 - e * e) * e) ^ 2 / (p / (1 - e * e)) ^ 2 +
      (p / (1 + e * c) * s) ^ 2 / ((p / (1 - e * e)) ^ 2 * (1 - e ^ 2)) = 1 := by
  rw [← sq] at hdivisor ⊢
  have hx : (p / (1 + e * c) * c + p / (1 - e ^ 2) * e) ^ 2 / (p / (1 - e ^ 2)) ^ 2 =
      (c + e) ^ 2 / (1 + e * c) ^ 2 := by
    field_simp
    ring
  have hy : (p / (1 + e * c) * s) ^ 2 / ((p / (1 - e ^ 2)) ^ 2 * (1 - e ^ 2)) =
      s ^ 2 * (1 - e ^ 2) / (1 + e * c) ^ 2 := by
    field_simp
  rw [hx, hy, ← add_div, div_eq_one_iff_eq (pow_ne_zero 2 hradius)]
  linear_combination (1 - e ^ 2) * hcircle

variable {o : Orbit ℝ}

namespace IsProper

variable (h : o.IsProper)
include h

theorem divisor_pos : 0 < 1 - o.eccentricity * o.eccentricity := by
  nlinarith [h.eccentricity_nonneg, h.eccentricity_lt]

theorem radius_divisor_pos (θ : ℝ) : 0 < 1 + o.eccentricity * Real.cos θ := by
  have hcos := mul_le_mul_of_nonneg_left (Real.neg_one_le_cos θ) h.eccentricity_nonneg
  linarith [h.eccentricity_lt]

theorem semiMajorAxis_pos : 0 < o.semiMajorAxis := div_pos h.latus h.divisor_pos

theorem radiusAt_pos (θ : ℝ) : 0 < o.radiusAt θ := div_pos h.latus (h.radius_divisor_pos θ)

/-- The parts of a point of the plane along the axes. -/
theorem dot_axes (x y : ℝ) : (o.major * x + o.minor * y).dot o.major = x ∧
    (o.major * x + o.minor * y).dot o.minor = y := by
  have hmajor := Vec3.length_eq_one_iff.mp h.major
  have hminor := Vec3.length_eq_one_iff.mp h.minor
  constructor
  · rw [Vec3.add_dot, Vec3.scale_dot, Vec3.scale_dot, hmajor, Vec3.dot_comm, h.right]
    ring
  · rw [Vec3.add_dot, Vec3.scale_dot, Vec3.scale_dot, hminor, h.right]
    ring

theorem length_plane (x y : ℝ) :
    (o.major * x + o.minor * y).length = Real.sqrt (x ^ 2 + y ^ 2) := by
  obtain ⟨hx, hy⟩ := h.dot_axes x y
  show Real.sqrt _ = _
  congr 1
  rw [Vec3.dot_comm, Vec3.add_dot, Vec3.scale_dot, Vec3.scale_dot, Vec3.dot_comm, hx,
    Vec3.dot_comm, hy]
  ring

theorem distance_focus (θ : ℝ) : (o.pointAt θ).distance o.focus = o.radiusAt θ := by
  have hplane : o.pointAt θ - o.focus =
      o.major * (o.radiusAt θ * Real.cos θ) + o.minor * (o.radiusAt θ * Real.sin θ) := by
    show o.focus + o.major * (o.radiusAt θ * Real.cos θ) + o.minor * (o.radiusAt θ * Real.sin θ) -
      o.focus = _
    ext <;> simp only [Vec3.add_eq, Vec3.sub_eq] <;> ring
  have hsquare : (o.radiusAt θ * Real.cos θ) ^ 2 + (o.radiusAt θ * Real.sin θ) ^ 2 =
      o.radiusAt θ ^ 2 := by
    linear_combination o.radiusAt θ ^ 2 * Real.sin_sq_add_cos_sq θ
  rw [Vec3.distance, hplane, h.length_plane, hsquare, Real.sqrt_sq (h.radiusAt_pos θ).le]

/-- What a point is to be like that is given by its parts along the axes, seen from the center. -/
theorem isOnEllipse_iff (x y : ℝ) : o.IsOnEllipse (o.center + o.major * x + o.minor * y) ↔
    x ^ 2 / o.semiMajorAxis ^ 2 +
      y ^ 2 / (o.semiMajorAxis ^ 2 * (1 - o.eccentricity ^ 2)) = 1 := by
  obtain ⟨hx, hy⟩ := h.dot_axes x y
  have hplane : o.center + o.major * x + o.minor * y - o.center = o.major * x + o.minor * y := by
    ext <;> simp only [Vec3.add_eq, Vec3.sub_eq] <;> ring
  unfold IsOnEllipse
  simp only [hplane, hx, hy, true_and]

theorem isOnEllipse_pointAt (θ : ℝ) : o.IsOnEllipse (o.pointAt θ) := by
  have hparts : o.pointAt θ = o.center +
      o.major * (o.radiusAt θ * Real.cos θ + o.semiMajorAxis * o.eccentricity) +
      o.minor * (o.radiusAt θ * Real.sin θ) := by
    show o.focus + o.major * (o.radiusAt θ * Real.cos θ) + o.minor * (o.radiusAt θ * Real.sin θ) = _
    unfold center
    ext <;> simp only [Vec3.add_eq, Vec3.sub_eq, Vec3.scale_eq] <;> ring
  rw [hparts, h.isOnEllipse_iff]
  exact equation_of_circle h.latus.ne' h.divisor_pos.ne' (h.radius_divisor_pos θ).ne'
    (Real.sin_sq_add_cos_sq θ)

/-! ### No division by zero -/

theorem map_semiMajorAxis : (o.map some).semiMajorAxis = some o.semiMajorAxis :=
  Scalar.some_div h.divisor_pos.ne'

theorem map_radiusAt (θ : ℝ) : (o.map some).radiusAt (some θ) = some (o.radiusAt θ) :=
  Scalar.some_div (h.radius_divisor_pos θ).ne'

theorem map_focus : (o.map some).focus = o.focus.map some := by
  unfold focus
  cases horigin : o.origin with
  | focus => simp only [map, horigin]; rfl
  | center =>
    have hmap : (o.map some).origin = .center := horigin
    rw [hmap]
    simp only [h.map_semiMajorAxis]
    rfl

theorem map_pointAt (θ : ℝ) : (o.map some).pointAt (some θ) = (o.pointAt θ).map some := by
  unfold pointAt
  rw [h.map_focus, h.map_radiusAt]
  rfl

theorem turned (elapsed : ℝ) : (o.turned elapsed).IsProper :=
  ⟨h.latus, h.eccentricity_nonneg, h.eccentricity_lt, h.major, h.minor, h.right⟩

theorem map_advance (k : Kinematics ℝ) (elapsed : ℝ) :
    (o.map some).advance (k.map some) (some elapsed) =
      ((o.advance k elapsed).1.map some, (o.advance k elapsed).2.1.map some,
        (o.advance k elapsed).2.2) := by
  have hturned : (o.map some).turned (some elapsed) = (o.turned elapsed).map some :=
    congrArg (fun θ => { o.map some with trueAnomaly := θ })
      (Scalar.wrap_some (o.trueAnomaly + o.speed * elapsed) Real.two_pi_pos.ne')
  have hpoint : ((o.turned elapsed).map some).here = (o.turned elapsed).here.map some :=
    (h.turned elapsed).map_pointAt _
  rw [advance_eq, hturned, hpoint, Kinematics.coords_map, Vec3.map_distance, Vec3.map_sameAs]
  rfl

theorem map_travel (k : Kinematics ℝ) (lengths : List ℝ) :
    (o.map some).travel (k.map some) (lengths.map some) =
      ((o.travel k lengths).1.map some, (o.travel k lengths).2.map some) := by
  induction lengths generalizing o k with
  | nil => rfl
  | cons elapsed lengths ih =>
    have hstep := h.map_advance k elapsed
    have hrest := ih (h.turned elapsed) (o.advance k elapsed).2.1
    rw [List.map_cons, travel_cons, travel_cons, hstep]
    exact hrest

end IsProper

/-- Without rounding, an orbit with a positive semi-latus rectum, an eccentricity from zero to below
one and axes that are unit vectors at a right angle traces an ellipse, whichever point is the
origin.

* Every point is as far from the occupied focus as the equation of the orbit says, and that is more
  than nothing.  It lies on the ellipse around the center, and so do the coordinates after any
  ticks, one at least, which are those of the true anomaly then.
* Nowhere is anything divided by zero: with numbers for which that is undefined, all formulas and
  any ticks lead to the same numbers, all of them defined. -/
theorem ellipse_traced (o : Orbit ℝ) (hlatus : 0 < o.semiLatusRectum)
    (heccentricity : 0 ≤ o.eccentricity) (hbounded : o.eccentricity < 1)
    (hmajor : o.major.length = 1) (hminor : o.minor.length = 1) (hright : o.major.dot o.minor = 0) :
    (0 < o.semiMajorAxis ∧ ∀ θ, 0 < o.radiusAt θ ∧
      (o.pointAt θ).distance o.focus = o.radiusAt θ ∧ o.IsOnEllipse (o.pointAt θ)) ∧
    (∀ k lengths, lengths ≠ [] →
      let after := o.travel k lengths
      after.2.coords = o.pointAt after.1.trueAnomaly ∧ o.IsOnEllipse after.2.coords) ∧
    (o.map some).semiMajorAxis = some o.semiMajorAxis ∧ (o.map some).focus = o.focus.map some ∧
    (∀ θ, (o.map some).radiusAt (some θ) = some (o.radiusAt θ) ∧
      (o.map some).pointAt (some θ) = (o.pointAt θ).map some) ∧
    ∀ k lengths, (o.map some).travel (k.map some) (lengths.map some) =
      ((o.travel k lengths).1.map some, (o.travel k lengths).2.map some) := by
  have h : o.IsProper := ⟨hlatus, heccentricity, hbounded, hmajor, hminor, hright⟩
  refine ⟨⟨h.semiMajorAxis_pos, fun θ => ?_⟩, ?_, h.map_semiMajorAxis, h.map_focus, fun θ => ?_,
    h.map_travel⟩
  · exact ⟨h.radiusAt_pos θ, h.distance_focus θ, h.isOnEllipse_pointAt θ⟩
  · intro k lengths hlengths after
    have hpoint := coords_travel (o := o) (k := k) hlengths
    refine ⟨hpoint, ?_⟩
    rw [hpoint]
    exact h.isOnEllipse_pointAt _
  · exact ⟨h.map_radiusAt θ, h.map_pointAt θ⟩

end Orbit

/-! ### A comet -/

namespace Comet

/-- An orbit in the plane of the first and the third axis, with its center at the origin. -/
noncomputable def orbit (latus eccentricity : ℝ) : Orbit ℝ :=
  ⟨latus, eccentricity, 1, ⟨1, 0, 0⟩, ⟨0, 0, 1⟩, .center, 0⟩

theorem length_axes (latus eccentricity : ℝ) :
    (orbit latus eccentricity).major.length = 1 ∧ (orbit latus eccentricity).minor.length = 1 := by
  rw [Vec3.length_eq_one_iff, Vec3.length_eq_one_iff, Vec3.dot_eq, Vec3.dot_eq]
  norm_num [orbit]

end Comet

open Comet in
/-- At periapsis the comet is as far from the focus as the orbit says, and after two ticks it is on
the ellipse. -/
theorem Orbit.ellipse_traced_comet :
    let o := orbit 40 (3 / 5)
    o.radiusAt 0 = 25 ∧ (o.pointAt 0).distance o.focus = 25 ∧
      o.IsOnEllipse (o.travel Kinematics.initial [1, 2]).2.coords ∧
      (o.map some).radiusAt (some 0) = some 25 := by
  intro o
  obtain ⟨hmajor, hminor⟩ := length_axes 40 (3 / 5)
  have hright : o.major.dot o.minor = 0 := by norm_num [o, orbit, Vec3.dot_eq]
  obtain ⟨⟨-, hpoints⟩, htravel, -, -, hdefined, -⟩ := ellipse_traced o
    (by norm_num [o, orbit]) (by norm_num [o, orbit]) (by norm_num [o, orbit]) hmajor hminor hright
  have hradius : o.radiusAt 0 = 25 := by
    show (40 : ℝ) / (1 + 3 / 5 * Real.cos 0) = 25
    rw [Real.cos_zero]
    norm_num
  have hdistance := (hpoints 0).2.1
  have hnumber := (hdefined 0).1
  rw [hradius] at hdistance hnumber
  exact ⟨hradius, hdistance, (htravel Kinematics.initial [1, 2] (by simp)).2, hnumber⟩

end Orrery
