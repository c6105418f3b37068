import Orrery.Proofs.Space

/-!
# Turning in exact arithmetic

Turning a vector about a unit vector keeps inner products, and turning twice is turning by the sum
of the angles (`Vec3.rotateAbout_dot_rotateAbout`, `Vec3.rotateAbout_rotateAbout`).

So a spin about a unit axis that has been started anew makes one turn in all, however time is cut
into ticks, by the angle that it turns at its speed in this time, or by the stop angle.  The checks
let pass axes that are a little longer or shorter than one.  The angle is the same then and the
orientation stays a unit vector (`Spin.turn_exact`), but turning is no turn any more
(`Spin.turn_wobbles`).  A spin that is built about some axis is not concerned, as its axis is
normalized exactly (`Spin.length_axis_of_new`).
-/

namespace Orrery

/-! ### Turns -/

namespace Vec3

variable {axis : Vec3 ℝ} (v w : Vec3 ℝ) (a b : ℝ)

/-- Turning keeps the part of a vector that lies along the axis. -/
theorem dot_rotateAbout (haxis : axis.dot axis = 1) :
    axis.dot (v.rotateAbout axis a) = axis.dot v := by
  simp only [rotateAbout_eq, add_eq, scale_eq, cross_eq, dot_eq] at haxis ⊢
  linear_combination
    (axis.x * v.x + axis.y * v.y + axis.z * v.z) * (1 - Real.cos a) * haxis

theorem cross_rotateAbout (haxis : axis.dot axis = 1) :
    axis.cross (v.rotateAbout axis a) =
      axis.cross v * Real.cos a + (axis * axis.dot v - v) * Real.sin a := by
  ext <;> simp only [rotateAbout_eq, add_eq, sub_eq, scale_eq, cross_eq, dot_eq] at haxis ⊢
  · linear_combination (-v.x * Real.sin a) * haxis
  · linear_combination (-v.y * Real.sin a) * haxis
  · linear_combination (-v.z * Real.sin a) * haxis

theorem rotateAbout_zero : v.rotateAbout axis 0 = v := by
  rw [rotateAbout_eq, Real.cos_zero, Real.sin_zero]
  ext <;> simp only [add_eq, scale_eq] <;> ring

/-- Turning twice is turning by the sum of the angles. -/
theorem rotateAbout_rotateAbout (haxis : axis.dot axis = 1) :
    (v.rotateAbout axis a).rotateAbout axis b = v.rotateAbout axis (a + b) := by
  rw [rotateAbout_eq _ _ b, dot_rotateAbout v a haxis, cross_rotateAbout v a haxis,
    rotateAbout_eq, rotateAbout_eq, Real.cos_add, Real.sin_add]
  ext <;> simp only [add_eq, sub_eq, scale_eq] <;> ring

/-- Inner products across the axis and along it, whatever the length of the axis. -/
theorem rotateAbout_dot_rotateAbout : (v.rotateAbout axis a).dot (w.rotateAbout axis a) =
    v.dot w * (Real.cos a ^ 2 + axis.dot axis * Real.sin a ^ 2) +
      axis.dot v * axis.dot w *
        (2 * Real.cos a * (1 - Real.cos a) + axis.dot axis * (1 - Real.cos a) ^ 2 -
          Real.sin a ^ 2) := by
  simp only [rotateAbout_eq, add_eq, scale_eq, cross_eq, dot_eq]
  ring

/-- Turning about a unit vector keeps inner products. -/
theorem rotateAbout_dot_of_unit (haxis : axis.dot axis = 1) :
    (v.rotateAbout axis a).dot (w.rotateAbout axis a) = v.dot w := by
  rw [rotateAbout_dot_rotateAbout, haxis]
  linear_combination (v.dot w - axis.dot v * axis.dot w) * Real.sin_sq_add_cos_sq a

theorem length_rotateAbout (haxis : axis.dot axis = 1) :
    (v.rotateAbout axis a).length = v.length :=
  congrArg Real.sqrt (rotateAbout_dot_of_unit v v a haxis)

/-- Across the axis, vectors keep their lengths only if the axis is a unit vector. -/
theorem dot_axis_of_length_rotateAbout {v : Vec3 ℝ} (hv : v.length = 1) (hacross : axis.dot v = 0)
    (hangle : Real.sin a ≠ 0) (h : (v.rotateAbout axis a).length = 1) : axis.dot axis = 1 := by
  rw [length_eq_one_iff] at hv h
  rw [rotateAbout_dot_rotateAbout, hv, hacross] at h
  have hcircle := Real.sin_sq_add_cos_sq a
  have hfactor : (axis.dot axis - 1) * Real.sin a ^ 2 = 0 := by linear_combination h - hcircle
  exact sub_eq_zero.mp ((mul_eq_zero.mp hfactor).resolve_right (pow_ne_zero 2 hangle))

/-- There is a direction across every vector. -/
theorem exists_unit_across : ∃ u : Vec3 ℝ, u.length = 1 ∧ v.dot u = 0 := by
  by_cases hv : v.x = 0 ∧ v.y = 0
  · refine ⟨⟨1, 0, 0⟩, length_eq_one_iff.mpr ?_, ?_⟩ <;> simp [dot_eq, hv]
  · let w : Vec3 ℝ := ⟨v.y, -v.x, 0⟩
    have hw : w.length ≠ 0 := by
      intro hzero
      have hsquare : v.y * v.y + v.x * v.x = 0 := by
        have hdot := w.length_mul_self
        rw [hzero, dot_eq] at hdot
        linear_combination -hdot
      have hzeros := mul_self_add_mul_self_eq_zero.mp hsquare
      exact hv ⟨hzeros.2, hzeros.1⟩
    refine ⟨w * (1 / w.length), length_of_normalize? (v := w) ?_, ?_⟩
    · rw [normalize?_eq, if_neg hw]
    · rw [dot_scale]
      simp only [dot_eq, w]
      ring

end Vec3

/-! ### Spins -/

theorem Scalar.abs_sign {x : ℝ} (hx : x ≠ 0) : |(SignType.sign x : ℝ)| = 1 := by
  have habs : |(SignType.sign x : ℝ) * (|x|)| = |x| := by rw [sign_mul_abs]
  rw [abs_mul, abs_abs] at habs
  exact (mul_eq_right₀ (abs_ne_zero.mpr hx)).mp habs

theorem Scalar.withSignOf_eq {x y : ℝ} (hx : 0 ≤ x) (hy : y ≠ 0) :
    Scalar.withSignOf x y = SignType.sign y * x := by
  show (if y < 0 then -|x| else |x|) = _
  rw [abs_of_nonneg hx]
  split
  · next hneg => simp [hneg]
  · next hpos => simp [lt_of_le_of_ne (not_lt.mp hpos) hy.symm]

namespace Spin

/-- How a spin turns in ticks of the given lengths. -/
def turn {α : Type} [Scalar α] (s : Spin α) (k : Kinematics α) (lengths : List α) : Kinematics α :=
  lengths.foldl (fun k elapsed => (s.rotate k elapsed).1) k

/-- How far a way leads that is measured in radians: all the way, or up to the stop angle. -/
noncomputable def reach (s : Spin ℝ) (way : ℝ) : ℝ :=
  match s.stopAngle with
  | none => way
  | some stop => min stop way

/-- The angle of the next turn, zero if there is none. -/
noncomputable def nextAngle (s : Spin ℝ) (k : Kinematics ℝ) (elapsed : ℝ) : ℝ :=
  if s.isRotating k then s.clippedAngle k elapsed else 0

variable {s : Spin ℝ} {k start : Kinematics ℝ} {way elapsed : ℝ}

theorem rotate_eq : (s.rotate k elapsed).1 =
    if s.nextAngle k elapsed = 0 then k
    else
      { k with
        orientation :=
          (k.orientation.rotateAbout s.axis (s.nextAngle k elapsed)).normalize?.getD k.orientation
        angleRotated := k.angleRotated + |s.nextAngle k elapsed| } := by
  unfold rotate nextAngle
  cases s.isRotating k with
  | false => simp
  | true =>
    show (if decide (s.clippedAngle k elapsed = 0) = true then _ else _ : Kinematics ℝ × Bool).1 = _
    simp only [decide_eq_true_iff, if_true]
    split <;> rfl

theorem reach_le_reach {way' : ℝ} (h : way ≤ way') : s.reach way ≤ s.reach way' := by
  unfold reach
  cases s.stopAngle with
  | none => exact h
  | some stop => exact min_le_min_left stop h

theorem isComplete_iff (hk : k.angleRotated = s.reach way) :
    s.isComplete k = true ↔ ∃ stop, s.stopAngle = some stop ∧ stop ≤ way := by
  unfold isComplete
  rw [hk, reach]
  cases s.stopAngle <;> simp [Scalar.le_iff]

/-- The next turn makes up for what a longer way leads farther. -/
theorem nextAngle_eq (hk : k.angleRotated = s.reach way) (helapsed : 0 ≤ elapsed) :
    s.nextAngle k elapsed =
      SignType.sign s.speed * (s.reach (way + |s.speed| * elapsed) - s.reach way) := by
  have hstep : s.speed * elapsed = SignType.sign s.speed * (|s.speed| * elapsed) := by
    rw [← mul_assoc, sign_mul_abs]
  have hend := isComplete_iff hk
  unfold nextAngle isRotating
  by_cases hstill : s.speed = 0
  · have hstays : Scalar.eq s.speed (Scalar.zero : ℝ) = true := decide_eq_true hstill
    rw [hstays, hstill]
    simp
  have hmoves : Scalar.eq s.speed (Scalar.zero : ℝ) = false := decide_eq_false hstill
  rw [hmoves]
  cases hcomplete : s.isComplete k with
  | true =>
    -- a longer way leads no farther
    obtain ⟨stop, hstop, hle⟩ := hend.mp hcomplete
    have hbeyond : stop ≤ way + |s.speed| * elapsed :=
      hle.trans (le_add_of_nonneg_right (mul_nonneg (abs_nonneg _) helapsed))
    simp [reach, hstop, min_eq_left hle, min_eq_left hbeyond]
  | false =>
    show s.clippedAngle k elapsed = _
    unfold clippedAngle
    cases hstop : s.stopAngle with
    | none =>
      simp only [reach, hstop, add_sub_cancel_left]
      exact hstep
    | some stop =>
      have hlt : way < stop := by
        by_contra hle
        rw [hend.mpr ⟨stop, hstop, not_lt.mp hle⟩] at hcomplete
        cases hcomplete
      have hremaining : Scalar.larger (stop - way) (Scalar.zero : ℝ) = stop - way :=
        max_eq_left (sub_nonneg.mpr hlt.le)
      have hangle : Scalar.abs (s.speed * elapsed) = |s.speed| * elapsed := by
        rw [← abs_of_nonneg helapsed, ← abs_mul, abs_of_nonneg helapsed]
        rfl
      rw [reach, hstop] at hk
      simp only [hk, reach, hstop, min_eq_right hlt.le, hremaining, hangle, Scalar.lt_iff]
      split
      · next hclip =>
        have hlong : 0 < |s.speed| * elapsed := (sub_pos.mpr hlt).trans hclip
        have hpos : 0 < elapsed := pos_of_mul_pos_right hlong (abs_nonneg _)
        rw [min_eq_left (sub_lt_iff_lt_add'.mp hclip).le,
          Scalar.withSignOf_eq (sub_pos.mpr hlt).le (mul_ne_zero hstill hpos.ne'), sign_mul,
          sign_pos hpos, mul_one]
      · next hfits =>
        rw [min_eq_right (le_sub_iff_add_le'.mp (not_lt.mp hfits)), add_sub_cancel_left, hstep]

theorem abs_nextAngle (hk : k.angleRotated = s.reach way) (helapsed : 0 ≤ elapsed) :
    |s.nextAngle k elapsed| = s.reach (way + |s.speed| * elapsed) - s.reach way := by
  rw [nextAngle_eq hk helapsed]
  have hgrows : 0 ≤ s.reach (way + |s.speed| * elapsed) - s.reach way :=
    sub_nonneg.mpr (reach_le_reach (le_add_of_nonneg_right (mul_nonneg (abs_nonneg _) helapsed)))
  rw [abs_mul, abs_of_nonneg hgrows]
  by_cases hstill : s.speed = 0
  · simp [hstill]
  · rw [Scalar.abs_sign hstill, one_mul]

/-- What a spin makes of the state `k` in which it was started, on a way of so many radians. -/
structure Turned (s : Spin ℝ) (k after : Kinematics ℝ) (way : ℝ) : Prop where
  angleRotated : after.angleRotated = s.reach way
  /-- It is still a unit vector. -/
  length_orientation : after.orientation.length = 1
  orientation : s.axis.length = 1 →
    after.orientation = k.orientation.rotateAbout s.axis (SignType.sign s.speed * s.reach way)
  coords : after.coords = k.coords
  distanceMoved : after.distanceMoved = k.distanceMoved

/-- A tick turns on along the same way. -/
theorem Turned.rotate (h : s.Turned start k way) (hstart : start.orientation.length = 1)
    (helapsed : 0 ≤ elapsed) :
    s.Turned start (s.rotate k elapsed).1 (way + |s.speed| * elapsed) := by
  have hangle := abs_nextAngle h.angleRotated helapsed
  have hnext := nextAngle_eq h.angleRotated helapsed
  rw [rotate_eq]
  split
  · next hstays =>
    have hsame : s.reach (way + |s.speed| * elapsed) = s.reach way := by
      rw [hstays, abs_zero] at hangle
      exact (sub_eq_zero.mp hangle.symm)
    exact { h with
      angleRotated := h.angleRotated.trans hsame.symm
      orientation := by rw [hsame]; exact h.orientation }
  · refine ⟨?_, ?_, ?_, h.coords, h.distanceMoved⟩
    · show k.angleRotated + |s.nextAngle k elapsed| = _
      rw [hangle, h.angleRotated, add_sub_cancel]
    · show Vec3.length (Option.getD _ _) = 1
      cases hturned : (k.orientation.rotateAbout s.axis (s.nextAngle k elapsed)).normalize? with
      | none => exact h.length_orientation
      | some u => exact Vec3.length_of_normalize? hturned
    · intro haxis
      have hunit := Vec3.length_eq_one_iff.mp haxis
      show Option.getD _ _ = _
      rw [h.orientation haxis, Vec3.rotateAbout_rotateAbout _ _ _ hunit, hnext, ← mul_add,
        add_sub_cancel, Vec3.normalize?_of_length_eq_one, Option.getD_some]
      exact (Vec3.length_rotateAbout _ _ hunit).trans hstart

theorem Turned.turn (h : s.Turned start k way) (hstart : start.orientation.length = 1)
    {lengths : List ℝ} (hlengths : ∀ elapsed ∈ lengths, 0 ≤ elapsed) :
    s.Turned start (s.turn k lengths) (way + |s.speed| * lengths.sum) := by
  induction lengths generalizing k way with
  | nil => simpa [Spin.turn] using h
  | cons elapsed lengths ih =>
    obtain ⟨hfirst, hrest⟩ := List.forall_mem_cons.mp hlengths
    have hlater := ih (h.rotate hstart hfirst) hrest
    rw [List.sum_cons, mul_add, ← add_assoc]
    exact hlater

theorem turned_start (hs : s.validate = .ok ()) (hk : k.orientation.length = 1)
    (hangle : k.angleRotated = 0) : s.Turned k k 0 := by
  have hreach : s.reach 0 = 0 := by
    unfold reach
    cases hstop : s.stopAngle with
    | none => rfl
    | some stop =>
      have hstop := ((validate_eq_ok_iff.mp hs).2.2 stop hstop).2
      exact min_eq_right (not_lt.mp (of_decide_eq_false hstop))
  refine ⟨hangle.trans hreach.symm, hk, fun _ => ?_, rfl, rfl⟩
  rw [hreach, mul_zero, Vec3.rotateAbout_zero]

/-- A spin without speed, or one that has to stop at once, leaves everything as it is. -/
theorem turn_of_idle (hidle : s.speed = 0 ∨ s.stopAngle = some 0) (hangle : k.angleRotated = 0)
    (lengths : List ℝ) : s.turn k lengths = k := by
  have hrests : s.isRotating k = false := by
    unfold isRotating isComplete
    rcases hidle with hspeed | hstop
    · have hzero : Scalar.eq s.speed (Scalar.zero : ℝ) = true := decide_eq_true hspeed
      rw [hzero]
      rfl
    · have hend : Scalar.le 0 k.angleRotated = true := Scalar.le_iff.mpr hangle.ge
      rw [hstop, Option.any_some, hend, Bool.not_true, Bool.and_false]
  induction lengths with
  | nil => rfl
  | cons elapsed lengths ih =>
    have hstep : (s.rotate k elapsed).1 = k := by simp [rotate, hrests]
    rw [turn, List.foldl_cons, hstep]
    exact ih

/-- A turn about a longer or shorter axis that is no full or half turn is out of line for a vector
across the axis, since it is normalized again. -/
theorem length_axis_of_orientation (hs : s.validate = .ok ()) (hspeed : s.speed ≠ 0)
    (hstop : s.stopAngle ≠ some 0)
    (h : ∀ k : Kinematics ℝ, k.orientation.length = 1 → k.angleRotated = 0 →
      ∀ lengths : List ℝ, (∀ elapsed ∈ lengths, 0 ≤ elapsed) →
        (s.turn k lengths).orientation = k.orientation.rotateAbout s.axis
          (SignType.sign s.speed * (s.turn k lengths).angleRotated)) : s.axis.length = 1 := by
  obtain ⟨u, hu, hacross⟩ := s.axis.exists_unit_across
  let k : Kinematics ℝ := { Kinematics.initial with orientation := u }
  -- turning for so long leads to an angle of at most one radian
  have hspeed' : 0 < |s.speed| := abs_pos.mpr hspeed
  have hlengths : ∀ elapsed ∈ [1 / |s.speed|], 0 ≤ elapsed :=
    List.forall_mem_singleton.mpr (one_div_nonneg.mpr hspeed'.le)
  have hturned := (turned_start (k := k) hs hu rfl).turn hu hlengths
  rw [List.sum_singleton, zero_add, mul_one_div_cancel hspeed'.ne'] at hturned
  have hreach : 0 < s.reach 1 ∧ s.reach 1 ≤ 1 := by
    unfold reach
    cases hlimit : s.stopAngle with
    | none => exact ⟨one_pos, le_rfl⟩
    | some stop =>
      have hnonneg : 0 ≤ stop :=
        not_lt.mp (of_decide_eq_false ((validate_eq_ok_iff.mp hs).2.2 stop hlimit).2)
      have hpos : 0 < stop := lt_of_le_of_ne hnonneg fun hzero => hstop (hzero ▸ hlimit)
      exact ⟨lt_min hpos one_pos, min_le_right _ _⟩
  have hline := h k hu rfl _ hlengths
  rw [hturned.angleRotated] at hline
  refine Vec3.length_eq_one_iff.mpr (Vec3.dot_axis_of_length_rotateAbout _ hu hacross ?_
    (hline ▸ hturned.length_orientation))
  have habs : |SignType.sign s.speed * s.reach 1| = s.reach 1 := by
    rw [abs_mul, Scalar.abs_sign hspeed, one_mul, abs_of_pos hreach.1]
  have hpi : s.reach 1 < Real.pi := hreach.2.trans_lt (by linarith [Real.pi_gt_three])
  obtain ⟨hlow, hhigh⟩ := abs_lt.mp (habs.trans_lt hpi)
  rw [Ne, Real.sin_eq_zero_iff_of_lt_of_lt hlow hhigh, ← abs_eq_zero, habs]
  exact hreach.1.ne'

/-- A spin that is built about some axis turns about a unit vector. -/
theorem length_axis_of_new {axis : Vec3 ℝ} {speed : ℝ} (h : Spin.new axis speed = .ok s) :
    s.axis.length = 1 := by
  unfold Spin.new at h
  cases haxis : axis.normalize? with
  | none =>
    rw [haxis] at h
    cases h
  | some unit =>
    rw [haxis] at h
    simp only [bind, Except.bind] at h
    split at h
    · cases h
    · cases h
      exact Vec3.length_of_normalize? haxis

/-- Without rounding, turning about a unit axis keeps the length of a vector and its part along the
axis, and turning twice is turning by the sum of the angles.

A valid spin that is started anew with a unit vector has turned after any ticks by the angle that it
turns at its speed in the time of all of them together, though by no more than the stop angle.  It
is complete just if there is a stop angle and the spin has come to it, and the orientation is still
a unit vector.  All the ticks together have turned the orientation once, by this angle to the side
of the speed, for every start and all ticks if and only if the axis is a unit vector, as it is if
the spin was built about some axis, or the spin never turns at all. -/
theorem turn_exact :
    (∀ axis : Vec3 ℝ, axis.length = 1 → ∀ (v : Vec3 ℝ) (a b : ℝ),
      (v.rotateAbout axis a).length = v.length ∧
      axis.dot (v.rotateAbout axis a) = axis.dot v ∧
      (v.rotateAbout axis a).rotateAbout axis b = v.rotateAbout axis (a + b)) ∧
    (∀ (axis : Vec3 ℝ) (speed : ℝ) (s : Spin ℝ), Spin.new axis speed = .ok s →
      s.axis.length = 1) ∧
    ∀ s : Spin ℝ, s.validate = .ok () →
      (∀ k : Kinematics ℝ, k.orientation.length = 1 → k.angleRotated = 0 →
        ∀ lengths : List ℝ, (∀ elapsed ∈ lengths, 0 ≤ elapsed) →
          let way := |s.speed| * lengths.sum
          let after := s.turn k lengths
          after.angleRotated = (match s.stopAngle with
            | none => way
            | some stop => min stop way) ∧
          (s.isComplete after = true ↔ ∃ stop, s.stopAngle = some stop ∧ stop ≤ way) ∧
          after.orientation.length = 1 ∧
          after.coords = k.coords ∧ after.distanceMoved = k.distanceMoved) ∧
      ((∀ k : Kinematics ℝ, k.orientation.length = 1 → k.angleRotated = 0 →
        ∀ lengths : List ℝ, (∀ elapsed ∈ lengths, 0 ≤ elapsed) →
          let after := s.turn k lengths
          after.orientation = k.orientation.rotateAbout s.axis
            (SignType.sign s.speed * after.angleRotated)) ↔
        s.axis.length = 1 ∨ s.speed = 0 ∨ s.stopAngle = some 0) := by
  refine ⟨?_, fun _ _ _ => length_axis_of_new, ?_⟩
  · intro axis haxis v a b
    have hunit := Vec3.length_eq_one_iff.mp haxis
    exact ⟨Vec3.length_rotateAbout v a hunit, Vec3.dot_rotateAbout v a hunit,
      Vec3.rotateAbout_rotateAbout v a b hunit⟩
  · intro s hs
    have hturned : ∀ k : Kinematics ℝ, k.orientation.length = 1 → k.angleRotated = 0 →
        ∀ lengths : List ℝ, (∀ elapsed ∈ lengths, 0 ≤ elapsed) →
          s.Turned k (s.turn k lengths) (|s.speed| * lengths.sum) := by
      intro k hk hangle lengths hlengths
      have hafter := (turned_start hs hk hangle).turn hk hlengths
      rwa [zero_add] at hafter
    refine ⟨?_, ?_, ?_⟩
    · intro k hk hangle lengths hlengths
      have hafter := hturned k hk hangle lengths hlengths
      exact ⟨hafter.angleRotated, isComplete_iff hafter.angleRotated, hafter.length_orientation,
        hafter.coords, hafter.distanceMoved⟩
    · intro hline
      by_contra hothers
      obtain ⟨haxis, hspeed, hstop⟩ : s.axis.length ≠ 1 ∧ s.speed ≠ 0 ∧ s.stopAngle ≠ some 0 := by
        simpa [not_or] using hothers
      exact haxis (length_axis_of_orientation hs hspeed hstop hline)
    · rintro (haxis | hidle) k hk hangle lengths hlengths after
      · have hafter := hturned k hk hangle lengths hlengths
        rw [hafter.angleRotated]
        exact hafter.orientation haxis
      · have hafter : after = k := turn_of_idle hidle hangle lengths
        rw [hafter, hangle, mul_zero, Vec3.rotateAbout_zero]

end Spin

/-! ### A carousel -/

namespace Carousel

/-- A radian per second about the third axis, the other way round, for a radian. -/
noncomputable def spin : Spin ℝ := ⟨⟨0, 0, 1⟩, -1, some 1⟩

/-- At the origin, facing along the first axis. -/
noncomputable def start : Kinematics ℝ := { Kinematics.initial with orientation := ⟨1, 0, 0⟩ }

theorem length_axis : spin.axis.length = 1 := by
  rw [Vec3.length_eq_one_iff, Vec3.dot_eq]
  norm_num [spin]

theorem length_start : start.orientation.length = 1 := by
  rw [Vec3.length_eq_one_iff, Vec3.dot_eq]
  norm_num [start]

theorem validate_spin : spin.validate = .ok () := by
  refine Spin.validate_eq_ok_iff.mpr ⟨⟨rfl, decide_eq_false (not_le.mpr ?_)⟩, ?_, ?_⟩
  · show |(-1 : ℝ)| < 2 * Real.pi
    rw [abs_neg, abs_one]
    linarith [Real.pi_gt_three]
  · exact Vec3.isNormalized_of_length length_axis
  · rintro stop ⟨⟩
    exact ⟨rfl, decide_eq_false (not_lt.mpr zero_le_one)⟩

end Carousel

open Carousel in
/-- The carousel stops after a second, in the middle of the second tick. -/
theorem Spin.turn_exact_carousel :
    let after := spin.turn start [1 / 2, 1]
    after.angleRotated = 1 ∧ spin.isComplete after = true ∧
      after.orientation = ⟨Real.cos 1, -Real.sin 1, 0⟩ ∧
      (start.orientation.rotateAbout spin.axis 1).length = 1 := by
  obtain ⟨hunits, -, hspins⟩ := turn_exact
  obtain ⟨hturn, hline⟩ := hspins spin validate_spin
  have hlengths : ∀ elapsed ∈ [(1 : ℝ) / 2, 1], 0 ≤ elapsed := by norm_num
  have hway : 1 ≤ |spin.speed| * [(1 : ℝ) / 2, 1].sum := by
    show 1 ≤ |(-1 : ℝ)| * [(1 : ℝ) / 2, 1].sum
    norm_num
  obtain ⟨hangle, hcomplete, -⟩ := hturn start length_start rfl _ hlengths
  have hangle := hangle.trans (min_eq_left hway)
  refine ⟨hangle, hcomplete.mpr ⟨_, rfl, hway⟩, ?_, ?_⟩
  · have horientation := hline.mpr (.inl length_axis) start length_start rfl _ hlengths
    have hback : SignType.sign spin.speed = -1 := sign_neg (neg_lt_zero.mpr one_pos)
    rw [horientation, hangle, hback, Vec3.rotateAbout_eq]
    simp [Vec3.add_eq, Vec3.scale_eq, Vec3.cross_eq, Vec3.dot_eq, start, spin]
  · exact (hunits spin.axis length_axis start.orientation 1 0).1.trans length_start

/-! ### A wobble -/

namespace Wobble

/-- A radian per second about an axis that is too long by `excess`. -/
noncomputable def spin (excess : ℝ) : Spin ℝ := ⟨⟨0, 0, 1 + excess⟩, 1, none⟩

variable (excess : ℝ)

theorem dot_axis : (spin excess).axis.dot (spin excess).axis = (1 + excess) ^ 2 := by
  show (0 : ℝ) * 0 + 0 * 0 + (1 + excess) * (1 + excess) = (1 + excess) ^ 2
  ring

variable {excess} in
theorem validate_spin (hexcess : 0 < excess) (hsmall : excess < 1 / 10 ^ 6) :
    (spin excess).validate = .ok () := by
  refine Spin.validate_eq_ok_iff.mpr ⟨⟨rfl, decide_eq_false (not_le.mpr ?_)⟩, ?_, nofun⟩
  · show |(1 : ℝ)| < 2 * Real.pi
    rw [abs_one]
    linarith [Real.pi_gt_three]
  · have hlength : (spin excess).axis.length = 1 + excess := by
      show Real.sqrt ((spin excess).axis.dot (spin excess).axis) = 1 + excess
      rw [dot_axis, Real.sqrt_sq (by linarith)]
    rw [Vec3.isNormalized_iff, hlength, add_sub_cancel_left, abs_of_pos hexcess]
    exact hsmall

/-- Across the axis the turned vector is stretched, and then made a unit vector again. -/
theorem exists_orientation_turn : ∃ c, ((spin excess).turn Carousel.start [1]).orientation =
    ⟨Real.cos 1 * c, (1 + excess) * Real.sin 1 * c, 0⟩ := by
  have hturned : Carousel.start.orientation.rotateAbout (spin excess).axis 1 =
      ⟨Real.cos 1, (1 + excess) * Real.sin 1, 0⟩ := by
    simp [Vec3.rotateAbout_eq, Vec3.add_eq, Vec3.scale_eq, Vec3.cross_eq, Vec3.dot_eq, spin,
      Carousel.start]
  have hangle : (spin excess).nextAngle Carousel.start 1 = 1 := by
    have hstart : Carousel.start.angleRotated = (spin excess).reach 0 := rfl
    have hnext := Spin.nextAngle_eq hstart zero_le_one
    simpa [Spin.reach, spin] using hnext
  have hlength : (⟨Real.cos 1, (1 + excess) * Real.sin 1, 0⟩ : Vec3 ℝ).length ≠ 0 := by
    intro hzero
    have hsquares := Vec3.length_mul_self ⟨Real.cos 1, (1 + excess) * Real.sin 1, 0⟩
    rw [hzero, Vec3.dot_eq] at hsquares
    have hcos : 0 < Real.cos 1 * Real.cos 1 := mul_pos Real.cos_one_pos Real.cos_one_pos
    linarith [mul_self_nonneg ((1 + excess) * Real.sin 1)]
  have hafter : (spin excess).turn Carousel.start [1] =
      ((spin excess).rotate Carousel.start 1).1 := rfl
  rw [hafter, Spin.rotate_eq, hangle, if_neg one_ne_zero, hturned, Vec3.normalize?_eq,
    if_neg hlength, Option.getD_some, Vec3.scale_eq, zero_mul]
  exact ⟨_, rfl⟩

end Wobble

open Wobble Carousel in
/-- An axis that is not quite a unit vector passes the checks.  After a turn of one radian the
orientation is neither what turning by one radian about this axis leads to, nor about the unit
vector along it. -/
theorem Spin.turn_wobbles :
    let s := Wobble.spin (1 / 2 ^ 21)
    let after := s.turn start [1]
    s.validate = .ok () ∧ start.orientation.length = 1 ∧ start.angleRotated = 0 ∧
      after.angleRotated = 1 ∧
      after.orientation ≠ start.orientation.rotateAbout s.axis 1 ∧
      after.orientation ≠ start.orientation.rotateAbout ⟨0, 0, 1⟩ 1 := by
  intro s after
  have hs : s.validate = .ok () := Wobble.validate_spin (by norm_num) (by norm_num)
  have hturned : s.Turned start after 1 := by
    have hlengths : ∀ elapsed ∈ [(1 : ℝ)], 0 ≤ elapsed := by norm_num
    have hafter := (turned_start hs length_start rfl).turn length_start hlengths
    have hway : (0 : ℝ) + |s.speed| * [1].sum = 1 := by
      show 0 + |(1 : ℝ)| * [1].sum = 1
      norm_num
    rwa [hway] at hafter
  have hsin : 0 < Real.sin 1 :=
    Real.sin_pos_of_pos_of_lt_pi one_pos (by linarith [Real.pi_gt_three])
  refine ⟨hs, length_start, rfl, hturned.angleRotated, ?_, ?_⟩
  · intro hline
    have hacross : s.axis.dot start.orientation = 0 := by
      show (0 : ℝ) * 1 + 0 * 0 + (1 + 1 / 2 ^ 21) * 0 = 0
      ring
    have hunit := Vec3.dot_axis_of_length_rotateAbout 1 length_start hacross hsin.ne'
      (hline ▸ hturned.length_orientation)
    rw [dot_axis] at hunit
    norm_num at hunit
  · intro hline
    obtain ⟨c, hc⟩ := exists_orientation_turn (1 / 2 ^ 21)
    have hplain : start.orientation.rotateAbout ⟨0, 0, 1⟩ 1 = ⟨Real.cos 1, Real.sin 1, 0⟩ := by
      simp [Vec3.rotateAbout_eq, Vec3.add_eq, Vec3.scale_eq, Vec3.cross_eq, Vec3.dot_eq, start]
    rw [hc, hplain, Vec3.mk.injEq] at hline
    have hscale : c = 1 := mul_left_cancel₀ Real.cos_one_pos.ne' (by rw [hline.1, mul_one])
    rw [hscale, mul_one] at hline
    linarith [hline.2.1]

end Orrery
