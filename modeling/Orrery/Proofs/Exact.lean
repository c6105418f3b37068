import Mathlib
import Orrery.Proofs.Upkeep

/-!
# Cruises in exact arithmetic

The formulas of motion are written over any scalars.  Read over the real numbers they say what the
program would do if it did not round.

Then it does not matter to a cruise that does not turn how time is cut into ticks, but only how long
they are together.  It is where the way leads that it makes in this time, or where the stop distance
ends, and there it stays (`Cruise.travel_exact`).
-/

namespace Orrery

/-! ### Real numbers -/

/-- Measuring without rounding.  All numbers are finite, and so none ever gives way to another. -/
noncomputable instance : Scalar ℝ where
  zero := 0
  one := 1
  fullTurn := 2 * Real.pi
  tolerance := 1 / 10 ^ 6
  lt x y := decide (x < y)
  le x y := decide (x ≤ y)
  eq x y := decide (x = y)
  isFinite _ := true
  abs x := |x|
  sqrt := Real.sqrt
  sin := Real.sin
  cos := Real.cos
  larger := max
  smaller := min
  withSignOf x s := if s < 0 then -|x| else |x|
  wrap x m := x - |m| * ⌊x / |m|⌋

namespace Scalar

variable {x y : ℝ}

theorem lt_iff : Scalar.lt x y = true ↔ x < y := decide_eq_true_iff

theorem le_iff : Scalar.le x y = true ↔ x ≤ y := decide_eq_true_iff

theorem isPositive_iff : Scalar.isPositive x = true ↔ 0 < x := by
  show (true && !decide (x ≤ 0)) = true ↔ 0 < x
  simp

end Scalar

namespace Vec3

variable (v : Vec3 ℝ)

theorem add_scale_zero (d : Vec3 ℝ) : v + d * (0 : ℝ) = v := by
  show Vec3.mk (v.x + d.x * 0) (v.y + d.y * 0) (v.z + d.z * 0) = v
  simp

theorem add_scale_add (d : Vec3 ℝ) (s t : ℝ) : v + d * s + d * t = v + d * (s + t) := by
  show Vec3.mk (v.x + d.x * s + d.x * t) (v.y + d.y * s + d.y * t) (v.z + d.z * s + d.z * t) =
    Vec3.mk (v.x + d.x * (s + t)) (v.y + d.y * (s + t)) (v.z + d.z * (s + t))
  simp only [mul_add, add_assoc]

end Vec3

/-! ### Cruises -/

namespace Cruise

/-- Where a cruise leads in ticks of the given lengths. -/
def travel {α : Type} [Scalar α] (c : Cruise α) (k : Kinematics α) (lengths : List α) :
    Kinematics α :=
  lengths.foldl (fun k elapsed => (c.advance k elapsed).1) k

/-- How far a way leads: all the way, or up to the stop distance. -/
noncomputable def reach (c : Cruise ℝ) (way : ℝ) : ℝ :=
  match c.stopDistance with
  | none => way
  | some stop => min stop way

/-- Where a way along the direction leads from `k`, with the odometer started there. -/
noncomputable def along (c : Cruise ℝ) (k : Kinematics ℝ) (way : ℝ) : Kinematics ℝ :=
  { k with coords := k.coords + c.direction * c.reach way, distanceMoved := c.reach way }

variable {c : Cruise ℝ} {k : Kinematics ℝ}

theorem hasTerminated_along_iff (hspin : c.spin = none) (way : ℝ) :
    c.hasTerminated (c.along k way) = true ↔ ∃ stop, c.stopDistance = some stop ∧ stop ≤ way := by
  unfold hasTerminated along reach
  cases hstop : c.stopDistance with
  | none => simp [hspin]
  | some stop => simp [hspin, Scalar.le_iff]

/-- Before the end the next step is what the longer way leads farther. -/
theorem clippedStep_along {way elapsed : ℝ}
    (hlt : ∀ stop, c.stopDistance = some stop → way < stop) :
    c.clippedStep (c.along k way) elapsed =
      (c.reach (way + c.speed * elapsed) - c.reach way, c.reach (way + c.speed * elapsed)) := by
  unfold clippedStep along reach
  generalize c.speed * elapsed = step
  cases hstop : c.stopDistance with
  | none => exact Prod.ext (add_sub_cancel_left way step).symm rfl
  | some stop =>
    have hway : way < stop := hlt stop hstop
    have hremaining : Scalar.larger (stop - way) (Scalar.zero : ℝ) = stop - way :=
      max_eq_left (sub_nonneg.mpr hway.le)
    simp only [min_eq_right hway.le, hremaining, Scalar.le_iff, sub_le_iff_le_add']
    split
    · next hend => rw [min_eq_left hend]
    · next hend => rw [min_eq_right (not_le.mp hend).le, add_sub_cancel_left]

theorem reach_le_reach {way way' : ℝ} (h : way ≤ way') : c.reach way ≤ c.reach way' := by
  unfold reach
  cases c.stopDistance with
  | none => exact h
  | some stop => exact min_le_min_left stop h

/-- A tick leads on along the same way. -/
theorem advance_along (hspin : c.spin = none) {way elapsed : ℝ} (hstep : 0 ≤ c.speed * elapsed) :
    (c.advance (c.along k way) elapsed).1 = c.along k (way + c.speed * elapsed) := by
  have hend := hasTerminated_along_iff (k := k) hspin way
  unfold advance
  cases hterminated : c.hasTerminated (c.along k way) with
  | true =>
    -- a longer way leads no farther
    obtain ⟨stop, hstop, hle⟩ := hend.mp hterminated
    have hreach : c.reach (way + c.speed * elapsed) = c.reach way := by
      have hbeyond := hle.trans (le_add_of_nonneg_right hstep)
      simp only [reach, hstop, min_eq_left hle, min_eq_left hbeyond]
    rw [if_pos rfl, along, along, hreach]
  | false =>
    have hlt : ∀ stop, c.stopDistance = some stop → way < stop := by
      intro stop hstop
      by_contra hle
      rw [hend.mpr ⟨stop, hstop, not_lt.mp hle⟩] at hterminated
      cases hterminated
    have hgrows := c.reach_le_reach (le_add_of_nonneg_right hstep : way ≤ way + c.speed * elapsed)
    rw [if_neg Bool.false_ne_true, clippedStep_along hlt]
    simp only [hspin]
    unfold along
    generalize c.reach (way + c.speed * elapsed) = farther at *
    congr 1
    split
    · rw [Vec3.add_scale_add, add_sub_cancel]
    · next hstays =>
      have hsame : farther = c.reach way :=
        le_antisymm (sub_nonpos.mp (not_lt.mp (mt Scalar.lt_iff.mpr hstays))) hgrows
      rw [hsame]

theorem travel_along (hspin : c.spin = none) (hspeed : 0 < c.speed) {lengths : List ℝ}
    (hlengths : ∀ elapsed ∈ lengths, 0 ≤ elapsed) (way : ℝ) :
    c.travel (c.along k way) lengths = c.along k (way + c.speed * lengths.sum) := by
  induction lengths generalizing way with
  | nil => simp [travel]
  | cons elapsed lengths ih =>
    obtain ⟨hfirst, hrest⟩ := List.forall_mem_cons.mp hlengths
    have hstep : (c.advance (c.along k way) elapsed).1 = c.along k (way + c.speed * elapsed) :=
      advance_along hspin (mul_nonneg hspeed.le hfirst)
    rw [travel, List.foldl_cons, hstep, ← travel, ih hrest, List.sum_cons, mul_add, add_assoc]

/-- Without rounding, a valid cruise that does not turn and whose odometer has just been started is
found after any ticks where the way leads that it makes at its speed in the time of all of them
together, though not farther than the stop distance; the odometer shows that way.  It has terminated
just if there is a stop distance and the way reaches it, and then no tick changes anything any more.
So it does not matter how the time is cut into ticks. -/
theorem travel_exact (c : Cruise ℝ) (hc : c.validate = .ok ()) (hspin : c.spin = none)
    (k : Kinematics ℝ) (hk : k.distanceMoved = 0) (lengths : List ℝ)
    (hlengths : ∀ elapsed ∈ lengths, 0 ≤ elapsed) :
    let way := c.speed * lengths.sum
    let moved := match c.stopDistance with
      | none => way
      | some stop => min stop way
    let after := c.travel k lengths
    after = { k with coords := k.coords + c.direction * moved, distanceMoved := moved } ∧
      (c.hasTerminated after = true ↔ ∃ stop, c.stopDistance = some stop ∧ stop ≤ way) ∧
      (c.hasTerminated after = true → ∀ elapsed, c.advance after elapsed = (after, false)) ∧
      ∀ lengths', (∀ elapsed ∈ lengths', 0 ≤ elapsed) → lengths'.sum = lengths.sum →
        c.travel k lengths' = after := by
  intro way moved after
  obtain ⟨-, hspeed, hstop, -⟩ := validate_eq_ok_iff.mp hc
  have hspeed := Scalar.isPositive_iff.mp hspeed
  -- an odometer that has just been started shows where no way at all leads
  have hstart : k = c.along k 0 := by
    have hreach : c.reach 0 = 0 := by
      unfold reach
      cases hd : c.stopDistance with
      | none => rfl
      | some stop => exact min_eq_right (Scalar.isPositive_iff.mp (hstop stop hd)).le
    obtain ⟨coords, orientation, distance, angle⟩ := k
    obtain rfl : distance = 0 := hk
    rw [along, hreach, Vec3.add_scale_zero]
  have htravel : ∀ lengths', (∀ elapsed ∈ lengths', 0 ≤ elapsed) →
      c.travel k lengths' = c.along k (c.speed * lengths'.sum) := by
    intro lengths' hlengths'
    conv_lhs => rw [hstart]
    rw [travel_along hspin hspeed hlengths', zero_add]
  have hafter : after = c.along k way := htravel lengths hlengths
  refine ⟨hafter, ?_, ?_, ?_⟩
  · rw [hafter]
    exact hasTerminated_along_iff hspin way
  · intro hend elapsed
    rw [advance, if_pos hend]
  · intro lengths' hlengths' hsum
    rw [hafter, htravel lengths' hlengths', hsum]

/-! ### A haul -/

namespace Haul

/-- Ten units per second along the first axis, for 25 units. -/
noncomputable def cruise : Cruise ℝ := ⟨⟨1, 0, 0⟩, 10, some 25, none⟩

theorem validate_cruise : cruise.validate = .ok () := by
  have hunit : cruise.direction.isNormalized = true := by
    have hlength : cruise.direction.length = 1 := by
      show Real.sqrt (1 * 1 + 0 * 0 + 0 * 0) = 1
      norm_num
    rw [Vec3.isNormalized, hlength, Scalar.lt_iff]
    show |(1 : ℝ) - 1| < 1 / 10 ^ 6
    norm_num
  refine validate_eq_ok_iff.mpr ⟨hunit, Scalar.isPositive_iff.mpr ?_, ?_, nofun⟩
  · show (0 : ℝ) < 10
    norm_num
  · rintro stop ⟨⟩
    exact Scalar.isPositive_iff.mpr (by norm_num)

end Haul

open Haul in
/-- After three ticks of a second the haul is over, and after one tick of three seconds it is over
at the same place. -/
theorem travel_exact_haul :
    let after := cruise.travel Kinematics.initial [1, 1, 1]
    after.distanceMoved = 25 ∧ cruise.hasTerminated after = true ∧
      cruise.advance after 1 = (after, false) ∧ cruise.travel Kinematics.initial [3] = after := by
  have hways : ∀ elapsed ∈ [(1 : ℝ), 1, 1], 0 ≤ elapsed := by norm_num
  obtain ⟨hafter, hend, hstays, hsplit⟩ :=
    travel_exact cruise validate_cruise rfl Kinematics.initial rfl [1, 1, 1] hways
  have hway : cruise.speed * [(1 : ℝ), 1, 1].sum = 30 := by
    show (10 : ℝ) * [1, 1, 1].sum = 30
    norm_num
  rw [hway] at hafter hend
  have hend := hend.mpr ⟨25, rfl, by norm_num⟩
  refine ⟨?_, hend, hstays hend 1, hsplit [3] (by norm_num) (by norm_num)⟩
  rw [hafter]
  show min (25 : ℝ) 30 = 25
  norm_num

end Cruise

end Orrery
