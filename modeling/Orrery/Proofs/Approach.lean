import Orrery.Proofs.Space

/-!
# Pursuits in exact arithmetic

A pursuit looks anew in every tick where its aim is and how far away.  Without rounding, all ticks
toward an aim that stays where it is lead along the same segment (`Pursuit.Approached`), as far as
the speed leads in the time of all of them together, or up to the stand-off distance.  If the aim
moves, this holds of every single tick (`Pursuit.approach_exact`).
-/

namespace Orrery.Pursuit

/-- Where a pursuit leads in ticks of the given lengths, each with the coordinates that other
positions have then. -/
def chase {α : Type} [Scalar α] (p : Pursuit α) (k : Kinematics α)
    (ticks : List (α × (PositionId → Option (Vec3 α)))) : Except MotionError (Kinematics α) :=
  ticks.foldlM (fun k tick => (·.1) <$> p.advance k tick.1 tick.2) k

/-- How far a way toward an aim leads: all the way, or up to the stand-off distance. -/
noncomputable def reach (p : Pursuit ℝ) (gap way : ℝ) : ℝ := min way (gap - p.distance)

/-- What a pursuit makes of the state `k` when it comes nearer to the aim by a way of so many units.
The way is a part of the one to the aim. -/
structure Approached (k after : Kinematics ℝ) (aim : Vec3 ℝ) (way : ℝ) : Prop where
  coords : after.coords = k.coords + (aim - k.coords) * (way / k.coords.distance aim)
  distanceMoved : after.distanceMoved = k.distanceMoved + way

variable {p : Pursuit ℝ} {k after : Kinematics ℝ} {aim : Vec3 ℝ} {gap way elapsed : ℝ}
  {targets : PositionId → Option (Vec3 ℝ)}

/-! ### The stand-off distance -/

theorem reach_nonneg (hfar : p.distance ≤ gap) (hway : 0 ≤ way) : 0 ≤ p.reach gap way :=
  le_min hway (sub_nonneg.mpr hfar)

theorem reach_le (hdistance : 0 ≤ p.distance) : p.reach gap way ≤ gap :=
  (min_le_right _ _).trans (sub_le_self gap hdistance)

theorem sub_reach : gap - p.reach gap way = max p.distance (gap - way) := by
  have hmax := max_sub_sub_left gap way (gap - p.distance)
  rw [sub_sub_cancel] at hmax
  rw [reach, ← hmax, max_comm]

/-! ### Coming nearer -/

theorem approached_zero : Approached k k aim 0 := by
  refine ⟨?_, (add_zero _).symm⟩
  rw [zero_div, Vec3.add_scale_zero]

namespace Approached

variable (h : Approached k after aim way) (hgap : 0 < k.coords.distance aim)
include h hgap

theorem distance_aim (hle : way ≤ k.coords.distance aim) :
    after.coords.distance aim = k.coords.distance aim - way := by
  have hrest : 0 ≤ 1 - way / k.coords.distance aim :=
    sub_nonneg.mpr ((div_le_one hgap).mpr hle)
  rw [← Vec3.length_sub, h.coords, Vec3.sub_add_scale, Vec3.length_scale, Vec3.length_sub,
    abs_of_nonneg hrest, mul_one_sub, mul_div_cancel₀ _ hgap.ne']

theorem distance_start (hway : 0 ≤ way) : k.coords.distance after.coords = way := by
  rw [← Vec3.length_sub, h.coords, Vec3.add_scale_sub, Vec3.length_scale, Vec3.length_sub,
    abs_of_nonneg (div_nonneg hway hgap.le), mul_div_cancel₀ _ hgap.ne']

/-- It leads along the segment to the aim. -/
theorem exists_part (hway : 0 ≤ way) (hle : way ≤ k.coords.distance aim) :
    ∃ t : ℝ, 0 ≤ t ∧ t ≤ 1 ∧ after.coords = k.coords + (aim - k.coords) * t :=
  ⟨_, div_nonneg hway hgap.le, (div_le_one hgap).mpr hle, h.coords⟩

/-- A way that is followed by another one. -/
theorem trans {last : Kinematics ℝ} {way' : ℝ} (hlt : way < k.coords.distance aim)
    (h' : Approached after last aim way') : Approached k last aim (way + way') := by
  refine ⟨?_, ?_⟩
  · have hleft : k.coords.distance aim - way ≠ 0 := (sub_pos.mpr hlt).ne'
    rw [h'.coords, h.distance_aim hgap hlt.le, h.coords, Vec3.sub_add_scale, Vec3.scale_scale,
      Vec3.add_scale_add]
    congr 2
    field_simp
  · rw [h'.distanceMoved, h.distanceMoved, add_assoc]

end Approached

/-! ### Ticks -/

theorem approach_of_le (hnear : k.coords.distance aim ≤ p.distance) :
    p.approach k elapsed aim = (k, false) := by
  have hrests : Scalar.le (k.coords.distance aim) p.distance = true := Scalar.le_iff.mpr hnear
  unfold approach
  simp only [Vec3.length_sub, hrests, if_true]

theorem approached_approach (hdistance : 0 ≤ p.distance) (hfar : p.distance < k.coords.distance aim)
    (hstep : 0 ≤ p.speed * elapsed) :
    Approached k (p.approach k elapsed aim).1 aim
      (p.reach (k.coords.distance aim) (p.speed * elapsed)) := by
  have hgap : k.coords.distance aim ≠ 0 := (hdistance.trans_lt hfar).ne'
  have hmoves : Scalar.le (k.coords.distance aim) p.distance = false :=
    decide_eq_false (not_le.mpr hfar)
  have hway := reach_nonneg hfar.le hstep
  unfold approach
  simp only [Vec3.normalize?_eq, Vec3.length_sub, hmoves, if_neg hgap, Bool.false_eq_true, if_false]
  split
  · next hnone =>
    -- a tick that takes no time
    have hnone : p.reach (k.coords.distance aim) (p.speed * elapsed) ≤ 0 :=
      of_decide_eq_true hnone
    rw [le_antisymm hnone hway]
    exact approached_zero
  · refine ⟨?_, rfl⟩
    show k.coords + (aim - k.coords) * (1 / k.coords.distance aim) *
      p.reach (k.coords.distance aim) (p.speed * elapsed) = _
    rw [Vec3.scale_scale, one_div_mul_eq_div]

/-- A tick leads on along the same way. -/
theorem Approached.approach (hdistance : 0 ≤ p.distance) (hfar : p.distance < k.coords.distance aim)
    (h : Approached k after aim (p.reach (k.coords.distance aim) way))
    (hstep : 0 ≤ p.speed * elapsed) :
    Approached k (p.approach after elapsed aim).1 aim
      (p.reach (k.coords.distance aim) (way + p.speed * elapsed)) := by
  have hgap : 0 < k.coords.distance aim := hdistance.trans_lt hfar
  have hleft := h.distance_aim hgap (reach_le hdistance)
  unfold reach at h hleft ⊢
  rcases le_or_gt (k.coords.distance aim - p.distance) way with hend | hgoes
  · -- the stand-off distance has been reached
    rw [min_eq_right hend] at h hleft
    rw [approach_of_le (by linarith), min_eq_right (by linarith)]
    exact h
  · rw [min_eq_left hgoes.le] at h hleft
    have hnext : Approached after (p.approach after elapsed aim).1 aim
        (p.reach (after.coords.distance aim) (p.speed * elapsed)) :=
      approached_approach hdistance (by linarith) hstep
    have hsum := h.trans hgap (by linarith) hnext
    have hways : way + p.reach (after.coords.distance aim) (p.speed * elapsed) =
        min (way + p.speed * elapsed) (k.coords.distance aim - p.distance) := by
      rw [reach, hleft, ← min_add_add_left]
      congr 1
      ring
    rwa [hways] at hsum

theorem advance_eq (haim : p.aimPoint targets = .ok aim) :
    p.advance k elapsed targets = .ok (p.approach k elapsed aim) := by
  unfold advance
  rw [haim]
  rfl

theorem onTarget_eq (haim : p.aimPoint targets = .ok aim) :
    p.onTarget k targets = .ok (decide (k.coords.distance aim ≤ p.distance)) := by
  unfold onTarget
  rw [haim]
  rfl

/-! ### Runs -/

section Runs

variable {ticks : List (ℝ × (PositionId → Option (Vec3 ℝ)))}

theorem chase_cons (haim : p.aimPoint targets = .ok aim) :
    p.chase k ((elapsed, targets) :: ticks) = p.chase (p.approach k elapsed aim).1 ticks := by
  rw [chase, List.foldlM_cons, advance_eq haim]
  rfl

theorem chase_of_le (hticks : ∀ tick ∈ ticks, p.aimPoint tick.2 = .ok aim)
    (hnear : k.coords.distance aim ≤ p.distance) : p.chase k ticks = .ok k := by
  induction ticks with
  | nil => rfl
  | cons tick ticks ih =>
    obtain ⟨hfirst, hrest⟩ := List.forall_mem_cons.mp hticks
    rw [chase_cons hfirst, approach_of_le hnear]
    exact ih hrest

theorem Approached.chase (hdistance : 0 ≤ p.distance) (hspeed : 0 < p.speed)
    (hfar : p.distance < k.coords.distance aim)
    (hticks : ∀ tick ∈ ticks, 0 ≤ tick.1 ∧ p.aimPoint tick.2 = .ok aim)
    (h : Approached k after aim (p.reach (k.coords.distance aim) way)) :
    ∃ last, p.chase after ticks = .ok last ∧ Approached k last aim
      (p.reach (k.coords.distance aim) (way + p.speed * (ticks.map (·.1)).sum)) := by
  induction ticks generalizing after way with
  | nil =>
    rw [List.map_nil, List.sum_nil, mul_zero, add_zero]
    exact ⟨after, rfl, h⟩
  | cons tick ticks ih =>
    obtain ⟨hfirst, hrest⟩ := List.forall_mem_cons.mp hticks
    obtain ⟨last, hlast, hway⟩ :=
      ih hrest (h.approach hdistance hfar (mul_nonneg hspeed.le hfirst.1))
    rw [List.map_cons, List.sum_cons, mul_add, ← add_assoc]
    exact ⟨last, (chase_cons hfirst.2).trans hlast, hway⟩

end Runs

/-- Without rounding, a valid pursuit of a point that stays where it is rests if the point is within
the stand-off distance.  Otherwise it comes nearer by the way that it makes at its speed in all
ticks together, though not nearer than the stand-off distance.  It stays on the segment to the
point, and what it came nearer is added to the odometer.  It is on target just if it has come to the
stand-off distance.

Wherever the point is then, a single tick leads along the segment to it, no nearer than the
stand-off distance, and no farther than the speed leads in the time of the tick. -/
theorem approach_exact (p : Pursuit ℝ) (hp : p.validate = .ok ()) :
    (∀ (k : Kinematics ℝ) (aim : Vec3 ℝ) (ticks : List (ℝ × (PositionId → Option (Vec3 ℝ)))),
      (∀ tick ∈ ticks, 0 ≤ tick.1 ∧ p.aimPoint tick.2 = .ok aim) →
      let gap := k.coords.distance aim
      let way := p.speed * (ticks.map (·.1)).sum
      ∃ after, p.chase k ticks = .ok after ∧
        (gap ≤ p.distance → after = k) ∧
        (p.distance < gap →
          after.coords.distance aim = max p.distance (gap - way) ∧
          (∃ t : ℝ, 0 ≤ t ∧ t ≤ 1 ∧ after.coords = k.coords + (aim - k.coords) * t) ∧
          after.distanceMoved - k.distanceMoved = gap - after.coords.distance aim) ∧
        ∀ targets, p.aimPoint targets = .ok aim →
          p.onTarget after targets = .ok (decide (gap - way ≤ p.distance))) ∧
    ∀ (k : Kinematics ℝ) (elapsed : ℝ) (targets : PositionId → Option (Vec3 ℝ)) (aim : Vec3 ℝ),
      0 ≤ elapsed → p.aimPoint targets = .ok aim →
      ∃ after changed, p.advance k elapsed targets = .ok (after, changed) ∧
        (k.coords.distance aim ≤ p.distance → after = k) ∧
        (p.distance ≤ k.coords.distance aim → p.distance ≤ after.coords.distance aim) ∧
        (∃ t : ℝ, 0 ≤ t ∧ t ≤ 1 ∧ after.coords = k.coords + (aim - k.coords) * t) ∧
        k.coords.distance after.coords ≤ p.speed * elapsed := by
  obtain ⟨⟨-, hdistance⟩, hspeed, -⟩ := validate_eq_ok_iff.mp hp
  have hdistance : 0 ≤ p.distance := not_lt.mp (of_decide_eq_false hdistance)
  have hspeed := Scalar.isPositive_iff.mp hspeed
  refine ⟨?_, ?_⟩
  · intro k aim ticks hticks gap way
    have hway : 0 ≤ way := by
      refine mul_nonneg hspeed.le (List.sum_nonneg fun x hx => ?_)
      obtain ⟨tick, htick, rfl⟩ := List.mem_map.mp hx
      exact (hticks tick htick).1
    rcases le_or_gt gap p.distance with hnear | hfar
    · refine ⟨k, chase_of_le (fun tick htick => (hticks tick htick).2) hnear, fun _ => rfl,
        fun hfar => absurd hfar (not_lt.mpr hnear), fun targets haim => ?_⟩
      have hend : gap - way ≤ p.distance := (sub_le_self gap hway).trans hnear
      rw [onTarget_eq haim, decide_eq_true hnear, decide_eq_true hend]
    · have hgap : 0 < gap := hdistance.trans_lt hfar
      have hstart : Approached k k aim (p.reach gap 0) := by
        rw [reach, min_eq_left (sub_pos.mpr hfar).le]
        exact approached_zero
      obtain ⟨after, hafter, happroached⟩ := hstart.chase hdistance hspeed hfar hticks
      rw [zero_add] at happroached
      have hleft := happroached.distance_aim hgap (reach_le hdistance)
      refine ⟨after, hafter, fun hnear => absurd hfar (not_lt.mpr hnear),
        fun _ => ⟨hleft.trans sub_reach, ?_, ?_⟩, fun targets haim => ?_⟩
      · exact happroached.exists_part hgap (reach_nonneg hfar.le hway) (reach_le hdistance)
      · rw [happroached.distanceMoved, hleft]
        ring
      · rw [onTarget_eq haim, hleft, sub_reach]
        simp only [max_le_iff, le_rfl, true_and]
        rfl
  · intro k elapsed targets aim helapsed haim
    have hstep : 0 ≤ p.speed * elapsed := mul_nonneg hspeed.le helapsed
    refine ⟨(p.approach k elapsed aim).1, (p.approach k elapsed aim).2, advance_eq haim, ?_⟩
    rcases le_or_gt (k.coords.distance aim) p.distance with hnear | hfar
    · rw [approach_of_le hnear]
      refine ⟨fun _ => rfl, id, ⟨0, le_rfl, zero_le_one, (Vec3.add_scale_zero _ _).symm⟩, ?_⟩
      rw [Vec3.distance_self]
      exact hstep
    · have hgap : 0 < k.coords.distance aim := hdistance.trans_lt hfar
      have happroached := approached_approach hdistance hfar hstep
      have hway := reach_nonneg hfar.le hstep
      refine ⟨fun hnear => absurd hfar (not_lt.mpr hnear), fun _ => ?_,
        happroached.exists_part hgap hway (reach_le hdistance), ?_⟩
      · rw [happroached.distance_aim hgap (reach_le hdistance), sub_reach]
        exact le_max_left _ _
      · rw [happroached.distance_start hgap hway]
        exact min_le_left _ _

/-! ### A tug -/

namespace Tug

/-- One unit per second, up to one unit from the ship it is sent to. -/
noncomputable def pursuit : Pursuit ℝ := ⟨⟨9⟩, ⟨0, 0, 0⟩, 1, 1, true⟩

/-- The ship stays so many units away on the first axis. -/
noncomputable def harbor (x : ℝ) : PositionId → Option (Vec3 ℝ) := fun _ => some ⟨x, 0, 0⟩

/-- At the origin. -/
noncomputable def start : Kinematics ℝ := Kinematics.initial

theorem validate_pursuit : pursuit.validate = .ok () := by
  refine validate_eq_ok_iff.mpr ⟨⟨rfl, decide_eq_false ?_⟩, Scalar.isPositive_iff.mpr ?_, rfl⟩
  · exact not_lt.mpr zero_le_one
  · exact zero_lt_one

theorem aimPoint_harbor (x : ℝ) : pursuit.aimPoint (harbor x) = .ok ⟨x, 0, 0⟩ := by
  show Except.ok (Vec3.mk (x + 0) ((0 : ℝ) + 0) (0 + 0)) = _
  rw [add_zero, add_zero]

theorem distance_harbor {x : ℝ} (hx : 0 ≤ x) : start.coords.distance ⟨x, 0, 0⟩ = x := by
  show Real.sqrt ((0 - x) * (0 - x) + (0 - 0) * (0 - 0) + (0 - 0) * (0 - 0)) = x
  rw [Real.sqrt_eq_iff_mul_self_eq _ hx] <;> ring_nf
  exact sq_nonneg x

end Tug

open Tug in
/-- The second tick brings the tug to the stand-off distance, and the third one leads nowhere. -/
theorem approach_exact_tug :
    let ticks : List (ℝ × (PositionId → Option (Vec3 ℝ))) :=
      [(1, harbor (5 / 2)), (1, harbor (5 / 2)), (1, harbor (5 / 2))]
    ∃ after, pursuit.chase start ticks = .ok after ∧
      after.coords.distance ⟨5 / 2, 0, 0⟩ = 1 ∧ after.distanceMoved = 3 / 2 ∧
      pursuit.onTarget after (harbor (5 / 2)) = .ok true ∧
      ∃ next changed, pursuit.advance start 1 (harbor (5 / 2)) = .ok (next, changed) ∧
        start.coords.distance next.coords ≤ 1 := by
  intro ticks
  obtain ⟨hfixed, hsingle⟩ := approach_exact pursuit validate_pursuit
  have hticks : ∀ tick ∈ ticks, 0 ≤ tick.1 ∧ pursuit.aimPoint tick.2 = .ok ⟨5 / 2, 0, 0⟩ := by
    intro tick htick
    obtain rfl : tick = (1, harbor (5 / 2)) := by simpa [ticks] using htick
    exact ⟨zero_le_one, aimPoint_harbor _⟩
  have hgap : start.coords.distance ⟨5 / 2, 0, 0⟩ = 5 / 2 := distance_harbor (by norm_num)
  have hway : pursuit.speed * (ticks.map (·.1)).sum = 3 := by
    show (1 : ℝ) * [1, 1, 1].sum = 3
    norm_num
  have hdistance : pursuit.distance = 1 := rfl
  obtain ⟨after, hafter, -, hfar, htarget⟩ := hfixed start _ _ hticks
  rw [hgap, hway, hdistance] at hfar
  have htarget := htarget (harbor (5 / 2)) (aimPoint_harbor _)
  rw [hgap, hway, hdistance] at htarget
  obtain ⟨hleft, -, hmoved⟩ := hfar (by norm_num)
  have hleft : after.coords.distance ⟨5 / 2, 0, 0⟩ = 1 := by
    rw [hleft]
    norm_num
  obtain ⟨next, changed, hnext, -, -, -, hstep⟩ :=
    hsingle start 1 (harbor (5 / 2)) _ zero_le_one (aimPoint_harbor _)
  refine ⟨after, hafter, hleft, ?_, ?_, next, changed, hnext, ?_⟩
  · have hstart : start.distanceMoved = 0 := rfl
    rw [hleft, hstart, sub_zero] at hmoved
    rw [hmoved]
    norm_num
  · rw [htarget]
    norm_num
  · exact hstep.trans_eq (mul_one _)

end Orrery.Pursuit
