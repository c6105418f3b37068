import Orrery.Proofs.Growth
import Orrery.Proofs.Odometers

/-!
# Rewinding

The distance moved and the angle turned are what the ends of rules are decided by, so they should
only grow.  The angle does, whatever the rule and however long the tick, even if time runs backwards
in it.  So does the distance, with one exception: a cruise that is under way adds its step to the
odometer also if the step is negative, though it does not move then.  It *rewinds*
(`Rule.rewinds`).

A cruise that never rewinds counts every step that it makes, and so it has come to its end once
these are as long together as its stop distance (`Position.odometers_grow_iff`).  One that rewinds
may go farther.
-/

namespace Orrery

open Double

/-! ### Angles -/

section Growth

variable {k : Kinematics Float} {elapsed : Float}

theorem Spin.isNaN_clippedAngle {s : Spin Float} (hs : s.validate = .ok ())
    (hk : k.angleRotated.isFinite = true) (helapsed : elapsed.isNaN = false)
    (hspeed : Scalar.eq s.speed (Scalar.zero : Float) = false) :
    (s.clippedAngle k elapsed).isNaN = false := by
  have hfinite := isFinite_of_validate hs
  simp only [numbers, List.forall_mem_append, List.forall_mem_cons, Option.mem_toList] at hfinite
  have hangle := isNaN_mul hfinite.2.1 hspeed helapsed
  unfold clippedAngle
  cases hstop : s.stopAngle with
  | none => exact hangle
  | some stop =>
    have hremaining : (larger (stop - k.angleRotated) 0.0).isNaN = false :=
      isNaN_larger (isNaN_sub (hfinite.2.2 stop hstop) hk) (isNaN_of_isFinite isFinite_zero)
    dsimp only
    split
    · exact isNaN_withSignOf hremaining
    · exact hangle

/-- The angle turned does not decrease. -/
theorem Spin.le_angleRotated_rotate {s : Spin Float} (hs : s.validate = .ok ())
    (hk : k.angleRotated.isFinite = true) (helapsed : elapsed.isNaN = false) :
    k.angleRotated.le (s.rotate k elapsed).1.angleRotated = true := by
  have hsame := le_self (isNaN_of_isFinite hk)
  unfold rotate
  split
  · exact hsame
  · next hrotating =>
    dsimp only
    split
    · exact hsame
    · rw [Bool.not_eq_true, Bool.not_eq_false', isRotating, Bool.and_eq_true,
        Bool.not_eq_true'] at hrotating
      have hangle := isNaN_clippedAngle hs hk helapsed hrotating.1
      exact le_add_of_nonneg hk (zero_le_iff.mpr (.inl (sign?_abs hangle)))

theorem Cruise.le_angleRotated_advance (c : Cruise Float) (hc : c.validate = .ok ())
    (hk : k.angleRotated.isFinite = true) (helapsed : elapsed.isNaN = false) :
    k.angleRotated.le (c.advance k elapsed).1.angleRotated = true := by
  have hsame := le_self (isNaN_of_isFinite hk)
  obtain ⟨-, -, -, hspin⟩ := validate_eq_ok_iff.mp hc
  unfold advance
  split
  · exact hsame
  · rcases c.clippedStep k elapsed with ⟨step, total⟩
    cases hs : c.spin with
    | none => exact hsame
    | some s =>
      dsimp only
      generalize hmoved : Kinematics.mk _ k.orientation total k.angleRotated = moved
      have hangle : moved.angleRotated = k.angleRotated := by rw [← hmoved]
      rw [← hangle] at hk ⊢
      exact Spin.le_angleRotated_rotate (hspin s hs) hk helapsed

/-! ### Distances -/

/-- The distance of finite points is defined, and not below zero. -/
theorem Vec3.zero_le_distance {v w : Point} (hv : v.isFinite = true) (hw : w.isFinite = true) :
    (0.0 : Float).le (v.distance w) = true := by
  obtain ⟨hvx, hvy, hvz⟩ := isFinite_iff_coords.mp hv
  obtain ⟨hwx, hwy, hwz⟩ := isFinite_iff_coords.mp hw
  exact zero_le_iff.mpr (.inl (sign?_sqrt (sign?_add
    (sign?_add (sign?_mul_self (isNaN_sub hvx hwx)) (sign?_mul_self (isNaN_sub hvy hwy)))
    (sign?_mul_self (isNaN_sub hvz hwz)))))

/-- The cruise is under way, time runs backwards, and the step back is not lost in the distance
moved. -/
def Cruise.rewinds (c : Cruise Float) (k : Kinematics Float) (elapsed : Float) : Bool :=
  !c.hasTerminated k && Scalar.isNegative elapsed &&
    Scalar.lt (k.distanceMoved + c.speed * elapsed) k.distanceMoved

/-- The rule takes back some of the distance moved. -/
def Rule.rewinds (r : Rule Float) (k : Kinematics Float) (elapsed : Float) : Bool :=
  match r with
  | cruise c => c.rewinds k elapsed
  | _ => false

theorem Cruise.distanceMoved_advance (c : Cruise Float) (k : Kinematics Float) (elapsed : Float) :
    (c.advance k elapsed).1.distanceMoved =
      if c.hasTerminated k then k.distanceMoved else (c.clippedStep k elapsed).2 := by
  unfold advance
  split
  · rfl
  · dsimp only
    cases c.spin with
    | none => rfl
    | some s => exact s.distanceMoved_rotate ..

/-- A step that is cut short is not below zero, and then the stop distance is ahead. -/
theorem Cruise.clippedStep_cases {c : Cruise Float} (hc : c.validate = .ok ())
    (hk : k.distanceMoved.isFinite = true) (hway : c.hasTerminated k = false) :
    (c.clippedStep k elapsed = (c.speed * elapsed, k.distanceMoved + c.speed * elapsed)) ∨
      ∃ stop, c.stopDistance = some stop ∧ (c.clippedStep k elapsed).2 = stop ∧
        k.distanceMoved.le stop = true ∧ (0.0 : Float).le (c.speed * elapsed) = true := by
  obtain ⟨-, -, hstops, -⟩ := validate_eq_ok_iff.mp hc
  unfold clippedStep
  cases hstop : c.stopDistance with
  | none => exact .inl rfl
  | some stop =>
    have hfinite := isFinite_of_isPositive (hstops stop hstop)
    dsimp only
    split
    · next hclipped =>
      have hbefore : stop.le k.distanceMoved = false := by
        rw [hasTerminated, hstop, Bool.or_eq_false_iff] at hway
        exact hway.1
      have hremaining : (0.0 : Float).le (larger (stop - k.distanceMoved) 0.0) = true :=
        zero_le_larger (isNaN_sub hfinite hk)
      refine .inr ⟨stop, rfl, rfl, ?_, le_trans hremaining hclipped⟩
      exact le_of_not_le (isNaN_of_isFinite hfinite) (isNaN_of_isFinite hk) hbefore
    · exact .inl rfl

/-- The distance moved decreases if and only if the cruise rewinds. -/
theorem Cruise.le_distanceMoved_advance_iff {c : Cruise Float} (hc : c.validate = .ok ())
    (hk : k.distanceMoved.isFinite = true) (helapsed : elapsed.isNaN = false) :
    k.distanceMoved.le (c.advance k elapsed).1.distanceMoved = true ↔
      c.rewinds k elapsed = false := by
  obtain ⟨-, hspeed, -, -⟩ := validate_eq_ok_iff.mp hc
  have hdefined := isNaN_of_isFinite hk
  rw [distanceMoved_advance, rewinds]
  cases hway : c.hasTerminated k with
  | true => exact iff_of_true (le_self hdefined) rfl
  | false =>
    have hstep : (c.speed * elapsed).isNaN = false :=
      isNaN_mul_of_isPositive hspeed helapsed
    have htotal := le_eq_not_lt hdefined (isNaN_add hk hstep)
    have hforward : (0.0 : Float).le (c.speed * elapsed) = true →
        Scalar.lt (k.distanceMoved + c.speed * elapsed) k.distanceMoved = false := by
      intro h
      rw [le_add_of_nonneg hk h, eq_comm, Bool.not_eq_true'] at htotal
      exact htotal
    rw [if_neg Bool.false_ne_true, Bool.not_false, Bool.true_and, Bool.and_eq_false_iff]
    rcases clippedStep_cases hc hk hway with hwhole | ⟨stop, -, hend, hle, hpos⟩
    · rw [hwhole, htotal, Bool.not_eq_true']
      refine ⟨.inr, fun h => h.elim (fun hnonneg => ?_) id⟩
      have helapsed := le_eq_not_lt (isNaN_of_isFinite isFinite_zero) helapsed
      exact hforward (zero_le_mul hspeed (by rw [helapsed, Bool.not_eq_true']; exact hnonneg))
    · rw [hend]
      exact iff_of_true hle (.inr (hforward hpos))

/-- A pursuit steps forward or not at all. -/
theorem Pursuit.le_distanceMoved_approach {p : Pursuit Float} (hp : p.validate = .ok ())
    (hk : k.distanceMoved.isFinite = true) (helapsed : elapsed.isNaN = false) (aim : Point) :
    k.distanceMoved.le (p.approach k elapsed aim).1.distanceMoved = true := by
  have hsame := le_self (isNaN_of_isFinite hk)
  obtain ⟨-, hspeed, -⟩ := validate_eq_ok_iff.mp hp
  have hstep : (p.speed * elapsed).isNaN = false := isNaN_mul_of_isPositive hspeed helapsed
  unfold approach
  dsimp only
  split
  · exact hsame
  · split
    · exact hsame
    · split
      · exact hsame
      · next hforward =>
        exact le_add_of_nonneg hk (le_of_not_le (isNaN_smaller hstep)
          (isNaN_of_isFinite isFinite_zero) (Bool.eq_false_iff.mpr hforward))

theorem Pursuit.angleRotated_approach (p : Pursuit Float) (k : Kinematics Float) (elapsed : Float)
    (aim : Point) : (p.approach k elapsed aim).1.angleRotated = k.angleRotated := by
  unfold approach
  dsimp only
  repeat' split
  all_goals rfl

/-- The odometers of a valid rule grow unless it rewinds; the angle always does. -/
theorem Rule.odometers_advance {r : Rule Float} (hr : r.validate = .ok ()) (hk : k.IsFinite)
    (helapsed : elapsed.isNaN = false) {targets : Lookup} {a : Advance Float}
    (h : r.advance k elapsed targets = .ok a) (hcoords : a.state.coords.isFinite = true) :
    k.angleRotated.le a.state.angleRotated = true ∧
      (k.distanceMoved.le a.state.distanceMoved = true ↔ r.rewinds k elapsed = false) := by
  obtain ⟨hlocated, hmetered⟩ := Kinematics.isFinite_iff.mp hk
  have hangle := le_self (isNaN_of_isFinite hmetered.angle)
  have hdistance := le_self (isNaN_of_isFinite hmetered.distance)
  cases r with
  | rest =>
    cases h
    exact ⟨hangle, iff_of_true hdistance rfl⟩
  | cruise c =>
    cases h
    exact ⟨c.le_angleRotated_advance hr hmetered.angle helapsed,
      Cruise.le_distanceMoved_advance_iff hr hmetered.distance helapsed⟩
  | orbit o =>
    cases h
    have hway := Vec3.zero_le_distance hlocated.coords hcoords
    exact ⟨hangle, iff_of_true (le_add_of_nonneg hmetered.distance hway) rfl⟩
  | spin s =>
    cases h
    have hsame : k.distanceMoved.le (s.rotate k elapsed).1.distanceMoved = true := by
      rw [s.distanceMoved_rotate]
      exact hdistance
    exact ⟨Spin.le_angleRotated_rotate hr hmetered.angle helapsed, iff_of_true hsame rfl⟩
  | pursuit p =>
    obtain ⟨c, -, -, hstate⟩ := advance_pursuit_eq_ok h
    rw [hstate, p.angleRotated_approach]
    exact ⟨hangle,
      iff_of_true (Pursuit.le_distanceMoved_approach hr hmetered.distance helapsed _) rfl⟩

/-! ### Steps -/

/-- How far along its direction a cruise moves in `elapsed` seconds, if it does. -/
def Cruise.stride (c : Cruise Float) (k : Kinematics Float) (elapsed : Float) : Option Float :=
  if c.hasTerminated k then none
  else
    let step := (c.clippedStep k elapsed).1
    if Scalar.lt Scalar.zero step then some step else none

theorem Cruise.coords_advance (c : Cruise Float) (k : Kinematics Float) (elapsed : Float) :
    (c.advance k elapsed).1.coords =
      (c.stride k elapsed).elim k.coords (k.coords + c.direction * ·) := by
  unfold advance stride
  split
  · rfl
  · rcases c.clippedStep k elapsed with ⟨step, total⟩
    cases c.spin with
    | none =>
      dsimp only
      split <;> rfl
    | some s =>
      simp only [s.coords_rotate]
      split <;> rfl

theorem Cruise.hasTerminated_of_le {c : Cruise Float} {stop : Float}
    (hstop : c.stopDistance = some stop) (h : stop.le k.distanceMoved = true) :
    c.hasTerminated k = true := by
  rw [hasTerminated, hstop, Bool.or_eq_true]
  exact .inl h

/-- A cruise that does not rewind counts its step, or comes to its end. -/
theorem Cruise.counts_advance {c : Cruise Float} {stop way : Float} (hc : c.validate = .ok ())
    (hstop : c.stopDistance = some stop) (hk : k.distanceMoved.isFinite = true)
    (hcounted : (k.distanceMoved == way) = true) (helapsed : elapsed.isNaN = false)
    (hrewinds : c.rewinds k elapsed = false) :
    c.hasTerminated (c.advance k elapsed).1 = true ∨
      (c.advance k elapsed).1.distanceMoved.isFinite = true ∧
        ((c.advance k elapsed).1.distanceMoved ==
          (c.stride k elapsed).elim way (way + ·)) = true := by
  obtain ⟨-, hspeed, hstops, -⟩ := validate_eq_ok_iff.mp hc
  have hgrows := (le_distanceMoved_advance_iff hc hk helapsed).mpr hrewinds
  have hfinite := isFinite_of_isPositive (hstops stop hstop)
  cases hend : (c.advance k elapsed).1.distanceMoved.isFinite with
  | false =>
    exact .inl (hasTerminated_of_le hstop
      (le_of_overflow hk (isNaN_of_isFinite hfinite) hgrows hend))
  | true =>
    have htotal := c.distanceMoved_advance k elapsed
    cases hway : c.hasTerminated k with
    | true =>
      refine .inl ?_
      rw [advance, if_pos hway]
      exact hway
    | false =>
      rw [hway, if_neg Bool.false_ne_true] at htotal
      rcases clippedStep_cases hc hk hway with hwhole | ⟨stop', hstop', hclipped, -⟩
      · refine .inr ⟨rfl, ?_⟩
        have hstep : (c.speed * elapsed).isNaN = false := isNaN_mul_of_isPositive hspeed helapsed
        rw [htotal, hwhole] at hgrows ⊢
        rw [stride, hway, if_neg Bool.false_ne_true, hwhole]
        dsimp only
        split
        · exact add_congr hcounted hk hstep
        · next hstill =>
          have hback : (c.speed * elapsed).le 0.0 = true := by
            rw [le_eq_not_lt hstep (isNaN_of_isFinite isFinite_zero), Bool.not_eq_true']
            exact Bool.eq_false_iff.mpr hstill
          have hsame := eq_of_le_of_le (add_le_of_nonpos hk hback) hgrows
          exact BEq.trans hsame hcounted
      · refine .inl (hasTerminated_of_le hstop ?_)
        rw [hstop, Option.some.injEq] at hstop'
        rw [htotal, hclipped, ← hstop']
        exact le_self (isNaN_of_isFinite hfinite)

namespace Position

/-- The position advances, and its rule rewinds. -/
def rewinds (p : Position) (tick : Float × Lookup) : Bool :=
  (p.advance tick.1 tick.2).isOk && p.rule.rewinds p.state tick.1

/-- The position after an advance, which leaves it alone if it fails. -/
def afterTick (p : Position) (tick : Float × Lookup) : Position :=
  match p.advance tick.1 tick.2 with
  | .error _ => p
  | .ok (p, _) => p

/-- The position after advances. -/
def afterTicks (p : Position) (ticks : List (Float × Lookup)) : Position :=
  ticks.foldl afterTick p

/-- How far along a line the position moves in an advance, if it does. -/
def stride (p : Position) (tick : Float × Lookup) : Option Float :=
  match p.rule with
  | .cruise c => if (p.advance tick.1 tick.2).isOk then c.stride p.state tick.1 else none
  | _ => none

/-- How long the steps of the position are together, added to `way` one by one. -/
def wayAfter (p : Position) (way : Float) : List (Float × Lookup) → Float
  | [] => way
  | tick :: ticks => (p.afterTick tick).wayAfter ((p.stride tick).elim way (way + ·)) ticks

/-- The position is on a cruise that has come to its end, or whose odometer shows the way made. -/
structure Counts (p : Position) (c : Cruise Float) (way : Float) : Prop where
  rule : p.rule = .cruise c
  located : p.state.IsLocated
  counted : c.hasTerminated p.state = true ∨
    p.state.distanceMoved.isFinite = true ∧ (p.state.distanceMoved == way) = true

variable {p : Position} {c : Cruise Float} {stop way : Float} {tick : Float × Lookup}

theorem Counts.advance_eq (h : p.Counts c way) (tick : Float × Lookup) :
    p.advance tick.1 tick.2 =
      if (c.advance p.state tick.1).1.coords.isFinite &&
          (c.advance p.state tick.1).1.orientation.isFinite then
        .ok ({ p with state := (c.advance p.state tick.1).1 }, (c.advance p.state tick.1).2)
      else .error (.nonFinite p.id) := by
  obtain ⟨id, parent, state, rule, movements, proximities⟩ := p
  obtain rfl : rule = .cruise c := h.rule
  rfl

/-- At its end nothing changes any more. -/
theorem Counts.advance_of_hasTerminated (h : p.Counts c way) (hend : c.hasTerminated p.state = true)
    (elapsed : Float) (targets : Lookup) : p.advance elapsed targets = .ok (p, false) := by
  have hstays : c.advance p.state elapsed = (p.state, false) := by
    rw [Cruise.advance, if_pos hend]
  rw [h.advance_eq (elapsed, targets), hstays, h.located.coords, h.located.orientation]
  rfl

theorem Counts.stride_eq (h : p.Counts c way) :
    p.stride tick = if (p.advance tick.1 tick.2).isOk then c.stride p.state tick.1 else none := by
  rw [stride, h.rule]

theorem Counts.afterTick (h : p.Counts c way) (hc : c.validate = .ok ())
    (hstop : c.stopDistance = some stop) (helapsed : tick.1.isNaN = false)
    (hrewinds : p.rewinds tick = false) :
    (p.afterTick tick).Counts c ((p.stride tick).elim way (way + ·)) := by
  have hadvance := h.advance_eq tick
  rw [h.stride_eq]
  unfold Position.afterTick
  split at hadvance
  · next hfinite =>
    rw [Bool.and_eq_true] at hfinite
    rw [rewinds, h.rule, hadvance] at hrewinds
    rw [hadvance]
    refine ⟨h.rule, ⟨hfinite.1, hfinite.2⟩, ?_⟩
    rcases h.counted with hend | ⟨hmoved, hcounted⟩
    · refine .inl ?_
      rw [Cruise.advance, if_pos hend]
      exact hend
    · exact Cruise.counts_advance hc hstop hmoved hcounted helapsed hrewinds
  · rw [hadvance]
    exact h

/-- As long as it does not rewind, a cruise on its way has all of it on the odometer. -/
theorem Counts.afterTicks (hc : c.validate = .ok ()) (hstop : c.stopDistance = some stop)
    {ticks : List (Float × Lookup)} (h : p.Counts c way)
    (helapsed : ∀ tick ∈ ticks, tick.1.isNaN = false)
    (hrewinds : ∀ before tick after, ticks = before ++ tick :: after →
      (p.afterTicks before).rewinds tick = false) :
    (p.afterTicks ticks).Counts c (p.wayAfter way ticks) := by
  induction ticks generalizing p way with
  | nil => exact h
  | cons tick ticks ih =>
    obtain ⟨hfirst, hrest⟩ := List.forall_mem_cons.mp helapsed
    refine ih (h.afterTick hc hstop hfirst (hrewinds [] tick ticks rfl)) hrest ?_
    rintro before later after rfl
    exact hrewinds (tick :: before) later after rfl

theorem counts_of_setRule {start : Position} (hp : p.state.IsFinite)
    (hstart : p.setRule (.cruise c) = .ok start) : start.Counts c 0.0 := by
  obtain ⟨-, rfl⟩ := setRule_eq_ok hstart
  obtain ⟨hlocated, -⟩ := Kinematics.isFinite_iff.mp hp
  have hzero : ((0.0 : Float) == 0.0) = true := by decide +kernel
  exact ⟨rfl, ⟨hlocated.coords, hlocated.orientation⟩, .inr ⟨isFinite_zero, hzero⟩⟩

/-- The coordinates make the step that is counted. -/
theorem Counts.coords_afterTick (h : p.Counts c way) :
    (p.afterTick tick).coords = (p.stride tick).elim p.coords (p.coords + c.direction * ·) := by
  have hadvance := h.advance_eq tick
  rw [h.stride_eq]
  unfold Position.afterTick
  split at hadvance
  · rw [hadvance]
    exact c.coords_advance p.state tick.1
  · rw [hadvance]
    rfl

theorem odometers_advance (hrule : p.rule.validate = .ok ()) (hp : p.state.IsFinite)
    (helapsed : tick.1.isNaN = false) {p' : Position} {changed : Bool}
    (h : p.advance tick.1 tick.2 = .ok (p', changed)) :
    p.state.angleRotated.le p'.state.angleRotated = true ∧
      (p.state.distanceMoved.le p'.state.distanceMoved = true ↔ p.rewinds tick = false) := by
  obtain ⟨a, ha, hcoords, -, rfl⟩ := advance_eq_ok h
  have hrewinds : p.rewinds tick = p.rule.rewinds p.state tick.1 := by
    rw [rewinds, h]
    rfl
  rw [hrewinds]
  exact Rule.odometers_advance hrule hp helapsed ha hcoords

theorem lt_zero_of_rewinds (h : p.rewinds tick = true) :
    ∃ c, p.rule = .cruise c ∧ tick.1.lt 0.0 = true := by
  rw [rewinds, Bool.and_eq_true] at h
  cases hrule : p.rule with
  | cruise c =>
    rw [hrule, Rule.rewinds, Cruise.rewinds, Bool.and_eq_true, Bool.and_eq_true] at h
    exact ⟨c, rfl, h.2.1.2⟩
  | rest | orbit | spin | pursuit =>
    rw [hrule] at h
    cases h.2

/-- An advance of a finite position with a valid rule, by any time that is defined, never decreases
the angle turned, and decreases the distance moved if and only if the rule rewinds.  Only a cruise
does, and only if time runs backwards.

Each advance of a cruise leads the coordinates one step along its direction, or leaves them.  As
long as a cruise does not rewind it has come to its end once the steps since it was assigned, added
up, are at least its stop distance.  Then nothing changes any more, whatever the advances are. -/
theorem odometers_grow_iff (p : Position) (hrule : p.rule.validate = .ok ())
    (hp : p.state.IsFinite) :
    (∀ tick : Float × Lookup, tick.1.isNaN = false →
      ∀ p' changed, p.advance tick.1 tick.2 = .ok (p', changed) →
        p.state.angleRotated.le p'.state.angleRotated = true ∧
        (p.state.distanceMoved.le p'.state.distanceMoved = true ↔ p.rewinds tick = false)) ∧
    (∀ tick, p.rewinds tick = true → ∃ c, p.rule = .cruise c ∧ tick.1.lt 0.0 = true) ∧
    ∀ c stop start, c.stopDistance = some stop → p.setRule (.cruise c) = .ok start →
      ∀ ticks : List (Float × Lookup), (∀ tick ∈ ticks, tick.1.isNaN = false) →
        (∀ before tick after, ticks = before ++ tick :: after →
          (start.afterTicks before).rewinds tick = false) →
        let after := start.afterTicks ticks
        (∀ tick, (after.afterTick tick).coords =
          (after.stride tick).elim after.coords (after.coords + c.direction * ·)) ∧
        (stop.le (start.wayAfter 0.0 ticks) = true →
          ∀ elapsed targets, after.advance elapsed targets = .ok (after, false)) := by
  refine ⟨fun tick helapsed p' changed h => odometers_advance hrule hp helapsed h,
    fun tick h => lt_zero_of_rewinds h, ?_⟩
  intro c stop start hstop hstart ticks helapsed hrewinds after
  have hc : c.validate = .ok () := (setRule_eq_ok hstart).1
  have hcounts := (counts_of_setRule hp hstart).afterTicks hc hstop helapsed hrewinds
  refine ⟨fun tick => hcounts.coords_afterTick, fun hway => ?_⟩
  refine hcounts.advance_of_hasTerminated ?_
  rcases hcounts.counted with hend | ⟨-, hcounted⟩
  · exact hend
  · exact Cruise.hasTerminated_of_le hstop (le_trans hway (le_of_eq (BEq.symm hcounted)))

end Position

end Growth

/-! ### There and back -/

namespace Shuttle

/-- One unit per second along the first axis, for five units. -/
def cruise : Cruise Float := ⟨⟨1.0, 0.0, 0.0⟩, 1.0, some 5.0, none⟩

/-- The place where the cruise is assigned. -/
def station : Position := { id := ⟨1⟩ }

/-- The position as it sets out. -/
def departure : Position := { station with rule := .cruise cruise }

theorem setRule_station : station.setRule (.cruise cruise) = .ok departure := by
  have hvalid : (Rule.cruise cruise).validate = .ok () := by decide +kernel
  rw [Position.setRule, hvalid]
  rfl

theorem isFinite_station : station.state.IsFinite := by
  have hfinite : ∀ x ∈ station.state.numbers, x.isFinite = true := by decide +kernel
  exact hfinite

/-- A tick in which nothing else is known to be tracked. -/
def tick (elapsed : Float) : Float × Lookup := (elapsed, fun _ => none)

end Shuttle

namespace Position

open Shuttle

/-- Without a way back the cruise ends after five units: two ticks of four seconds bring it there,
and another one changes nothing. -/
theorem odometers_grow_iff_shuttle :
    let after := departure.afterTicks [tick 4.0, tick 4.0]
    (5.0 : Float).le (departure.wayAfter 0.0 [tick 4.0, tick 4.0]) = true ∧
      after.advance 4.0 (fun _ => none) = .ok (after, false) := by
  obtain ⟨-, -, hruns⟩ := odometers_grow_iff station (by decide +kernel) isFinite_station
  have hrewinds : ∀ before later after, [tick 4.0, tick 4.0] = before ++ later :: after →
      (departure.afterTicks before).rewinds later = false := by
    rintro (_ | ⟨first, _ | ⟨second, before⟩⟩) later after hsplit
    · cases hsplit
      decide +kernel
    · cases hsplit
      decide +kernel
    · simp at hsplit
  have hdefined : ∀ later ∈ [tick 4.0, tick 4.0], later.1.isNaN = false := by decide +kernel
  obtain ⟨-, hend⟩ := hruns cruise 5.0 departure rfl setRule_station [tick 4.0, tick 4.0] hdefined
    hrewinds
  have hway : (5.0 : Float).le (departure.wayAfter 0.0 [tick 4.0, tick 4.0]) = true := by
    decide +kernel
  exact ⟨hway, hend hway 4.0 fun _ => none⟩

/-- Four seconds forward, four seconds back: the position stays at four units, but its odometer is
at zero again.  So it goes on after it has made more than the five units, and does not end there. -/
theorem odometer_rewinds :
    departure.rule.validate = .ok () ∧ departure.state.IsFinite ∧
      (∃ p, (departure.afterTick (tick 4.0)).advance (-4.0) (fun _ => none) = .ok (p, false) ∧
        (departure.afterTick (tick 4.0)).state.distanceMoved.le p.state.distanceMoved = false) ∧
      (5.0 : Float).le (departure.wayAfter 0.0 [tick 4.0, tick (-4.0), tick 4.0]) = true ∧
      ∃ p, (departure.afterTicks [tick 4.0, tick (-4.0), tick 4.0]).advance 1.0 (fun _ => none) =
        .ok (p, true) := by
  have hvalid : departure.rule.validate = .ok () := by decide +kernel
  have hfinite : ∀ x ∈ departure.state.numbers, x.isFinite = true := by decide +kernel
  let out := departure.afterTick (tick 4.0)
  let again := departure.afterTicks [tick 4.0, tick (-4.0), tick 4.0]
  have hback : ((out.advance (-4.0) fun _ => none).toOption.any fun r =>
      !r.2 && !out.state.distanceMoved.le r.1.state.distanceMoved) = true := by decide +kernel
  have hon : ((again.advance 1.0 fun _ => none).toOption.any (·.2)) = true := by decide +kernel
  obtain ⟨⟨p, changed⟩, hp, hless⟩ := Except.exists_of_any_toOption hback
  obtain ⟨⟨p', changed'⟩, hp', hchanged⟩ := Except.exists_of_any_toOption hon
  rw [Bool.and_eq_true, Bool.not_eq_true', Bool.not_eq_true'] at hless
  obtain ⟨rfl, hless⟩ := hless
  obtain rfl : changed' = true := hchanged
  exact ⟨hvalid, hfinite, ⟨p, hp, hless⟩, by decide +kernel, p', hp'⟩

end Position

end Orrery
