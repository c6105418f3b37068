import Orrery.Proofs.Absorption
import Orrery.Proofs.Growth

/-!
# Directions

Cruises, spins, orbits and positions are made from vectors of any length, and normalize them first.
The length is computed from its square.  That is infinite for a vector that is very long
(`Vec3.isVast`), and it is zero or has lost most of its digits for one that is very short
(`Vec3.vanishes`, `Vec3.isFaint`).  Every other finite vector that is not zero leads to a unit
vector (`Vec3.normalizes_iff`).

Vectors that are very long, or so short that nothing is left, are refused as if they were zero.  A
faint one leads to an axis that is refused for not being a unit vector, and a position faces along
whatever it leads to.
-/

namespace Orrery

open Double Motion

/-! ### Overflow -/

namespace Double

variable {x y : Float}

theorem isFinite_add_of_le (hx : x.isFinite = true) (hy : y.isFinite = true)
    (h : |value x + value y| ≤ huge) : (x + y).isFinite = true :=
  (isRounded_add (isCanonical_unpack hx) (isCanonical_unpack hy)).isFinite_pack h

theorem isFinite_mul_of_le (hx : x.isFinite = true) (hy : y.isFinite = true)
    (h : |value x * value y| ≤ huge) : (x * y).isFinite = true :=
  (isRounded_mul (isCanonical_unpack hx) (isCanonical_unpack hy)).isFinite_pack h

/-- What is rounded is off by so little that it comes nowhere near twice as much. -/
theorem Rounds.near_of_nonneg {t : ℚ} (hx : Rounds x t) (ht : 0 ≤ t) (hfinite : x.isFinite = true) :
    |value x - t| ≤ 1 / 10 ^ 15 * (t + 1 / 16) := by
  have hnear := (hx.near hfinite).trans (roundoff_mul_le (abs_nonneg t) le_rfl)
  rwa [abs_of_nonneg ht] at hnear

/-- A square that is not too large does not overflow. -/
theorem mul_self_near (hx : x.isFinite = true) (h : value x * value x ≤ huge / 2) :
    (x * x).isFinite = true ∧ 0 ≤ value (x * x) ∧
      value (x * x) ≤ value x * value x + 1 / 10 ^ 15 * (value x * value x + 1 / 16) := by
  have hone := one_le_huge
  have hpos := mul_self_nonneg (value x)
  have hfinite : (x * x).isFinite = true := by
    refine isFinite_mul_of_le hx hx (abs_le.mpr ⟨?_, ?_⟩)
    · linarith only [hpos, hone]
    · linarith only [h, hone]
  have hnear := abs_le.mp ((rounds_mul hx hx).near_of_nonneg hpos hfinite)
  have hsign : sign? (x * x).toModel.unpack = some .positive :=
    sign?_mul_self (isNaN_of_isFinite hx)
  exact ⟨hfinite, (le_iff isFinite_zero hfinite).mp (zero_le_iff.mpr (.inl hsign)),
    sub_le_iff_le_add'.mp hnear.2⟩

/-- A finite number that is not below zero has a finite root. -/
theorem isFinite_sqrt (hx : x.isFinite = true) (hpos : 0 ≤ value x) : x.sqrt.isFinite = true := by
  obtain ⟨q, hrounds, hq, hle, -⟩ := exists_rounds_sqrt hx hpos
  have hbound := abs_value_mul_leastNormal_le hx
  rw [abs_of_nonneg hpos] at hbound
  refine hrounds.finite ?_
  rw [abs_of_nonneg hq]
  by_contra hlarge
  have hsquare : (2 : ℚ) ^ 900 * 2 ^ 900 ≤ q * q :=
    mul_self_le_mul_self (by positivity) (not_le.mp hlarge).le
  have height : (2 : ℚ) ^ (3 : ℤ) ≤ 2 ^ 900 * 2 ^ 900 * leastNormal := by
    have hsum : (2 : ℚ) ^ 900 * 2 ^ 900 * 2 ^ (-1022 : ℤ) = 2 ^ (778 : ℤ) := by
      rw [← zpow_natCast, ← zpow_add₀ two_ne_zero, ← zpow_add₀ two_ne_zero]
      rfl
    rw [leastNormal, hsum]
    exact zpow_le_zpow_right₀ one_le_two (by decide)
  have hproduct := mul_le_mul_of_nonneg_right (hsquare.trans hle) leastNormal_pos.le
  exact absurd (height.trans (hproduct.trans hbound)) (by norm_num)

end Double

/-! ### Squares -/

namespace Vec3

variable {v u : Point}

/-- A computed sum of squares is never below zero. -/
theorem value_dot_self_nonneg (h : (v.dot v).isFinite = true) : 0 ≤ value (v.dot v) := by
  obtain ⟨hx, hy, hz⟩ := isFinite_iff_coords.mp (isFinite_of_dot_self h)
  have hsign : sign? (v.dot v).toModel.unpack = some .positive :=
    sign?_add (sign?_add (sign?_mul_self (isNaN_of_isFinite hx))
      (sign?_mul_self (isNaN_of_isFinite hy))) (sign?_mul_self (isNaN_of_isFinite hz))
  exact (le_iff isFinite_zero h).mp (zero_le_iff.mpr (.inl hsign))

/-- The length is finite if and only if its square does not overflow. -/
theorem isFinite_length_iff : v.length.isFinite = true ↔ (v.dot v).isFinite = true :=
  ⟨isFinite_of_sqrt, fun h => isFinite_sqrt h (value_dot_self_nonneg h)⟩

/-- The square of the length overflows only if it is very large. -/
theorem isFinite_dot_self (hv : v.isFinite = true) (h : v.square ≤ huge / 2) :
    (v.dot v).isFinite = true := by
  obtain ⟨hx, hy, hz⟩ := isFinite_iff_coords.mp hv
  have hsum : value v.x * value v.x + value v.y * value v.y + value v.z * value v.z ≤ huge / 2 := h
  have hone := one_le_huge
  have hxx := mul_self_nonneg (value v.x)
  have hyy := mul_self_nonneg (value v.y)
  have hzz := mul_self_nonneg (value v.z)
  obtain ⟨hxfin, hxnonneg, hxnear⟩ := mul_self_near hx (by linarith only [hsum, hyy, hzz])
  obtain ⟨hyfin, hynonneg, hynear⟩ := mul_self_near hy (by linarith only [hsum, hxx, hzz])
  obtain ⟨hzfin, hznonneg, hznear⟩ := mul_self_near hz (by linarith only [hsum, hxx, hyy])
  have hpair : (v.x * v.x + v.y * v.y).isFinite = true := by
    refine isFinite_add_of_le hxfin hyfin (abs_le.mpr ⟨?_, ?_⟩)
    · linarith only [hxnonneg, hynonneg, hone]
    · linarith only [hxnear, hynear, hsum, hzz, hone]
  obtain ⟨hlow, hhigh⟩ := abs_le.mp
    ((rounds_add hxfin hyfin).near_of_nonneg (add_nonneg hxnonneg hynonneg) hpair)
  refine isFinite_add_of_le hpair hzfin (abs_le.mpr ⟨?_, ?_⟩)
  · linarith only [hlow, hxnonneg, hynonneg, hznonneg, hone]
  · linarith only [hhigh, hxnear, hynear, hznear, hsum, hzz, hone]

/-! ### Normalizing -/

/-- Finite, but the square of the length is not. -/
def isVast (v : Point) : Bool := v.isFinite && !(v.dot v).isFinite

/-- Not zero, but of a length that is computed to be zero. -/
def vanishes (v : Point) : Bool := v.length == 0.0 && !v.sameAs Vec3.origin

theorem length_of_sameAs_origin (h : v.sameAs Vec3.origin = true) : (v.length == 0.0) = true := by
  have hzero : ∀ {x : Float}, (x == 0.0) = true → x = 0.0 ∨ x = -0.0 := by
    intro x hx
    obtain ⟨-, -, rfl | ⟨rfl, -⟩ | ⟨rfl, -⟩⟩ := Float.beq_iff_ne_nan_and_eq.mp hx
    · exact .inl rfl
    · exact .inl rfl
    · exact .inr rfl
  obtain ⟨x, y, z⟩ := v
  simp only [sameAs, Bool.and_eq_true] at h
  obtain ⟨⟨hx, hy⟩, hz⟩ := h
  rcases hzero hx with rfl | rfl <;> rcases hzero hy with rfl | rfl <;>
    rcases hzero hz with rfl | rfl <;> rfl

/-- There are four reasons for which a vector is not normalized. -/
theorem normalize?_eq_none_iff : v.normalize? = none ↔
    v.isFinite = false ∨ v.sameAs Vec3.origin = true ∨ v.isVast = true ∨ v.vanishes = true := by
  have hdef : v.normalize? = if !v.length.isFinite || v.length == 0.0 then none
      else some (v * (1.0 / v.length)) := rfl
  have hlength : v.length.isFinite = (v.dot v).isFinite := Bool.eq_iff_iff.mpr isFinite_length_iff
  have hdot : (v.dot v).isFinite = true → v.isFinite = true := isFinite_of_dot_self
  have horigin : v.sameAs Vec3.origin = true → (v.length == 0.0) = true := length_of_sameAs_origin
  rw [hdef, hlength, isVast, vanishes]
  revert hdot horigin
  generalize (v.dot v).isFinite = squared, v.isFinite = finite, (v.length == 0.0) = zero,
    v.sameAs Vec3.origin = origin
  cases squared <;> cases finite <;> cases zero <;> cases origin <;> simp

theorem isNormalized_eq_false_iff (h : v.normalize? = some u) :
    u.isNormalized = false ↔ v.isFaint = true := by
  rw [← Bool.not_eq_true, isNormalized_iff_of_normalize? h, Bool.not_eq_false]

/-- There are three reasons for which a finite vector that is not zero does not lead to a unit
vector. -/
theorem exists_isNormalized_iff : (∃ u, v.normalize? = some u ∧ u.isNormalized = true) ↔
    (v.isFinite = true ∧ v.sameAs Vec3.origin = false) ∧
      v.isVast = false ∧ v.vanishes = false ∧ v.isFaint = false := by
  cases hv : v.normalize? with
  | none =>
    have hnone := normalize?_eq_none_iff.mp hv
    constructor
    · rintro ⟨u, hu, -⟩
      cases hu
    · rintro ⟨⟨hfinite, horigin⟩, hvast, hvanishes, -⟩
      simp [hfinite, horigin, hvast, hvanishes] at hnone
  | some u =>
    have hsome : ¬v.normalize? = none := by simp [hv]
    rw [normalize?_eq_none_iff] at hsome
    push Not at hsome
    obtain ⟨hfinite, horigin, hvast, hvanishes⟩ := hsome
    simp only [Option.some.injEq, exists_eq_left', isNormalized_iff_of_normalize? hv]
    exact ⟨fun hfaint => ⟨⟨by simpa using hfinite, by simpa using horigin⟩, by simpa using hvast,
      by simpa using hvanishes, hfaint⟩, fun h => h.2.2.2⟩

theorem lt_square_of_isVast (h : v.isVast = true) : huge / 2 < v.square := by
  obtain ⟨hfinite, hdot⟩ := (Bool.and_eq_true ..).mp h
  by_contra hle
  rw [isFinite_dot_self hfinite (not_lt.mp hle)] at hdot
  cases hdot

theorem square_lt_of_vanishes (h : v.vanishes = true) : v.square < 2 * leastNormal := by
  obtain ⟨hzero, -⟩ := (Bool.and_eq_true ..).mp h
  obtain ⟨hlength, hvalue⟩ := value_eq_of_eq hzero isFinite_zero
  refine square_lt_of_dot_lt (isFinite_of_sqrt hlength) ?_
  -- the root of a normal number is not zero
  by_contra hlarge
  exact (sqrt_near hlength (not_lt.mp hlarge)).1.ne' (hvalue.trans value_zero)

end Vec3

/-! ### Refusals -/

/-- The result is a fault of this kind. -/
def Motion.Refuses {α β : Type} (r : Except (Fault α) β) (q : Requirement) : Prop :=
  ∃ f, r = .error f ∧ f.requirement = q

section Checks

variable {α β : Type} {f : Fault α} {r s : Except (Fault α) β} {x : β} {q : Requirement}

namespace Motion

@[simp] theorem refuses_ok_iff : Refuses (.ok x : Except (Fault α) β) q ↔ False := by
  simp [Refuses]

@[simp] theorem refuses_error_iff :
    Refuses (.error f : Except (Fault α) β) q ↔ q = f.requirement := by
  simp [Refuses, eq_comm]

@[simp] theorem refuses_throw_iff :
    Refuses (throw f : Except (Fault α) β) q ↔ q = f.requirement := refuses_error_iff

@[simp] theorem refuses_throw_bind_iff {γ : Type} {next : γ → Except (Fault α) β} :
    Refuses (throw f >>= next) q ↔ q = f.requirement := refuses_error_iff

@[simp] theorem refuses_pure_iff : Refuses (pure x : Except (Fault α) β) q ↔ False := refuses_ok_iff

@[simp] theorem refuses_ite_iff {c : Prop} [Decidable c] :
    Refuses (if c then r else s) q ↔ (c ∧ Refuses r q) ∨ (¬c ∧ Refuses s q) := by
  by_cases hc : c <;> simp [hc]

/-- What is only checked is refused by the check. -/
theorem refuses_checked_iff {check : Except (Fault α) Unit} :
    Refuses (check >>= fun _ => .ok x) q ↔ Refuses check q := by
  cases check <;> simp [bind, Except.bind]

end Motion

end Checks

section New

variable {v : Point} {speed : Float} {q : Requirement}

theorem Cruise.refuses_validate_iff {direction : Point} :
    Refuses (Cruise.mk direction speed none none).validate q ↔
      (direction.isNormalized = false ∧ q = .normalized) ∨
      (direction.isNormalized = true ∧ Scalar.isPositive speed = false ∧ q = .positive) := by
  simp [validate]

theorem Spin.refuses_validate_iff {axis : Point} :
    Refuses (Spin.mk axis speed none).validate q ↔
      ((Scalar.isFinite speed = false ∨ Scalar.le Scalar.fullTurn (Scalar.abs speed) = true) ∧
        q = .belowFullTurn) ∨
      ((Scalar.isFinite speed = true ∧ Scalar.le Scalar.fullTurn (Scalar.abs speed) = false) ∧
        axis.isNormalized = false ∧ q = .normalized) := by
  simp [validate]

theorem Orbit.refuses_validate_normalized_iff {o : Orbit Float} :
    Refuses o.validate .normalized ↔ Scalar.isPositive o.semiLatusRectum = true ∧
      (Scalar.le Scalar.zero o.eccentricity = true ∧ Scalar.lt o.eccentricity Scalar.one = true) ∧
      Scalar.isPositive o.speed = true ∧
      (o.major.isNormalized = false ∨ o.minor.isNormalized = false) := by
  simp [validate]

theorem Orbit.not_refuses_validate_nonZero {o : Orbit Float} : ¬Refuses o.validate .nonZero := by
  simp [validate]

theorem Cruise.refuses_new_iff : Refuses (Cruise.new v speed) q ↔ match v.normalize? with
    | none => q = .nonZero
    | some u => Refuses (Cruise.mk u speed none none).validate q := by
  unfold new
  cases v.normalize? with
  | none => exact refuses_error_iff
  | some u => exact refuses_checked_iff

theorem Spin.refuses_new_iff : Refuses (Spin.new v speed) q ↔ match v.normalize? with
    | none => q = .nonZero
    | some u => Refuses (Spin.mk u speed none).validate q := by
  unfold new
  cases v.normalize? with
  | none => exact refuses_error_iff
  | some u => exact refuses_checked_iff

theorem Orbit.refuses_new_iff {p e : Float} {w : Point} :
    Refuses (Orbit.new p e speed v w) q ↔ match v.normalize?, w.normalize? with
    | some u, some t => Refuses (Orbit.mk p e speed u t .focus Scalar.zero).validate q
    | _, _ => q = .nonZero := by
  unfold new
  cases v.normalize? with
  | none => exact refuses_error_iff
  | some u =>
    cases w.normalize? with
    | none => exact refuses_error_iff
    | some t => exact refuses_checked_iff

/-- A cruise is refused for want of a direction, or because the one found is no unit vector. -/
theorem Cruise.refuses_direction_iff :
    (Refuses (Cruise.new v speed) .nonZero ↔ v.normalize? = none) ∧
    (Refuses (Cruise.new v speed) .normalized ↔ v.isFaint = true) := by
  rw [refuses_new_iff, refuses_new_iff]
  cases hv : v.normalize? with
  | none => simp [Vec3.isFaint, hv]
  | some u => simp [refuses_validate_iff, Vec3.isNormalized_eq_false_iff hv]

/-- A spin is refused for want of an axis, or because its speed is right and the axis found is no
unit vector. -/
theorem Spin.refuses_axis_iff :
    (Refuses (Spin.new v speed) .nonZero ↔ v.normalize? = none) ∧
    (Refuses (Spin.new v speed) .normalized ↔
      (Scalar.isFinite speed = true ∧ Scalar.le Scalar.fullTurn (Scalar.abs speed) = false) ∧
        v.isFaint = true) := by
  rw [refuses_new_iff, refuses_new_iff]
  cases hv : v.normalize? with
  | none => simp [Vec3.isFaint, hv]
  | some u => simp [refuses_validate_iff, Vec3.isNormalized_eq_false_iff hv]

/-- An orbit is refused for want of an axis, or because its numbers are right and one of the axes
found is no unit vector. -/
theorem Orbit.refuses_axes_iff {p e : Float} {w : Point} :
    (Refuses (Orbit.new p e speed v w) .nonZero ↔ v.normalize? = none ∨ w.normalize? = none) ∧
    (Refuses (Orbit.new p e speed v w) .normalized ↔
      (v.normalize?.isSome = true ∧ w.normalize?.isSome = true) ∧ Scalar.isPositive p = true ∧
        (Scalar.le Scalar.zero e = true ∧ Scalar.lt e Scalar.one = true) ∧
        Scalar.isPositive speed = true ∧ (v.isFaint = true ∨ w.isFaint = true)) := by
  rw [refuses_new_iff, refuses_new_iff]
  cases hv : v.normalize? with
  | none => simp
  | some u =>
    cases hw : w.normalize? with
    | none => simp
    | some t =>
      simp [not_refuses_validate_nonZero, refuses_validate_normalized_iff,
        Vec3.isNormalized_eq_false_iff hv, Vec3.isNormalized_eq_false_iff hw]

end New

/-- A position cannot be told to face along a vector that is not normalized, and it does not face
along a unit vector if that is normalized badly. -/
theorem Position.facing_iff {p : Position} {v : Point} :
    (p.facing v = .error (.ofFault ⟨"orientation", "", .nonZero, none⟩) ↔ v.normalize? = none) ∧
    ((∃ p', p.facing v = .ok p' ∧ ¬p'.IsOriented) ↔ v.isFaint = true) := by
  unfold facing
  cases hv : v.normalize? with
  | none => simp [Vec3.isFaint, hv]
  | some u => simp [IsOriented, Vec3.isNormalized_eq_false_iff hv]

/-- A vector is normalized to a unit vector if and only if it is finite and not zero, and its length
is neither too large nor too small. -/
theorem Vec3.normalizes_iff (v : Point) :
    ((∃ u, v.normalize? = some u ∧ u.isNormalized = true) ↔
      (v.isFinite = true ∧ v.sameAs Vec3.origin = false) ∧
        v.isVast = false ∧ v.vanishes = false ∧ v.isFaint = false) ∧
    (v.normalize? = none ↔
      (v.isFinite = false ∨ v.sameAs Vec3.origin = true) ∨ v.isVast = true ∨ v.vanishes = true) ∧
    (v.isVast = true → huge / 2 < v.square) ∧
    (v.vanishes = true ∨ v.isFaint = true → v.square < 2 * leastNormal) ∧
    (∀ speed,
      (Refuses (Cruise.new v speed) .nonZero ↔ v.normalize? = none) ∧
      (Refuses (Cruise.new v speed) .normalized ↔ v.isFaint = true)) ∧
    (∀ speed,
      (Refuses (Spin.new v speed) .nonZero ↔ v.normalize? = none) ∧
      (Refuses (Spin.new v speed) .normalized ↔
        (Scalar.isFinite speed = true ∧ Scalar.le Scalar.fullTurn (Scalar.abs speed) = false) ∧
          v.isFaint = true)) ∧
    (∀ p e speed w,
      (Refuses (Orbit.new p e speed v w) .nonZero ↔ v.normalize? = none ∨ w.normalize? = none) ∧
      (Refuses (Orbit.new p e speed v w) .normalized ↔
        (v.normalize?.isSome = true ∧ w.normalize?.isSome = true) ∧ Scalar.isPositive p = true ∧
          (Scalar.le Scalar.zero e = true ∧ Scalar.lt e Scalar.one = true) ∧
          Scalar.isPositive speed = true ∧ (v.isFaint = true ∨ w.isFaint = true))) ∧
    (∀ p : Position,
      (p.facing v = .error (.ofFault ⟨"orientation", "", .nonZero, none⟩) ↔ v.normalize? = none) ∧
      ((∃ p', p.facing v = .ok p' ∧ ¬p'.IsOriented) ↔ v.isFaint = true)) := by
  refine ⟨exists_isNormalized_iff, by rw [normalize?_eq_none_iff, or_assoc], lt_square_of_isVast,
    ?_, fun _ => Cruise.refuses_direction_iff, fun _ => Spin.refuses_axis_iff,
    fun _ _ _ _ => Orbit.refuses_axes_iff, fun _ => Position.facing_iff⟩
  rintro (hvanishes | hfaint)
  · exact square_lt_of_vanishes hvanishes
  · exact square_lt_of_isFaint hfaint

/-! ### Lost directions -/

namespace Lost

/-- So long that the square of the length is infinite. -/
def beacon : Point := ⟨1e200, 0.0, 0.0⟩

/-- So short that the square of the length is zero. -/
def mote : Point := ⟨1e-200, 0.0, 0.0⟩

end Lost

open Blur Lost in
/-- Three vectors along the first axis: a very long one and a very short one are taken for zero,
and a short one leads to something that is not a unit vector. -/
theorem Vec3.undirected :
    (∀ v ∈ [beacon, mote], (v.isFinite = true ∧ v.sameAs Vec3.origin = false) ∧
      v.normalize? = none ∧ Refuses (Cruise.new v 1.0) .nonZero ∧
      Refuses (Spin.new v 1.0) .nonZero) ∧
    (speck.isFinite = true ∧ speck.sameAs Vec3.origin = false) ∧
    Refuses (Cruise.new speck 1.0) .normalized ∧
    ∃ p, ({ id := ⟨1⟩ } : Position).facing speck = .ok p ∧ ¬p.IsOriented := by
  have hlost : ∀ v ∈ [beacon, mote],
      (v.isFinite = true ∧ v.sameAs Vec3.origin = false) ∧ v.normalize? = none := by
    decide +kernel
  have hfaint : speck.isFaint = true := by decide +kernel
  refine ⟨fun v hv => ?_, by decide +kernel, ?_, Position.facing_iff.2.mpr hfaint⟩
  · obtain ⟨hfinite, hnone⟩ := hlost v hv
    exact ⟨hfinite, hnone, Cruise.refuses_direction_iff.1.mpr hnone,
      Spin.refuses_axis_iff.1.mpr hnone⟩
  · exact Cruise.refuses_direction_iff.2.mpr hfaint

end Orrery
