import Orrery.Proofs.Absorption
import Orrery.Proofs.Remainder
import Orrery.Proofs.Rewind

/-!
# True anomalies

The true anomaly of an orbit is wrapped into one turn.  A number below zero has a remainder below
zero, which is moved by a full turn.  If it is so close to zero that it is lost in the sum, the true
anomaly is the full turn itself, and not a little less (`Double.add_fullTurn`).  The numbers that
this happens to *fall short* of a whole number of turns by no more than half of the gap between a
full turn and the number before it (`Double.FallsShort`, `Double.wrap_fullTurn`).

A position on an orbit keeps a true anomaly from zero to a full turn, and less than a full turn
unless something falls short (`Position.inTurn_iff_not_fallsShort`).
-/

namespace Orrery

open Double

/-! ### Wrapping -/

namespace Double

open Float.Model (UnpackedFloat)
open Float.Model.UnpackedFloat

variable {x r : Float}

/-- The number that a full turn is taken to be. -/
def turn : ℚ := value (Scalar.fullTurn : Float)

theorem unpack_fullTurn : (Scalar.fullTurn : Float).toModel.unpack =
    .finite .positive 7074237752028440 (-50) (by decide) := rfl

theorem isFinite_fullTurn : (Scalar.fullTurn : Float).isFinite = true := rfl

theorem turn_eq : turn = 7074237752028440 * 2 ^ (-50 : ℤ) := by
  rw [turn, value, unpack_fullTurn, rational_positive]
  norm_cast

/-- Below a full turn there is a gap. -/
theorem value_le_of_lt_turn (hx : x.isFinite = true) (h : value x < turn) :
    value x ≤ turn - 2 ^ (-50 : ℤ) := by
  have hunit : (0 : ℚ) < 2 ^ (-50 : ℤ) := by positivity
  have hcanonical := isCanonical_unpack hx
  rw [turn_eq] at *
  unfold value at *
  cases hu : x.toModel.unpack with
  | infinity s | notANumber =>
    rw [hu] at hcanonical
    exact hcanonical.elim
  | zero s =>
    rw [rational_zero]
    linarith
  | finite s m e hm =>
    rw [hu] at hcanonical h
    cases s with
    | negative =>
      rw [rational_negative]
      have hpos : (0 : ℚ) < m * 2 ^ e := by positivity
      linarith
    | positive =>
      rw [rational_positive] at *
      rcases le_or_gt (-50) e with he | he
      · obtain ⟨k, hk⟩ := exists_units (n := m) he
        rw [hk] at h ⊢
        have hlt : (k : ℚ) < 7074237752028440 := lt_of_mul_lt_mul_right h hunit.le
        have hlt : k < 7074237752028440 := by exact_mod_cast hlt
        have hle : (k : ℚ) ≤ 7074237752028440 - 1 := by
          exact_mod_cast (by omega : (k : ℤ) ≤ 7074237752028440 - 1)
        have := mul_le_mul_of_nonneg_right hle hunit.le
        linarith
      · have hsmall := canonical_lt_two_zpow hcanonical he
        have hfour : (2 : ℚ) ^ (-50 + 52 : ℤ) = 2 ^ 52 * 2 ^ (-50 : ℤ) := by
          rw [zpow_add₀ two_ne_zero, mul_comm]
          norm_cast
        linarith

/-- The number before a full turn. -/
theorem value_before_turn : value 6.283185307179585 = turn - 2 ^ (-50 : ℤ) := by
  have hunpack : (6.283185307179585 : Float).toModel.unpack =
      .finite .positive 7074237752028439 (-50) (by decide) := rfl
  rw [value, hunpack, rational_positive, turn_eq]
  push_cast
  ring

theorem value_half_gap : value (-4.440892098500626e-16) = -2 ^ (-51 : ℤ) := by
  have hunpack : (-4.440892098500626e-16 : Float).toModel.unpack =
      .finite .negative (2 ^ 52) (-103) (by decide) := rfl
  rw [value, hunpack, rational_negative]
  norm_num

theorem two_zpow_gap : (2 : ℚ) ^ (-50 : ℤ) = 2 * 2 ^ (-51 : ℤ) := by
  rw [← zpow_one_add₀ two_ne_zero]
  rfl

theorem two_zpow_pos : (0 : ℚ) < 2 ^ (-51 : ℤ) := by positivity

theorem turn_le : turn ≤ 100 := by
  rw [turn_eq]
  norm_num

/-- Half of the gap below a full turn is a tie, which goes to the full turn. -/
theorem value_add_fullTurn_of_eq (hr : r.isFinite = true) (h : value r = -2 ^ (-51 : ℤ)) :
    value (r + Scalar.fullTurn) = turn := by
  have hhalf : (-4.440892098500626e-16 : Float).isFinite = true := rfl
  have hsame : (r == -4.440892098500626e-16) = true := by
    apply eq_of_le_of_le
    · exact (le_iff hr hhalf).mpr (by rw [h, value_half_gap])
    · exact (le_iff hhalf hr).mpr (by rw [h, value_half_gap])
  have htie : (-4.440892098500626e-16 + Scalar.fullTurn == (Scalar.fullTurn : Float)) = true :=
    rfl
  have hsum := add_congr hsame hr (isNaN_of_isFinite isFinite_fullTurn)
  obtain ⟨hfinite, htie⟩ := value_eq_of_eq htie isFinite_fullTurn
  exact (value_eq_of_eq hsum hfinite).2.trans htie

/-- What is below zero is moved by a full turn, and gets there unless it is so close to zero that
it is lost. -/
theorem add_fullTurn (hr : r.isFinite = true) (hlow : -turn < value r) (hneg : value r < 0) :
    (r + Scalar.fullTurn).isFinite = true ∧
      (0 ≤ value (r + Scalar.fullTurn) ∧ value (r + Scalar.fullTurn) ≤ turn) ∧
      (value (r + Scalar.fullTurn) < turn ↔ value r < -2 ^ (-51 : ℤ)) := by
  have hrange : |value r + turn| ≤ 100 := abs_le.mpr ⟨by linarith, by linarith [turn_le]⟩
  have hsum : (r + Scalar.fullTurn).isFinite = true :=
    ((rounds_add hr isFinite_fullTurn).moderate hrange).1
  have hnearest : ∀ {z : Float}, z.isFinite = true →
      |value (r + Scalar.fullTurn) - (value r + turn)| ≤ |value z - (value r + turn)| :=
    fun hz => abs_add_sub_le hr isFinite_fullTurn hsum hz
  have hzero : |value (r + Scalar.fullTurn) - (value r + turn)| ≤ value r + turn := by
    refine (hnearest isFinite_zero).trans_eq ?_
    rw [value_zero, zero_sub, abs_neg, abs_of_nonneg (by linarith)]
  have hturn : |value (r + Scalar.fullTurn) - (value r + turn)| ≤ -value r := by
    refine (hnearest isFinite_fullTurn).trans_eq ?_
    rw [← turn, abs_of_nonneg (by linarith)]
    ring
  have hpos : 0 ≤ value (r + Scalar.fullTurn) := by linarith [(abs_le.mp hzero).1]
  have hle : value (r + Scalar.fullTurn) ≤ turn := by linarith [(abs_le.mp hturn).2]
  refine ⟨hsum, ⟨hpos, hle⟩, ?_, ?_⟩
  · -- whatever is below the full turn is below the gap, and the full turn is nearer than that
    intro hlt
    by_contra hclose
    rcases (not_lt.mp hclose).eq_or_lt with heq | hgt
    · exact hlt.ne (value_add_fullTurn_of_eq hr heq.symm)
    · have hgap := value_le_of_lt_turn hsum hlt
      rw [two_zpow_gap] at hgap
      linarith [(abs_le.mp hturn).1]
  · -- the number before the full turn is nearer than that
    intro hfar
    refine hle.lt_of_ne fun heq => ?_
    have hbefore := hnearest (show (6.283185307179585 : Float).isFinite = true from rfl)
    rw [heq, value_before_turn, two_zpow_gap, abs_of_nonneg (by linarith)] at hbefore
    rcases le_abs.mp hbefore with h | h
    · linarith [two_zpow_pos]
    · linarith

/-- Below zero, and short of a whole number of turns by at most half of the gap below a full
turn. -/
def FallsShort (x : Float) : Prop :=
  ∃ n : ℕ, -(n * turn) - 2 ^ (-51 : ℤ) ≤ value x ∧ value x < -(n * turn)

theorem turn_large : 1 ≤ turn := by
  rw [turn_eq]
  norm_num

theorem not_fallsShort_of_nonneg (h : 0 ≤ value x) : ¬FallsShort x := by
  rintro ⟨n, -, hbelow⟩
  have hturns : 0 ≤ n * turn := mul_nonneg n.cast_nonneg (zero_le_one.trans turn_large)
  linarith

/-- A number falls short if its remainder is below zero, but hardly so. -/
theorem fallsShort_iff {q : ℚ} (h : IsRemainder (value x) turn q) :
    FallsShort x ↔ -2 ^ (-51 : ℤ) ≤ q ∧ q < 0 := by
  have hturn := turn_large
  have hgap : (2 : ℚ) ^ (-51 : ℤ) < 1 := by norm_num
  obtain ⟨hlt, n, hwhole⟩ := h
  have habs : |turn| = turn := abs_of_nonneg (by linarith)
  rw [habs, abs_lt] at hlt
  rw [habs] at hwhole
  unfold FallsShort
  generalize turn = t at *
  have hcount : ∀ k : ℕ, (0 : ℚ) ≤ k * t := fun k => mul_nonneg k.cast_nonneg (by linarith)
  constructor
  · rintro ⟨k, hlow, hhigh⟩
    rcases hwhole with ⟨hpos, hx⟩ | ⟨hneg, hx⟩
    · linarith [hcount k, hcount n]
    · -- no other number of turns is as close
      obtain rfl : n = k := by
        rcases lt_trichotomy n k with hnk | hnk | hnk
        · have hmore : ((n : ℚ) + 1) * t ≤ k * t := by
            gcongr
            exact_mod_cast hnk
          linarith
        · exact hnk
        · have hmore : ((k : ℚ) + 1) * t ≤ n * t := by
            gcongr
            exact_mod_cast hnk
          linarith
      exact ⟨by linarith, by linarith⟩
  · rintro ⟨hlow, hhigh⟩
    rcases hwhole with ⟨hpos, -⟩ | ⟨-, hx⟩
    · linarith
    · exact ⟨n, by linarith, by linarith⟩

/-- The remainder is shifted into the range from zero to a full turn, and to the full turn itself
only if the number falls short. -/
theorem wrap_fullTurn (hx : x.isFinite = true) :
    (wrap x Scalar.fullTurn).isFinite = true ∧
      (0 ≤ value (wrap x Scalar.fullTurn) ∧ value (wrap x Scalar.fullTurn) ≤ turn) ∧
      (value (wrap x Scalar.fullTurn) < turn ↔ ¬FallsShort x) := by
  have hturn := turn_large
  obtain ⟨hfinite, hremainder⟩ := remainder_spec hx isFinite_fullTurn (by rw [← turn]; linarith)
  have hlt := hremainder.lt
  rw [← turn] at hremainder hlt
  rw [abs_of_nonneg (a := turn) (by linarith), abs_lt] at hlt
  rw [fallsShort_iff hremainder]
  have habs : (Scalar.fullTurn : Float).abs = Scalar.fullTurn := rfl
  have hzero : remainder x Scalar.fullTurn < 0.0 ↔ value (remainder x Scalar.fullTurn) < 0 := by
    rw [← value_zero]
    exact lt_iff hfinite isFinite_zero
  unfold wrap
  dsimp only
  by_cases hneg : value (remainder x Scalar.fullTurn) < 0
  · rw [if_pos (hzero.mpr hneg), habs]
    obtain ⟨hsum, hrange, hbelow⟩ := add_fullTurn hfinite hlt.1 hneg
    refine ⟨hsum, hrange, hbelow.trans ?_⟩
    rw [not_and_or, not_le, not_lt]
    exact ⟨.inl, fun h => h.resolve_right hneg.not_ge⟩
  · rw [if_neg fun h => hneg (hzero.mp h)]
    exact ⟨hfinite, ⟨not_lt.mp hneg, hlt.2.le⟩, iff_of_true hlt.2 fun h => hneg h.2⟩

theorem isFinite_of_wrap {m : Float} (h : (wrap x m).isFinite = true) : x.isFinite = true := by
  unfold wrap at h
  dsimp only at h
  split at h
  · exact isFinite_of_remainder (isFinite_of_add h).1
  · exact isFinite_of_remainder h

end Double

/-! ### Orbits -/

namespace Orbit

variable {o : Orbit Float} {θ : Float}

/-- The true anomaly is from zero to a full turn, both included. -/
def InClosedTurn (o : Orbit Float) : Prop :=
  (0.0 : Float).le o.trueAnomaly = true ∧ o.trueAnomaly.le Scalar.fullTurn = true

/-- The true anomaly is from zero up to a full turn, which it does not reach. -/
def InTurn (o : Orbit Float) : Prop :=
  (0.0 : Float).le o.trueAnomaly = true ∧ o.trueAnomaly.lt Scalar.fullTurn = true

theorem startingAt_inTurn (hθ : θ.isFinite = true) :
    (o.startingAt θ).InClosedTurn ∧ ((o.startingAt θ).InTurn ↔ ¬FallsShort θ) := by
  obtain ⟨hfinite, ⟨hlow, hhigh⟩, hbelow⟩ := wrap_fullTurn hθ
  have hzero : (0.0 : Float).le (o.startingAt θ).trueAnomaly = true :=
    (le_iff isFinite_zero hfinite).mpr (value_zero.trans_le hlow)
  refine ⟨⟨hzero, (le_iff hfinite isFinite_fullTurn).mpr hhigh⟩, ?_⟩
  rw [← hbelow]
  exact ⟨fun h => (lt_iff hfinite isFinite_fullTurn).mp h.2,
    fun h => ⟨hzero, (lt_iff hfinite isFinite_fullTurn).mpr h⟩⟩

/-- A new orbit starts at periapsis. -/
theorem trueAnomaly_of_new {latus eccentricity speed : Float} {major minor : Point}
    (h : Orbit.new latus eccentricity speed major minor = .ok o) : o.trueAnomaly = 0.0 := by
  unfold new at h
  cases hmajor : major.normalize? with
  | none =>
    rw [hmajor] at h
    cases h
  | some u =>
    cases hminor : minor.normalize? with
    | none =>
      rw [hmajor, hminor] at h
      cases h
    | some w =>
      rw [hmajor, hminor] at h
      simp only [bind, Except.bind] at h
      split at h
      · cases h
      · cases h
        rfl

end Orbit

/-! ### Positions -/

namespace Position

variable {p : Position} {o : Orbit Float}

/-- The position is on an orbit with a true anomaly below a full turn. -/
def InTurn (p : Position) : Prop := ∃ o, p.rule = .orbit o ∧ o.InTurn

/-- The position advances on an orbit, and what is wrapped falls short. -/
def FallsShort (p : Position) (tick : Float × Lookup) : Prop :=
  (p.advance tick.1 tick.2).isOk = true ∧
    ∃ o, p.rule = .orbit o ∧ Double.FallsShort (o.trueAnomaly + o.speed * tick.1)

/-- On an orbit an advance wraps the new true anomaly, which is finite. -/
theorem afterTick_orbit (h : p.rule = .orbit o) (tick : Float × Lookup) :
    ((p.advance tick.1 tick.2).isOk = false ∧ p.afterTick tick = p) ∨
    ((p.advance tick.1 tick.2).isOk = true ∧ (o.trueAnomaly + o.speed * tick.1).isFinite = true ∧
      (p.afterTick tick).rule = .orbit (o.startingAt (o.trueAnomaly + o.speed * tick.1))) := by
  unfold afterTick
  cases hadvance : p.advance tick.1 tick.2 with
  | error e => exact .inl ⟨rfl, rfl⟩
  | ok r =>
    obtain ⟨p', changed⟩ := r
    obtain ⟨a, ha, hcoords, -, rfl⟩ := advance_eq_ok hadvance
    rw [h] at ha
    cases ha
    exact .inr ⟨rfl, isFinite_of_wrap (Orbit.isFinite_of_pointAt hcoords), rfl⟩

/-- What an advance does to the true anomaly. -/
theorem inTurn_afterTick (h : p.rule = .orbit o) (hrange : o.InClosedTurn)
    (tick : Float × Lookup) :
    (∃ o', (p.afterTick tick).rule = .orbit o' ∧ o'.InClosedTurn) ∧
    ((p.advance tick.1 tick.2).isOk = true →
      ((p.afterTick tick).InTurn ↔ ¬p.FallsShort tick)) := by
  rcases afterTick_orbit h tick with ⟨herror, hsame⟩ | ⟨hok, hfinite, hrule⟩
  · rw [hsame, herror]
    exact ⟨⟨o, h, hrange⟩, nofun⟩
  · obtain ⟨hclosed, hopen⟩ := Orbit.startingAt_inTurn (o := o) hfinite
    refine ⟨⟨_, hrule, hclosed⟩, fun _ => ?_⟩
    simp only [InTurn, FallsShort, hrule, h, hok, Rule.orbit.injEq, exists_eq_left', true_and]
    exact hopen

/-- Advances keep the true anomaly in the closed range. -/
theorem inClosedTurn_afterTicks (h : p.rule = .orbit o) (hrange : o.InClosedTurn)
    (ticks : List (Float × Lookup)) :
    ∃ o', (p.afterTicks ticks).rule = .orbit o' ∧ o'.InClosedTurn := by
  induction ticks generalizing p o with
  | nil => exact ⟨o, h, hrange⟩
  | cons tick ticks ih =>
    obtain ⟨o', hrule, hclosed⟩ := (inTurn_afterTick h hrange tick).1
    exact ih hrule hclosed

/-- A true anomaly below a full turn stays there unless an advance falls short. -/
theorem inTurn_afterTick_iff (h : p.InTurn) (tick : Float × Lookup) :
    (p.afterTick tick).InTurn ↔ ¬p.FallsShort tick := by
  obtain ⟨o, hrule, hzero, hlt⟩ := h
  cases hok : (p.advance tick.1 tick.2).isOk with
  | true => exact (inTurn_afterTick hrule ⟨hzero, le_of_lt hlt⟩ tick).2 hok
  | false =>
    rcases afterTick_orbit hrule tick with ⟨-, hsame⟩ | ⟨htrue, -⟩
    · rw [hsame, FallsShort, hok]
      exact iff_of_true ⟨o, hrule, hzero, hlt⟩ fun hshort => Bool.false_ne_true hshort.1
    · rw [hok] at htrue
      cases htrue

/-- All advances of a run leave the true anomaly below a full turn if and only if none falls
short. -/
theorem always_inTurn_iff (ticks : List (Float × Lookup)) :
    (∀ front, front <+: ticks → (p.afterTicks front).InTurn) ↔
      p.InTurn ∧ ∀ before tick after, ticks = before ++ tick :: after →
        ¬(p.afterTicks before).FallsShort tick := by
  induction ticks generalizing p with
  | nil =>
    simp only [List.prefix_nil, forall_eq, List.nil_eq, List.append_eq_nil_iff, reduceCtorEq,
      and_false, IsEmpty.forall_iff, implies_true, and_true]
    rfl
  | cons tick ticks ih =>
    constructor
    · intro h
      have hfirst : p.InTurn := h [] List.nil_prefix
      have hrest := ih.mp fun front hfront => h (tick :: front) (by simpa using hfront)
      refine ⟨hfirst, ?_⟩
      rintro (_ | ⟨head, before⟩) later after hsplit
      · cases hsplit
        exact (inTurn_afterTick_iff hfirst tick).mp hrest.1
      · cases hsplit
        exact hrest.2 before later after rfl
    · rintro ⟨hfirst, hshort⟩ front hfront
      have hnext := (inTurn_afterTick_iff hfirst tick).mpr (hshort [] tick ticks rfl)
      have hrest := ih.mpr ⟨hnext, fun before later after hsplit =>
        hshort (tick :: before) later after (by rw [hsplit]; rfl)⟩
      cases front with
      | nil => exact hfirst
      | cons head front =>
        obtain ⟨rfl, htail⟩ := List.cons_prefix_cons.mp hfront
        exact hrest front htail

/-- An orbit made from its parameters is in the closed range, and below a full turn unless it starts
from what falls short. -/
theorem start_inTurn {latus eccentricity speed : Float} {major minor : Point} {θ : Option Float}
    {origin : OrbitOrigin} (hnew : Orbit.new latus eccentricity speed major minor = .ok o)
    (hθ : ∀ start ∈ θ, start.isFinite = true)
    (hrule : p.rule = .orbit ((θ.elim o o.startingAt).relativeTo origin)) :
    ((θ.elim o o.startingAt).relativeTo origin).InClosedTurn ∧
      (p.InTurn ↔ ∀ start ∈ θ, ¬Double.FallsShort start) := by
  simp only [InTurn, hrule, Rule.orbit.injEq, exists_eq_left']
  cases θ with
  | none =>
    have hsame : ((none.elim o o.startingAt).relativeTo origin).trueAnomaly = o.trueAnomaly := rfl
    rw [Orbit.InClosedTurn, Orbit.InTurn, hsame, Orbit.trueAnomaly_of_new hnew]
    exact ⟨⟨rfl, rfl⟩, iff_of_true ⟨rfl, rfl⟩ nofun⟩
  | some start =>
    obtain ⟨hclosed, hopen⟩ := Orbit.startingAt_inTurn (o := o) (hθ start rfl)
    refine ⟨hclosed, hopen.trans ?_⟩
    simp only [Option.mem_some_iff, forall_eq']

/-- The true anomaly of an orbit that is made from its parameters, and started from any finite
number if that is asked for, is from zero to a full turn, both included, and so it is after any
advances of a position on this orbit.  It reaches a full turn only where what is wrapped is below
zero and falls short of a whole number of turns by no more than half of the gap between a full turn
and the number before it.  So it is always less than a full turn if and only if neither the start
nor any advance falls short. -/
theorem inTurn_iff_not_fallsShort {latus eccentricity speed : Float} {major minor : Point}
    {θ : Option Float} {origin : OrbitOrigin}
    (hnew : Orbit.new latus eccentricity speed major minor = .ok o)
    (hθ : ∀ start ∈ θ, start.isFinite = true)
    (hrule : p.rule = .orbit ((θ.elim o o.startingAt).relativeTo origin))
    (ticks : List (Float × Lookup)) :
    (∃ o', (p.afterTicks ticks).rule = .orbit o' ∧ o'.InClosedTurn) ∧
    (p.InTurn ↔ ∀ start ∈ θ, ¬Double.FallsShort start) ∧
    (∀ tick, ((p.afterTicks ticks).advance tick.1 tick.2).isOk = true →
      (((p.afterTicks ticks).afterTick tick).InTurn ↔ ¬(p.afterTicks ticks).FallsShort tick)) ∧
    ((∀ front, front <+: ticks → (p.afterTicks front).InTurn) ↔
      (∀ start ∈ θ, ¬Double.FallsShort start) ∧
        ∀ before tick after, ticks = before ++ tick :: after →
          ¬(p.afterTicks before).FallsShort tick) := by
  obtain ⟨hclosed, hopen⟩ := start_inTurn hnew hθ hrule
  obtain ⟨o', ho', hrange⟩ := inClosedTurn_afterTicks hrule hclosed ticks
  refine ⟨⟨o', ho', hrange⟩, hopen, fun tick => (inTurn_afterTick ho' hrange tick).2, ?_⟩
  rw [always_inTurn_iff, hopen]

end Position

/-! ### A moon -/

namespace Moon

/-- A circle. -/
def circle : Orbit Float :=
  ⟨1.0, 0.0, 1.0, ⟨1.0, 0.0, 0.0⟩, ⟨0.0, 1.0, 0.0⟩, .focus, 0.0⟩

theorem new_circle :
    Orbit.new (1.0 : Float) 0.0 1.0 ⟨2.0, 0.0, 0.0⟩ ⟨0.0, 4.0, 0.0⟩ = .ok circle := by
  decide +kernel

/-- On the circle, a radian before periapsis. -/
def moon : Position := { id := ⟨1⟩, rule := .orbit ((circle.startingAt (-1.0)).relativeTo .center) }

/-- Two seconds in which nothing else is known to be tracked. -/
def tick : Float × Lookup := (2.0, fun _ => none)

end Moon

open Moon in
/-- The moon starts below a full turn, and after two seconds it is there again, one turn later. -/
theorem Position.inTurn_iff_not_fallsShort_moon :
    moon.InTurn ∧ ¬Double.FallsShort (-1.0) ∧ (moon.afterTicks [tick]).InTurn := by
  have hinTurn : moon.InTurn := ⟨_, rfl, rfl, rfl⟩
  have hfinite : ∀ start ∈ some (-1.0 : Float), start.isFinite = true := by
    rintro _ ⟨⟩
    rfl
  have hrule : moon.rule =
      .orbit (((some (-1.0)).elim circle circle.startingAt).relativeTo .center) := rfl
  obtain ⟨-, hstart, -, hrun⟩ := inTurn_iff_not_fallsShort new_circle hfinite hrule [tick]
  have hshort := hstart.mp hinTurn
  have htick : ¬moon.FallsShort tick := by
    rintro ⟨-, o, ho, hfalls⟩
    cases ho
    have hafter : (0.0 : Float).le ((circle.startingAt (-1.0)).trueAnomaly + 1.0 * 2.0) = true := rfl
    rw [le_iff isFinite_zero rfl, value_zero] at hafter
    exact not_fallsShort_of_nonneg hafter hfalls
  refine ⟨hinTurn, hshort (-1.0) (Option.mem_some_self _),
    hrun.mpr ⟨hshort, ?_⟩ [tick] (List.prefix_refl _)⟩
  rintro (_ | ⟨head, before⟩) later after hsplit
  · obtain ⟨rfl, -⟩ := List.cons.inj hsplit
    exact htick
  · simp at hsplit

open Moon in
/-- A moon that starts a little before periapsis starts a full turn after it. -/
theorem Orbit.reaches_fullTurn :
    Orbit.new (1.0 : Float) 0.0 1.0 ⟨2.0, 0.0, 0.0⟩ ⟨0.0, 4.0, 0.0⟩ = .ok circle ∧
    (-1e-20 : Float).isFinite = true ∧
    (circle.startingAt (-1e-20)).trueAnomaly = Scalar.fullTurn ∧
    ¬(circle.startingAt (-1e-20)).InTurn := by
  refine ⟨new_circle, rfl, ?_⟩
  unfold InTurn
  decide +kernel

end Orrery
