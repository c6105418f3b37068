import Orrery.Proofs.Maneuver
import Orrery.Proofs.UnitVector

/-!
# Orientation

A position is meant to face along a unit vector.  What it faces along when it is tracked, and while
it pursues something, comes from normalizing a vector that may be of any length.  If the square of
the length is less than a normal number that need not lead to a unit vector (`Vec3.isFaint`).  What
is taken over from elsewhere is not looked at.  Turning does no harm, unless the platform's sine and
cosine of an angle are not those of an angle (`Spin.slips`).

These are the only ways in which something that is not a unit vector gets into a tracked position
(`Tracker.oriented_iff_not_slips`).
-/

namespace Orrery

open Double

/-! ### Rules -/

/-- The square of the length is less than a normal number, and the vector is not normalized well. -/
def Vec3.isFaint (v : Point) : Bool :=
  (v.dot v).lt minNormal && v.normalize?.any fun u => !u.isNormalized

/-- Only what is faint is not normalized well. -/
theorem Vec3.isNormalized_iff_of_normalize? {v u : Point} (h : v.normalize? = some u) :
    u.isNormalized = true ↔ v.isFaint = false := by
  unfold isFaint
  rw [h, Option.any_some, Bool.and_eq_false_iff, Bool.not_eq_false']
  constructor
  · exact .inr
  · rintro (hlarge | hunit)
    · exact isNormalized_of_normalize? h hlarge
    · exact hunit

/-- A vector whose computed square is less than a normal number is very short. -/
theorem Vec3.square_lt_of_dot_lt {v : Point} (hdot : (v.dot v).isFinite = true)
    (hlt : value (v.dot v) < leastNormal) : v.square < 2 * leastNormal := by
  have herror := (abs_le.mp (abs_dot_self_sub_le hdot)).1
  have hpos := leastNormal_pos
  have htiny : 16 * roundoff * (v.square + leastNormal) ≤ 16 / 10 ^ 15 * (v.square + leastNormal) :=
    mul_le_mul_of_nonneg_right (by linarith [roundoff_le]) (by linarith [v.square_nonneg])
  linarith

/-- What is faint is hardly longer than the root of the least normal number. -/
theorem Vec3.square_lt_of_isFaint {v : Point} (h : v.isFaint = true) :
    v.square < 2 * leastNormal := by
  obtain ⟨hsmall, hbad⟩ := (Bool.and_eq_true ..).mp h
  obtain ⟨u, hu, -⟩ := (Option.any_eq_true ..).mp hbad
  have hdot := isFinite_of_sqrt (isFinite_length_of_normalize? hu)
  refine square_lt_of_dot_lt hdot ?_
  rw [← value_minNormal]
  exact (lt_iff hdot rfl).mp hsmall

/-- The platform's sine and cosine of the angle are not those of an angle: the point that they are
the coordinates of is not on the unit circle. -/
def Double.isSkewed (angle : Float) : Bool :=
  angle.isFinite && !(⟨cosine angle, sine angle, 0.0⟩ : Point).isNormalized

/-- The spin turns in `elapsed` seconds, by an angle whose sine and cosine are off, and does not
lead to a unit vector. -/
def Spin.slips (s : Spin Float) (k : Kinematics Float) (elapsed : Float) : Bool :=
  let angle := s.clippedAngle k elapsed
  s.isRotating k && !Scalar.eq angle Scalar.zero && isSkewed angle &&
    (k.orientation.rotateAbout s.axis angle).normalize?.any fun u => !u.isNormalized

/-- The cruise has not ended, and its spin slips. -/
def Cruise.slips (c : Cruise Float) (k : Kinematics Float) (elapsed : Float) : Bool :=
  !c.hasTerminated k && c.spin.any fun s => s.slips k elapsed

/-- The pursuit moves toward `aim` in `elapsed` seconds and faces it, and the way there is faint. -/
def Pursuit.slips (p : Pursuit Float) (k : Kinematics Float) (elapsed : Float)
    (aim : Vec3 Float) : Bool :=
  let gap := (aim - k.coords).length
  let step := Scalar.smaller (p.speed * elapsed) (gap - p.distance)
  !Scalar.le gap p.distance && !Scalar.le step Scalar.zero && p.pointToTarget &&
    (aim - k.coords).isFaint

/-- In `elapsed` seconds the rule leads to an orientation that is not a unit vector. -/
def Rule.slips (r : Rule Float) (k : Kinematics Float) (elapsed : Float) (targets : Lookup) :
    Bool :=
  match r with
  | rest | orbit _ => false
  | cruise c => c.slips k elapsed
  | spin s => s.slips k elapsed
  | pursuit p => (targets p.target).any fun c => p.slips k elapsed (c + p.offset)

section Rules

variable {k : Kinematics Float} {elapsed : Float}

/-- A turn by an angle that is not finite leads nowhere. -/
theorem Vec3.isFinite_of_rotateAbout {v axis u : Point} {angle : Float}
    (h : (v.rotateAbout axis angle).normalize? = some u) : angle.isFinite = true := by
  have hturned := isFinite_of_dot_self (isFinite_of_sqrt (isFinite_length_of_normalize? h))
  have hx : (v.x * cosine angle + (axis.y * v.z - axis.z * v.y) * sine angle +
      axis.x * (axis.dot v * (1.0 - cosine angle))).isFinite = true :=
    (isFinite_iff_coords.mp hturned).1
  have hcosine := (isFinite_of_mul (isFinite_of_add (isFinite_of_add hx).1).1).2
  by_contra hangle
  rw [cosine, if_neg hangle] at hcosine
  have hnan : nan.isFinite = false := rfl
  exact Bool.false_ne_true (hnan.symm.trans hcosine)

theorem Spin.isNormalized_axis {s : Spin Float} (h : s.validate = .ok ()) :
    s.axis.isNormalized = true := (validate_eq_ok_iff.mp h).2.1

/-- A valid spin keeps a unit vector unless it slips. -/
theorem Spin.isNormalized_rotate_iff {s : Spin Float} (hs : s.validate = .ok ())
    (hk : k.orientation.isNormalized = true) :
    (s.rotate k elapsed).1.orientation.isNormalized = true ↔ s.slips k elapsed = false := by
  unfold rotate slips
  dsimp only
  cases s.isRotating k with
  | false => simpa using hk
  | true =>
    generalize s.clippedAngle k elapsed = angle
    cases Scalar.eq angle Scalar.zero with
    | true => simpa using hk
    | false =>
      simp only [Bool.not_true, Bool.false_eq_true, ↓reduceIte, Bool.not_false, Bool.true_and]
      cases hturned : (k.orientation.rotateAbout s.axis angle).normalize? with
      | none => simpa using hk
      | some u =>
        have hsound : isSkewed angle = false → u.isNormalized = true := by
          rw [isSkewed, Vec3.isFinite_of_rotateAbout hturned, Bool.true_and, Bool.not_eq_false']
          exact fun hcircle =>
            Vec3.isNormalized_rotateAbout hk (isNormalized_axis hs) hcircle hturned
        rw [Option.getD_some, Option.any_some, Bool.and_eq_false_iff, Bool.not_eq_false']
        exact ⟨.inr, fun h => h.elim hsound id⟩

/-- To a spin matter the angle turned and the orientation. -/
theorem Spin.slips_congr (s : Spin Float) {k k' : Kinematics Float} (elapsed : Float)
    (hangle : k'.angleRotated = k.angleRotated) (horientation : k'.orientation = k.orientation) :
    s.slips k' elapsed = s.slips k elapsed := by
  simp only [slips, isRotating, isComplete, clippedAngle, hangle, horientation]

/-- A valid cruise keeps a unit vector unless its spin slips. -/
theorem Cruise.isNormalized_advance_iff {c : Cruise Float} (hc : c.validate = .ok ())
    (hk : k.orientation.isNormalized = true) :
    (c.advance k elapsed).1.orientation.isNormalized = true ↔ c.slips k elapsed = false := by
  unfold advance slips
  cases c.hasTerminated k with
  | true => simpa using hk
  | false =>
    rcases c.clippedStep k elapsed with ⟨step, total⟩
    cases hs : c.spin with
    | none => simpa using hk
    | some s =>
      simp only [Bool.false_eq_true, ↓reduceIte, Bool.not_false, Option.any_some, Bool.true_and]
      -- the spin comes after the move, which leaves alone all that matters to it
      generalize hmoved : Kinematics.mk _ k.orientation total k.angleRotated = moved
      have hangle : moved.angleRotated = k.angleRotated := by rw [← hmoved]
      have horientation : moved.orientation = k.orientation := by rw [← hmoved]
      rw [← s.slips_congr elapsed hangle horientation]
      exact Spin.isNormalized_rotate_iff ((validate_eq_ok_iff.mp hc).2.2.2 s hs) (horientation ▸ hk)

/-- A pursuit keeps a unit vector unless it slips. -/
theorem Pursuit.isNormalized_approach_iff (p : Pursuit Float)
    (hk : k.orientation.isNormalized = true) (aim : Vec3 Float) :
    (p.approach k elapsed aim).1.orientation.isNormalized = true ↔
      p.slips k elapsed aim = false := by
  unfold approach slips
  dsimp only
  cases Scalar.le (aim - k.coords).length p.distance with
  | true => simpa using hk
  | false =>
    cases hnormal : (aim - k.coords).normalize? with
    | none => simpa [Vec3.isFaint, hnormal] using hk
    | some direction =>
      cases Scalar.le (Scalar.smaller (p.speed * elapsed)
        ((aim - k.coords).length - p.distance)) Scalar.zero with
      | true => simpa using hk
      | false =>
        cases p.pointToTarget with
        | false => simpa using hk
        | true => simpa using Vec3.isNormalized_iff_of_normalize? hnormal

/-- A valid rule keeps a unit vector unless it slips. -/
theorem Rule.isNormalized_advance_iff {r : Rule Float} {targets : Lookup} {a : Advance Float}
    (hr : r.validate = .ok ()) (hk : k.orientation.isNormalized = true)
    (h : r.advance k elapsed targets = .ok a) :
    a.state.orientation.isNormalized = true ↔ r.slips k elapsed targets = false := by
  cases r with
  | rest | orbit =>
    cases h
    exact iff_of_true hk rfl
  | cruise c =>
    cases h
    exact Cruise.isNormalized_advance_iff hr hk
  | spin s =>
    cases h
    exact Spin.isNormalized_rotate_iff hr hk
  | pursuit p =>
    obtain ⟨c, htarget, -, hstate⟩ := advance_pursuit_eq_ok h
    rw [slips, htarget, hstate]
    exact p.isNormalized_approach_iff hk (c + p.offset)

end Rules

/-! ### Positions -/

namespace Position

/-- Facing along a unit vector. -/
def IsOriented (p : Position) : Prop := p.state.orientation.isNormalized = true

/-- Made by the functions that positions are made by. -/
inductive IsBuilt : Position → Prop
  | new (id : PositionId) : IsBuilt { id := id }
  | inFrame {p : Position} (parent : PositionId) (h : IsBuilt p) :
    IsBuilt { p with parent := some parent }
  | placedAt {p : Position} (coords : Point) (h : IsBuilt p) : IsBuilt (p.placedAt coords)
  | facing {p p' : Position} (orientation : Point) (h : IsBuilt p)
    (hfacing : p.facing orientation = .ok p') : IsBuilt p'
  | setRule {p p' : Position} (rule : Rule Float) (h : IsBuilt p)
    (hset : p.setRule rule = .ok p') : IsBuilt p'

variable {p : Position}

/-- A built position faces along the third axis, or along what normalizing some vector led to. -/
theorem IsBuilt.orientation (h : p.IsBuilt) :
    p.state.orientation = Vec3.zAxis ∨ ∃ v : Point, v.normalize? = some p.state.orientation := by
  induction h with
  | new => exact .inl rfl
  | inFrame _ _ ih | placedAt _ _ ih => exact ih
  | facing v _ hfacing =>
    obtain ⟨u, hu, rfl⟩ := facing_eq_ok hfacing
    exact .inr ⟨v, hu⟩
  | setRule rule _ hset ih =>
    obtain ⟨-, rfl⟩ := setRule_eq_ok hset
    exact ih

/-- The position faces along what normalizing a faint vector led to. -/
def IsBlurred (p : Position) : Prop :=
  ∃ v : Point, v.isFaint = true ∧ v.normalize? = some p.state.orientation

theorem IsBuilt.isOriented_iff (h : p.IsBuilt) : p.IsOriented ↔ ¬p.IsBlurred := by
  have hblurred : p.IsBlurred → ¬p.IsOriented := by
    rintro ⟨v, hfaint, hv⟩ hunit
    rw [(Vec3.isNormalized_iff_of_normalize? hv).mp hunit] at hfaint
    cases hfaint
  refine ⟨fun hunit hp => hblurred hp hunit, fun hsharp => ?_⟩
  rcases h.orientation with haxis | ⟨v, hv⟩
  · rw [IsOriented, haxis]
    decide +kernel
  · refine (Vec3.isNormalized_iff_of_normalize? hv).mpr ?_
    rw [Bool.eq_false_iff]
    exact fun hfaint => hsharp ⟨v, hfaint, hv⟩

end Position

namespace Tracked

/-- The position advances in a tick, and its rule slips. -/
def slips (t : Tracked) (elapsed : Float) (start : Lookup) : Bool :=
  t.status = .active && (t.position.advance elapsed start).isOk &&
    t.position.rule.slips t.position.state elapsed start

variable {t : Tracked} {elapsed : Float} {start current : Lookup}

/-- A position with a valid rule keeps facing along a unit vector in a tick unless it slips. -/
theorem isOriented_alone_iff (hvalid : t.position.rule.validate = .ok ())
    (h : t.position.IsOriented) :
    (t.alone elapsed start current).position.IsOriented ↔ t.slips elapsed start = false := by
  exact alone_iff (P := fun k => k.orientation.isNormalized = true) h
    fun _ ha _ _ => Rule.isNormalized_advance_iff hvalid h ha

end Tracked

/-! ### The tracker -/

/-- Some position slips in a tick. -/
def Tracker.slips (t : Tracker) (elapsed : Float) : Bool :=
  t.slots.values.any fun slot => slot.slips elapsed (coordinatesIn t.slots)

theorem Tracker.slips_eq_false_iff {t : Tracker} {elapsed : Float} :
    t.slips elapsed = false ↔ ∀ id slot, t.slots.get? id = some slot →
      slot.slips elapsed (coordinatesIn t.slots) = false := by
  simp only [slips, List.any_eq_false, Bool.not_eq_true, Table.forall_mem_values_iff]

namespace Maneuver

/-- Only built positions are tracked. -/
def IsBuilt : Maneuver → Prop
  | track p => p.IsBuilt
  | _ => True

/-- Something that is not a unit vector gets into a tracked position: the maneuver tracks a position
that faces along a faint vector, takes over a position as it is, or is a tick in which a position
slips. -/
def Slips (m : Maneuver) (t : Tracker) : Prop :=
  match m with
  | track p => p.IsBlurred
  | tick elapsed => t.slips elapsed = true
  | restore slots => ∃ slot ∈ slots, slot.position.state.orientation.isNormalized = false
  | _ => False

end Maneuver

namespace Tracker

/-- All tracked positions face along unit vectors. -/
def IsOriented (t : Tracker) : Prop := t.Every fun _ slot => slot.position.IsOriented

instance (t : Tracker) : Decidable t.IsOriented :=
  decidable_of_iff (∀ slot ∈ t.slots.values, slot.position.state.orientation.isNormalized = true)
    Table.forall_mem_values_iff

variable {t t' : Tracker} {m : Maneuver} {report : TickReport} {calls : List Call}

/-- What slips leaves behind something that is not a unit vector. -/
theorem not_isOriented_of_slips (hm : m.IsBuilt) (horderly : t.IsOrderly) (ht : t.IsOriented)
    (hcommit : m.commit t = .ok (t', report, calls)) (hslips : m.Slips t) : ¬t'.IsOriented := by
  intro h
  cases m with
  | track p =>
    obtain ⟨-, -, rfl⟩ := track_eq_ok (Maneuver.quietly_eq_ok hcommit).1
    have hfound : (t.slots.insert p.id { position := p }).get? p.id = some { position := p } := by
      rw [Table.get?_insert, if_pos rfl]
    have hbuilt : p.IsBuilt := hm
    have hunit : p.IsOriented := h p.id { position := p } hfound
    exact hbuilt.isOriented_iff.mp hunit hslips
  | tick elapsed =>
    have hadvance := advance_eq_ok horderly.intact elapsed
    rw [show t.advance elapsed = _ from hcommit] at hadvance
    cases hadvance
    have hsteady : t.slips elapsed = false := by
      rw [slips_eq_false_iff]
      intro id slot hslot
      have hafter := h id (slot.alone elapsed (coordinatesIn t.slots)
        (coordinatesAfter t.slots elapsed)) (by rw [Tick.get?_run, hslot]; rfl)
      have hvalid := (horderly.filed id slot hslot).rule
      exact (Tracked.isOriented_alone_iff hvalid (ht id slot hslot)).mp hafter
    exact Bool.false_ne_true (hsteady.symm.trans hslips)
  | restore slots =>
    obtain ⟨slot, hmem, hslips⟩ := hslips
    obtain ⟨-, -, -, hentries⟩ := restore_eq_ok_iff.mp (Maneuver.quietly_eq_ok hcommit).1
    have hfound : t'.slots.get? slot.position.id = some slot := by
      rw [Table.get?_eq_some_iff, hentries]
      exact List.mem_map_of_mem hmem
    have hunit : slot.position.state.orientation.isNormalized = true := h _ slot hfound
    rw [hunit] at hslips
    cases hslips
  | _ => exact hslips

/-- Whatever does not slip leaves unit vectors behind. -/
theorem isOriented_of_not_slips (hm : m.IsBuilt) (horderly : t.IsOrderly) (ht : t.IsOriented)
    (hcommit : m.commit t = .ok (t', report, calls)) (hslips : ¬m.Slips t) : t'.IsOriented := by
  have hrespects : m.Respects t fun _ slot => slot.position.IsOriented :=
    { track := fun p hp _ => by
        subst hp
        have hbuilt : p.IsBuilt := hm
        exact hbuilt.isOriented_iff.mpr hslips
      setRule := fun _ _ _ _ hslot hset => by
        obtain ⟨-, rfl⟩ := Position.setRule_eq_ok hset
        exact hslot
      teleport := fun _ _ _ _ _ hslot hjump => by
        obtain ⟨-, rfl⟩ := Position.teleport_eq_ok hjump
        exact hslot
      stop := fun _ _ hslot => hslot
      watches := fun _ _ _ _ hslot => hslot
      tick := fun elapsed hp id slot hslot hunit => by
        subst hp
        refine (Tracked.isOriented_alone_iff (horderly.filed id slot hslot).rule hunit).mpr ?_
        exact slips_eq_false_iff.mp (Bool.eq_false_iff.mpr hslips) id slot hslot
      restore := fun slots hp slot hmem _ => by
        subst hp
        rw [Position.IsOriented, ← Bool.not_eq_false]
        exact fun h => hslips ⟨slot, hmem, h⟩ }
  exact (Every.commit horderly.intact ht hrespects hcommit).2

/-- A maneuver leaves unit vectors behind unless it is committed and slips. -/
theorem isOriented_afterOne_iff (hm : m.IsBuilt) (horderly : t.IsOrderly) (ht : t.IsOriented) :
    (t.afterOne m).IsOriented ↔
      ∀ t' report calls, m.commit t = .ok (t', report, calls) → ¬m.Slips t := by
  cases hcommit : m.commit t with
  | error e =>
    rw [afterOne, hcommit]
    exact iff_of_true ht fun _ _ _ hok => by cases hok
  | ok r =>
    obtain ⟨t', report, calls⟩ := r
    rw [afterOne_of_ok hcommit]
    constructor
    · intro h _ _ _ _ hslips
      exact not_isOriented_of_slips hm horderly ht hcommit hslips h
    · intro h
      exact isOriented_of_not_slips hm horderly ht hcommit (h t' report calls rfl)

end Tracker

/-- In a run from nothing that tracks built positions only, every position faces along a unit vector
at all times if and only if nothing slips: no position is tracked that faces along a faint vector,
none is taken over with an orientation that is not a unit vector, and in no tick a position that
pursues another one faces a faint way, or turns by an angle whose sine and cosine are off.  Only
vectors are faint that are hardly longer than the root of the least normal number.  What such
maneuvers do in a world that tracks nothing at first is such a run, and so it is if its listeners
make such maneuvers meanwhile. -/
theorem Tracker.oriented_iff_not_slips (ms : List Maneuver) (hms : ∀ m ∈ ms, m.IsBuilt) :
    ((∀ front, front <+: ms → (({} : Tracker).after front).IsOriented) ↔
      ∀ m t t' report calls, Commits {} ms m t t' report calls → ¬m.Slips t) ∧
    (∀ v : Point, v.isFaint = true → v.square < 2 * leastNormal) ∧
    ∀ (κ ε : Type) (host : Host κ ε) (w : World κ ε), host.Steers Maneuver.IsBuilt →
      w.tracker = {} → ({} : Tracker).Leads Maneuver.IsBuilt (w.steerAll host ms).tracker := by
  refine ⟨always_iff .empty fun m hm t => isOriented_afterOne_iff (hms m hm),
    fun _ => Vec3.square_lt_of_isFaint, ?_⟩
  intro κ ε host w hhost hw
  have hleads := World.leads_steerAll hhost (fun _ => trivial) hms w
  rw [hw] at hleads
  exact hleads

/-! ### A turret -/

namespace Turret

/-- What is aimed at. -/
def quarry : Position := ({ id := ⟨1⟩ } : Position).placedAt ⟨0.0, 3.0, 4.0⟩

/-- The way that the turret faces at first. -/
def direction : Point := ⟨0.0, 0.0, -2.0⟩

/-- Turned backward. -/
def mount : Position where
  id := ⟨2⟩
  state := { (Kinematics.initial : Kinematics Float) with
    orientation := direction * (1.0 / direction.length) }

/-- The turret follows the quarry and faces it, and then turns for a time that is no time. -/
def course : List Maneuver :=
  [.track quarry, .track mount, .setRule ⟨2⟩ (.pursuit ⟨⟨1⟩, Vec3.origin, 1.0, 1.0, true⟩),
    .tick 1.0, .setRule ⟨2⟩ (.spin ⟨Vec3.zAxis, 1.0, none⟩), .tick Double.nan]

theorem isBuilt_quarry : quarry.IsBuilt := .placedAt _ (.new _)

theorem facing_direction : ({ id := ⟨2⟩ } : Position).facing direction = .ok mount := by
  have hnormal : direction.normalize? = some (direction * (1.0 / direction.length)) :=
    Vec3.normalize?_eq_some_iff.mpr ⟨by decide +kernel, by decide +kernel, rfl⟩
  rw [Position.facing, hnormal]
  rfl

theorem isBuilt_mount : mount.IsBuilt := .facing direction (.new _) facing_direction

theorem isBuilt_course : ∀ m ∈ course, m.IsBuilt := by
  simp [course, Maneuver.IsBuilt, isBuilt_quarry, isBuilt_mount]

end Turret

open Turret in
/-- The turret faces along a unit vector in the end, as it does all the time. -/
theorem Tracker.oriented_iff_not_slips_turret :
    (({} : Tracker).after course).IsOriented := by
  refine (oriented_iff_not_slips course isBuilt_course).1.mpr ?_ course (List.prefix_refl _)
  intro m t t' report calls h
  rcases h.of_cons with ⟨rfl, -⟩ | h
  · exact isBuilt_quarry.isOriented_iff.mp (by unfold Position.IsOriented; decide +kernel)
  rcases h.of_cons with ⟨rfl, -⟩ | h
  · exact isBuilt_mount.isOriented_iff.mp (by unfold Position.IsOriented; decide +kernel)
  rcases h.of_cons with ⟨rfl, -⟩ | h
  · exact id
  rcases h.of_cons with ⟨rfl, ht⟩ | h
  · rw [Maneuver.Slips, ht]
    decide +kernel
  rcases h.of_cons with ⟨rfl, -⟩ | h
  · exact id
  rcases h.of_cons with ⟨rfl, ht⟩ | h
  · rw [Maneuver.Slips, ht]
    decide +kernel
  exact h.of_nil.elim

/-! ### Losing orientation -/

namespace Blur

/-- A vector so short that the square of its length is rounded to the least double. -/
def speck : Point := ⟨2.6675836e-162, 0.0, 0.0⟩

/-- Faces along the direction of `speck`. -/
def aimed : Position where
  id := ⟨1⟩
  state := { (Kinematics.initial : Kinematics Float) with
    orientation := speck * (1.0 / speck.length) }

theorem facing_speck : ({ id := ⟨1⟩ } : Position).facing speck = .ok aimed := by
  have hnormal : speck.normalize? = some (speck * (1.0 / speck.length)) :=
    Vec3.normalize?_eq_some_iff.mpr ⟨by decide +kernel, by decide +kernel, rfl⟩
  rw [Position.facing, hnormal]
  rfl

/-- A position at the origin follows one that is next to it. -/
def chase : List Maneuver :=
  [.track (({ id := ⟨1⟩ } : Position).placedAt speck), .track { id := ⟨2⟩ },
    .setRule ⟨2⟩ (.pursuit ⟨⟨1⟩, Vec3.origin, 0.0, 1.0, true⟩), .tick 1.0]

/-- Faces along a vector of length two. -/
def stretched : Position where
  id := ⟨1⟩
  state := { (Kinematics.initial : Kinematics Float) with orientation := ⟨2.0, 0.0, 0.0⟩ }

end Blur

open Blur in
/-- A position that is told to face along a vector that is not zero, one that follows another
position that is not at the same place, and one that is taken over from elsewhere: none of them
faces along a unit vector. -/
theorem Tracker.disoriented :
    (∃ p, ({ id := ⟨1⟩ } : Position).facing speck = .ok p ∧
      ¬(({} : Tracker).after [.track p]).IsOriented) ∧
    ¬(({} : Tracker).after chase).IsOriented ∧
    (∃ t, ({} : Tracker).restore [{ position := stretched }] = .ok t ∧ ¬t.IsOriented) := by
  refine ⟨⟨aimed, facing_speck, by decide +kernel⟩, by decide +kernel, ?_⟩
  exact ⟨({} : Tracker).after [.restore [{ position := stretched }]], rfl, by decide +kernel⟩

end Orrery
