import Orrery.Proofs.Finite
import Orrery.Proofs.Maneuver

/-!
# Odometers

An advance is refused unless the coordinates and the orientation that it leads to are finite, so
these are finite at all times.  Nothing of the kind is asked of the distance moved and of the angle
turned.  Each rule adds to them what it moves and turns, and the sum may be infinite or undefined
though the place is not: the position *overruns* (`Tracked.overruns`).

That is the only way in which a number that is not finite gets into a tracked position
(`Tracker.finite_iff_not_overruns`).  As long as it stays there, what is tracked can still be saved,
but not read back.
-/

namespace Orrery

/-! ### Rules -/

namespace Kinematics

/-- All numbers are finite. -/
def IsFinite (k : Kinematics Float) : Prop := ∀ x ∈ k.numbers, x.isFinite = true

/-- The coordinates and the orientation are finite. -/
structure IsLocated (k : Kinematics Float) : Prop where
  coords : k.coords.isFinite = true
  orientation : k.orientation.isFinite = true

/-- The distance moved and the angle turned are finite. -/
structure IsMetered (k : Kinematics Float) : Prop where
  distance : k.distanceMoved.isFinite = true
  angle : k.angleRotated.isFinite = true

theorem isFinite_iff {k : Kinematics Float} : k.IsFinite ↔ k.IsLocated ∧ k.IsMetered := by
  simp only [IsFinite, numbers, List.forall_mem_cons, List.forall_mem_append, ← Vec3.isFinite_iff]
  constructor
  · rintro ⟨hdistance, hangle, hcoords, horientation⟩
    exact ⟨⟨hcoords, horientation⟩, hdistance, hangle⟩
  · rintro ⟨⟨hcoords, horientation⟩, hdistance, hangle⟩
    exact ⟨hdistance, hangle, hcoords, horientation⟩

variable {k : Kinematics Float}

/-- New odometers show finite numbers. -/
theorem IsFinite.restart (hk : k.IsFinite) :
    { k with distanceMoved := 0.0, angleRotated := 0.0 }.IsFinite := by
  obtain ⟨hlocated, -⟩ := isFinite_iff.mp hk
  have hzero : (0.0 : Float).isFinite = true := by decide +kernel
  exact isFinite_iff.mpr ⟨⟨hlocated.coords, hlocated.orientation⟩, hzero, hzero⟩

theorem IsFinite.jump (hk : k.IsFinite) {coords : Point} (hcoords : coords.isFinite = true) :
    { k with coords := coords }.IsFinite := by
  obtain ⟨hlocated, hmetered⟩ := isFinite_iff.mp hk
  exact isFinite_iff.mpr ⟨⟨hcoords, hlocated.orientation⟩, hmetered.distance, hmetered.angle⟩

end Kinematics

/-- The spin turns in `elapsed` seconds, and the angle turned does not add up to a finite one. -/
def Spin.overruns (s : Spin Float) (k : Kinematics Float) (elapsed : Float) : Bool :=
  let angle := s.clippedAngle k elapsed
  s.isRotating k && !Scalar.eq angle Scalar.zero && !(k.angleRotated + Scalar.abs angle).isFinite

/-- The cruise has not ended, and the distance moved after `elapsed` seconds is not finite, or the
angle turned. -/
def Cruise.overruns (c : Cruise Float) (k : Kinematics Float) (elapsed : Float) : Bool :=
  !c.hasTerminated k &&
    (!(c.clippedStep k elapsed).2.isFinite || c.spin.any fun s => s.overruns k elapsed)

/-- The distance moved and that to the next point do not add up to a finite one. -/
def Orbit.overruns (o : Orbit Float) (k : Kinematics Float) (elapsed : Float) : Bool :=
  let next := (o.advance k elapsed).2.1.coords
  !(k.distanceMoved + k.coords.distance next).isFinite

/-- The pursuit moves toward `aim` in `elapsed` seconds, and the distance moved and the step do not
add up to a finite one. -/
def Pursuit.overruns (p : Pursuit Float) (k : Kinematics Float) (elapsed : Float)
    (aim : Vec3 Float) : Bool :=
  let gap := (aim - k.coords).length
  let step := Scalar.smaller (p.speed * elapsed) (gap - p.distance)
  !Scalar.le gap p.distance && (aim - k.coords).normalize?.isSome && !Scalar.le step Scalar.zero &&
    !(k.distanceMoved + step).isFinite

/-- In `elapsed` seconds the rule adds to the distance moved, or to the angle turned, so that it is
no longer finite. -/
def Rule.overruns (r : Rule Float) (k : Kinematics Float) (elapsed : Float) (targets : Lookup) :
    Bool :=
  match r with
  | rest => false
  | cruise c => c.overruns k elapsed
  | orbit o => o.overruns k elapsed
  | spin s => s.overruns k elapsed
  | pursuit p => (targets p.target).any fun c => p.overruns k elapsed (c + p.offset)

section Metered

variable {k : Kinematics Float} {elapsed : Float}

theorem Spin.isMetered_rotate_iff (s : Spin Float) (hk : k.IsMetered) :
    (s.rotate k elapsed).1.IsMetered ↔ s.overruns k elapsed = false := by
  unfold rotate overruns
  dsimp only
  cases s.isRotating k with
  | false => simpa using hk
  | true =>
    cases Scalar.eq (s.clippedAngle k elapsed) Scalar.zero with
    | true => simpa using hk
    | false => simpa using ⟨fun h => h.angle, fun h => ⟨hk.distance, h⟩⟩

theorem Spin.coords_rotate (s : Spin Float) (k : Kinematics Float) (elapsed : Float) :
    (s.rotate k elapsed).1.coords = k.coords := by
  unfold rotate
  split
  · rfl
  · dsimp only
    split <;> rfl

theorem Spin.distanceMoved_rotate (s : Spin Float) (k : Kinematics Float) (elapsed : Float) :
    (s.rotate k elapsed).1.distanceMoved = k.distanceMoved := by
  unfold rotate
  split
  · rfl
  · dsimp only
    split <;> rfl

/-- Of the kinematic state only the angle turned matters to a spin. -/
theorem Spin.overruns_congr (s : Spin Float) {k k' : Kinematics Float} (elapsed : Float)
    (h : k'.angleRotated = k.angleRotated) : s.overruns k' elapsed = s.overruns k elapsed := by
  simp only [overruns, isRotating, isComplete, clippedAngle, h]

theorem Cruise.isMetered_advance_iff (c : Cruise Float) (hk : k.IsMetered) :
    (c.advance k elapsed).1.IsMetered ↔ c.overruns k elapsed = false := by
  unfold advance overruns
  cases c.hasTerminated k with
  | true => simpa using hk
  | false =>
    rcases c.clippedStep k elapsed with ⟨step, total⟩
    cases c.spin with
    | none => simpa using ⟨fun h => h.distance, fun h => ⟨h, hk.angle⟩⟩
    | some s =>
      simp only [Bool.false_eq_true, ↓reduceIte, Bool.not_false, Option.any_some, Bool.true_and,
        Bool.or_eq_false_iff, Bool.not_eq_false']
      -- the spin comes after the move, and neither looks at the odometer of the other
      generalize hmoved : Kinematics.mk _ k.orientation total k.angleRotated = moved
      have hdistance : moved.distanceMoved = total := by rw [← hmoved]
      have hangle : moved.angleRotated = k.angleRotated := by rw [← hmoved]
      have hturn : total.isFinite = true →
          ((s.rotate moved elapsed).1.IsMetered ↔ s.overruns k elapsed = false) := by
        intro htotal
        rw [← s.overruns_congr elapsed hangle]
        apply s.isMetered_rotate_iff
        exact ⟨by rw [hdistance]; exact htotal, by rw [hangle]; exact hk.angle⟩
      constructor
      · intro h
        have htotal : total.isFinite = true := by
          rw [← hdistance, ← s.distanceMoved_rotate moved elapsed]
          exact h.distance
        exact ⟨htotal, (hturn htotal).mp h⟩
      · rintro ⟨htotal, hs⟩
        exact (hturn htotal).mpr hs

theorem Orbit.isMetered_advance_iff (o : Orbit Float) (hk : k.IsMetered) :
    (o.advance k elapsed).2.1.IsMetered ↔ o.overruns k elapsed = false := by
  rw [overruns, Bool.not_eq_false']
  exact ⟨fun h => h.distance, fun h => ⟨h, hk.angle⟩⟩

theorem Pursuit.isMetered_approach_iff (p : Pursuit Float) (hk : k.IsMetered) (aim : Vec3 Float) :
    (p.approach k elapsed aim).1.IsMetered ↔ p.overruns k elapsed aim = false := by
  unfold approach overruns
  dsimp only
  cases Scalar.le (aim - k.coords).length p.distance with
  | true => simpa using hk
  | false =>
    cases (aim - k.coords).normalize? with
    | none => simpa using hk
    | some direction =>
      cases Scalar.le (Scalar.smaller (p.speed * elapsed)
        ((aim - k.coords).length - p.distance)) Scalar.zero with
      | true => simpa using hk
      | false => simpa using ⟨fun h => h.distance, fun h => ⟨h, hk.angle⟩⟩

/-- The odometers stay finite unless the rule overruns. -/
theorem Rule.isMetered_advance_iff {r : Rule Float} {targets : Lookup} {a : Advance Float}
    (hk : k.IsMetered) (h : r.advance k elapsed targets = .ok a) :
    a.state.IsMetered ↔ r.overruns k elapsed targets = false := by
  cases r with
  | rest =>
    cases h
    exact iff_of_true hk rfl
  | cruise c =>
    cases h
    exact c.isMetered_advance_iff hk
  | orbit o =>
    cases h
    exact o.isMetered_advance_iff hk
  | spin s =>
    cases h
    exact s.isMetered_rotate_iff hk
  | pursuit p =>
    obtain ⟨c, htarget, -, hstate⟩ := advance_pursuit_eq_ok h
    rw [overruns, htarget, hstate]
    exact p.isMetered_approach_iff hk (c + p.offset)

end Metered

/-! ### Positions -/

namespace Tracked

/-- The position advances in a tick, and its rule overruns. -/
def overruns (t : Tracked) (elapsed : Float) (start : Lookup) : Bool :=
  t.status = .active && (t.position.advance elapsed start).isOk &&
    t.position.rule.overruns t.position.state elapsed start

variable {t : Tracked} {elapsed : Float} {start current : Lookup}

theorem isLocated_alone (h : t.position.state.IsLocated) :
    (t.alone elapsed start current).position.state.IsLocated := by
  obtain ⟨-, -, -, hstate⟩ | ⟨p, changed, -, hadvance, -, -, hstate⟩ :=
    t.alone_cases elapsed start current
  · rw [hstate]
    exact h
  · obtain ⟨a, -, hcoords, horientation, rfl⟩ := Position.advance_eq_ok hadvance
    rw [hstate]
    exact ⟨hcoords, horientation⟩

/-- A finite kinematic state stays finite in a tick unless the position overruns. -/
theorem isFinite_alone_iff (h : t.position.state.IsFinite) :
    (t.alone elapsed start current).position.state.IsFinite ↔
      t.overruns elapsed start = false := by
  refine alone_iff h fun a ha hcoords horientation => ?_
  have hmetered := Rule.isMetered_advance_iff (Kinematics.isFinite_iff.mp h).2 ha
  have hlocated : a.state.IsLocated := ⟨hcoords, horientation⟩
  rw [Kinematics.isFinite_iff, hmetered]
  exact and_iff_right hlocated

end Tracked

/-! ### The tracker -/

/-- Only finite positions are tracked. -/
def Maneuver.IsFinite : Maneuver → Prop
  | track p => p.state.IsFinite
  | restore slots => ∀ slot ∈ slots, slot.position.state.IsFinite
  | _ => True

/-- Finite maneuvers keep a property of kinematic states that all finite ones have, if it survives
new odometers, jumps and the tick that is made. -/
theorem Maneuver.IsFinite.respects {m : Maneuver} {t : Tracker} {P : Kinematics Float → Prop}
    (hm : m.IsFinite) (hfinite : ∀ k, k.IsFinite → P k)
    (hreset : ∀ k, P k → P { k with distanceMoved := 0.0, angleRotated := 0.0 })
    (hjump : ∀ k c, P k → c.isFinite = true → P { k with coords := c })
    (htick : ∀ elapsed, m = .tick elapsed → ∀ id slot, t.slots.get? id = some slot →
      P slot.position.state → P (slot.alone elapsed (Tracker.coordinatesIn t.slots)
        (Tracker.coordinatesAfter t.slots elapsed)).position.state) :
    m.Respects t fun _ slot => P slot.position.state where
  track p hp _ := by
    subst hp
    exact hfinite _ hm
  setRule id slot rule p hslot hset := by
    obtain ⟨-, rfl⟩ := Position.setRule_eq_ok hset
    exact hreset _ hslot
  teleport id slot coords p status hslot hp := by
    obtain ⟨hcoords, rfl⟩ := Position.teleport_eq_ok hp
    exact hjump _ _ hslot hcoords
  stop _ _ hslot := hslot
  watches _ _ _ _ hslot := hslot
  tick := htick
  restore slots hslots slot hslot _ := by
    subst hslots
    exact hfinite _ (hm slot hslot)

namespace Tracker

/-- Some position overruns in a tick. -/
def overruns (t : Tracker) (elapsed : Float) : Bool :=
  t.slots.values.any fun slot => slot.overruns elapsed (coordinatesIn t.slots)

theorem overruns_eq_false_iff {t : Tracker} {elapsed : Float} :
    t.overruns elapsed = false ↔ ∀ id slot, t.slots.get? id = some slot →
      slot.overruns elapsed (coordinatesIn t.slots) = false := by
  simp only [overruns, List.any_eq_false, Bool.not_eq_true, Table.forall_mem_values_iff]

/-- All tracked positions are at finite coordinates, with a finite orientation. -/
def IsLocated (t : Tracker) : Prop := t.Every fun _ slot => slot.position.state.IsLocated

/-- All kinematic states are finite. -/
def IsFinite (t : Tracker) : Prop := t.Every fun _ slot => slot.position.state.IsFinite

variable {t : Tracker} {m : Maneuver}

theorem isLocated_commit {t' : Tracker} {report : TickReport} {calls : List Call}
    (hm : m.IsFinite) (ht : t.poisoned = false ∧ t.IsLocated)
    (hcommit : m.commit t = .ok (t', report, calls)) : t'.poisoned = false ∧ t'.IsLocated := by
  refine Every.commit ht.1 ht.2 (hm.respects ?_ ?_ ?_ ?_) hcommit
  · exact fun k hk => (Kinematics.isFinite_iff.mp hk).1
  · exact fun k hk => ⟨hk.coords, hk.orientation⟩
  · exact fun k c hk hc => ⟨hc, hk.orientation⟩
  · exact fun _ _ _ _ _ => Tracked.isLocated_alone

/-- A finite maneuver keeps everything finite unless it is a tick in which a position overruns. -/
theorem isFinite_afterOne_iff (hm : m.IsFinite) (hintact : t.poisoned = false) (ht : t.IsFinite) :
    (t.afterOne m).IsFinite ↔ ∀ elapsed, m = .tick elapsed → t.overruns elapsed = false := by
  constructor
  · rintro h elapsed rfl
    have hcommit : (Maneuver.tick elapsed).commit t = _ := advance_eq_ok hintact elapsed
    rw [afterOne_of_ok hcommit] at h
    rw [overruns_eq_false_iff]
    intro id slot hslot
    have hafter := h id (slot.alone elapsed (coordinatesIn t.slots)
      (coordinatesAfter t.slots elapsed)) (by rw [Tick.get?_run, hslot]; rfl)
    exact (Tracked.isFinite_alone_iff (ht id slot hslot)).mp hafter
  · intro h
    unfold afterOne
    cases hcommit : m.commit t with
    | error e => exact ht
    | ok r =>
      refine (Every.commit hintact ht (hm.respects ?_ ?_ ?_ ?_) hcommit).2
      · exact fun _ hk => hk
      · exact fun _ hk => hk.restart
      · exact fun _ _ hk hcoords => hk.jump hcoords
      · rintro elapsed rfl id slot hslot hfinite
        exact (Tracked.isFinite_alone_iff hfinite).mpr
          (overruns_eq_false_iff.mp (h elapsed rfl) id slot hslot)

variable {ms : List Maneuver}

theorem isLocated_after (hms : ∀ m ∈ ms, m.IsFinite) :
    (({} : Tracker).after ms).poisoned = false ∧ (({} : Tracker).after ms).IsLocated :=
  after_induction (P := fun t => t.poisoned = false ∧ t.IsLocated)
    (fun _ _ _ _ _ hm ht => isLocated_commit hm ht) ⟨rfl, .empty⟩ hms

/-- In a run of finite maneuvers from nothing everything stays finite as long as no position
overruns. -/
theorem isFinite_after_iff (hms : ∀ m ∈ ms, m.IsFinite) :
    (∀ front, front <+: ms → (({} : Tracker).after front).IsFinite) ↔
      ∀ elapsed t t' report calls, Commits {} ms (.tick elapsed) t t' report calls →
        t.overruns elapsed = false := by
  have hone : ∀ m ∈ ms, ∀ t : Tracker, t.IsOrderly → t.IsFinite → ((t.afterOne m).IsFinite ↔
      ∀ t' report calls, m.commit t = .ok (t', report, calls) →
        ¬∃ elapsed, m = .tick elapsed ∧ t.overruns elapsed = true) := by
    intro m hm t horderly hfinite
    rw [isFinite_afterOne_iff (hms m hm) horderly.intact hfinite]
    constructor
    · rintro h t' report calls - ⟨elapsed, rfl, hoverruns⟩
      rw [h elapsed rfl] at hoverruns
      cases hoverruns
    · rintro h elapsed rfl
      rw [Bool.eq_false_iff]
      exact fun hoverruns =>
        h _ _ _ (advance_eq_ok horderly.intact elapsed) ⟨elapsed, rfl, hoverruns⟩
  rw [always_iff .empty hone]
  constructor
  · intro h elapsed t t' report calls hcommits
    rw [Bool.eq_false_iff]
    exact fun hoverruns => h _ t t' report calls hcommits ⟨elapsed, rfl, hoverruns⟩
  · rintro h m t t' report calls hcommits ⟨elapsed, rfl, hoverruns⟩
    rw [h elapsed t t' report calls hcommits] at hoverruns
    cases hoverruns

/-- What is tracked reads back, once it has been saved, if and only if it is finite. -/
theorem IsOrderly.load_save_iff [Numeral.Reading] (ht : t.IsOrderly) {s : Snapshot}
    (hsnapshot : t.snapshot = .ok s.positions)
    (hothers : ∀ x ∈ (⟨[], s.entities, s.commands⟩ : Snapshot).numbers, x.isFinite = true)
    (hreadable : ∀ x ∈ s.numbers, Numeral.IsReadable x) :
    (∃ s', Snapshot.load s.save = .ok s') ↔ t.IsFinite := by
  have hpositions : s.positions = t.slots.values := by
    have hvalues := ht.restore_snapshot.1
    rw [hsnapshot] at hvalues
    exact Except.ok.inj hvalues
  have hmem : ∀ slot, slot ∈ s.positions ↔ ∃ id, t.slots.get? id = some slot := by
    intro slot
    simp [hpositions, Table.values, Table.get?_eq_some_iff]
  have hrules : ∀ slot ∈ s.positions, slot.position.rule.validate = .ok () := by
    intro slot hslot
    obtain ⟨id, hget⟩ := (hmem slot).mp hslot
    exact (ht.filed id slot hget).rule
  rw [Snapshot.load_save_iff hrules hothers hreadable]
  constructor
  · exact fun h id slot hslot => h slot ((hmem slot).mpr ⟨id, hslot⟩)
  · intro h slot hslot
    obtain ⟨id, hget⟩ := (hmem slot).mp hslot
    exact h id slot hget

end Tracker

/-- In a run of finite maneuvers from nothing every position is at finite coordinates, with a finite
orientation, at all times.  All numbers of its kinematic state stay finite if and only if no tick
makes a position overrun.  A snapshot whose other numbers are finite reads back from its own text if
and only if all these numbers are finite at the time; of the reading of numbers it is only asked
that finite ones read back as themselves.  What finite maneuvers do in a world that tracks nothing
at first is such a run, and so it is if its listeners make finite maneuvers meanwhile. -/
theorem Tracker.finite_iff_not_overruns [Numeral.Reading] (ms : List Maneuver)
    (hms : ∀ m ∈ ms, m.IsFinite) :
    (({} : Tracker).after ms).IsLocated ∧
    ((∀ front, front <+: ms → (({} : Tracker).after front).IsFinite) ↔
      ∀ elapsed t t' report calls, Commits {} ms (.tick elapsed) t t' report calls →
        t.overruns elapsed = false) ∧
    (∀ s : Snapshot, (({} : Tracker).after ms).snapshot = .ok s.positions →
      (∀ x ∈ (⟨[], s.entities, s.commands⟩ : Snapshot).numbers, x.isFinite = true) →
      (∀ x ∈ s.numbers, Numeral.IsReadable x) →
      ((∃ s', Snapshot.load s.save = .ok s') ↔ (({} : Tracker).after ms).IsFinite)) ∧
    ∀ (κ ε : Type) (host : Host κ ε) (w : World κ ε), host.Steers Maneuver.IsFinite →
      w.tracker = {} → ({} : Tracker).Leads Maneuver.IsFinite (w.steerAll host ms).tracker := by
  refine ⟨(isLocated_after hms).2, isFinite_after_iff hms, ?_, ?_⟩
  · intro s hsnapshot hothers hreadable
    exact (isOrderly_after isOrderly_empty ms).load_save_iff hsnapshot hothers hreadable
  · intro κ ε host w hhost hw
    have hleads := World.leads_steerAll hhost (fun _ => trivial) hms w
    rw [hw] at hleads
    exact hleads

/-! ### A long voyage -/

namespace Voyage

/-- The traveller. -/
def id : PositionId := ⟨1⟩

/-- Far to one side, and on the way to the other one. -/
def departure : Position where
  id := id
  state := { (Kinematics.initial : Kinematics Float) with coords := ⟨-1e308, 0.0, 0.0⟩ }
  rule := .cruise ⟨⟨1.0, 0.0, 0.0⟩, 1e308, none, none⟩

/-- The way to the middle. -/
def outward : List Maneuver := [.track departure, .tick 1.0]

theorem isFinite_outward : ∀ m ∈ outward, m.IsFinite := by
  have hdeparture : ∀ x ∈ departure.state.numbers, x.isFinite = true := by decide +kernel
  exact List.forall_mem_cons.mpr ⟨hdeparture, by simp [Maneuver.IsFinite]⟩

end Voyage

open Voyage in
/-- Half of the voyage keeps everything finite, and can be saved and read back. -/
theorem Tracker.finite_iff_not_overruns_voyage :
    (({} : Tracker).after outward).IsFinite ∧
      ∃ s', Snapshot.load (⟨(({} : Tracker).after outward).slots.values, [], []⟩ : Snapshot).save =
        .ok s' := by
  obtain ⟨-, hiff, hload, -⟩ := finite_iff_not_overruns outward isFinite_outward
  have hfinite : (({} : Tracker).after outward).IsFinite := by
    refine hiff.mpr ?_ outward (List.prefix_refl _)
    rintro elapsed t t' report calls ⟨⟨front, rest, hsplit, rfl⟩, -⟩
    -- the only tick is the one after the departure
    cases front with
    | nil => cases hsplit
    | cons m front =>
      cases front with
      | cons m' front => simp [outward] at hsplit
      | nil =>
        cases hsplit
        decide +kernel
  have hsaved := (isOrderly_after isOrderly_empty outward).restore_snapshot.1
  generalize hslots : (({} : Tracker).after outward).slots.values = slots at hsaved ⊢
  have hothers : ∀ x ∈ (⟨[], [], []⟩ : Snapshot).numbers, x.isFinite = true := by
    simp [Snapshot.numbers]
  have hreadable : ∀ x ∈ (⟨slots, [], []⟩ : Snapshot).numbers, Numeral.IsReadable x := by
    rw [← hslots]
    decide +kernel
  exact ⟨hfinite, (hload ⟨slots, [], []⟩ hsaved hothers hreadable).mpr hfinite⟩

open Voyage in
/-- The other half leads to finite coordinates as well, and the tick reports no failure.  But the
distance moved is no longer finite, and what is saved now cannot be read back. -/
theorem Tracker.voyage_overruns :
    ∃ t' report calls, (Maneuver.tick 1.0).commit (({} : Tracker).after outward) =
        .ok (t', report, calls) ∧
      report.advanced = 1 ∧ report.failed = [] ∧ t'.IsLocated ∧ ¬t'.IsFinite ∧
      ∃ saved, t'.snapshot = .ok saved ∧
        ∀ s', Snapshot.load (⟨saved, [], []⟩ : Snapshot).save ≠ .ok s' := by
  have horderly := isOrderly_after isOrderly_empty outward
  have hcommit := advance_eq_ok horderly.intact 1.0
  have hlocated :=
    isLocated_commit (m := .tick 1.0) trivial (isLocated_after isFinite_outward) hcommit
  have hbeyond : ((Tick.run (({} : Tracker).after outward).slots 1.0).slots.get? id).any
      (fun slot => !slot.position.state.distanceMoved.isFinite) = true := by decide +kernel
  have hreadable : ∀ x ∈ (⟨(Tick.run (({} : Tracker).after outward).slots 1.0).slots.values, [],
      []⟩ : Snapshot).numbers, Numeral.IsReadable x := by decide +kernel
  have hlater := horderly.advance 1.0
  generalize hslots : (Tick.run (({} : Tracker).after outward).slots 1.0).slots = slots at *
  obtain ⟨slot, hslot, hdistance⟩ := (Option.any_eq_true ..).mp hbeyond
  have hinfinite : ¬IsFinite { ({} : Tracker).after outward with slots := slots } := by
    intro h
    have hmetered := (Kinematics.isFinite_iff.mp (h id slot hslot)).2
    simp [hmetered.distance] at hdistance
  have hsaved := hlater.restore_snapshot.1
  have hothers : ∀ x ∈ (⟨[], [], []⟩ : Snapshot).numbers, x.isFinite = true := by
    simp [Snapshot.numbers]
  refine ⟨_, _, _, hcommit, by decide +kernel, by decide +kernel, hlocated.2, hinfinite, _, hsaved,
    ?_⟩
  intro s' hload
  have hloads := hlater.load_save_iff (s := ⟨slots.values, [], []⟩) hsaved hothers hreadable
  exact hinfinite (hloads.mp ⟨s', hload⟩)

end Orrery
