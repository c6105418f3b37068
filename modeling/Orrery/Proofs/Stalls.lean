import Orrery.Proofs.Absorption
import Orrery.Proofs.Notices
import Orrery.Proofs.Odometers

/-!
# Stalls

An advance tells whether the coordinates or the orientation have changed.  Only an orbit compares
them to find out.  A spin tells whether there was an angle to turn by, a cruise whether there was a
step or an angle, and a pursuit whether there was a step.  If there was none then nothing changes.
But a step may be lost in rounding, and a turn may lead back to the orientation that it started
from.  If all that a rule does comes to nothing the rule *stalls* (`Rule.stalls`): a change is
reported, counted and told though there is none.  That is the only way in which a report is wrong
(`Rule.accounts_advance`).

A valid rule stalls only if it has hardly anything to do (`Rule.isFutile_of_stalls`).  In a tick the
positions that are counted as moved are those that have changed and those that stall, and the
listeners of just these are told of a movement (`World.moved_iff_not_stalls`).
-/

namespace Orrery

variable {κ ε : Type}

/-! ### Rules -/

/-- The coordinates and the orientation are equal to those of `k` as numbers. -/
def Kinematics.isPosedAs (k' k : Kinematics Float) : Bool :=
  k'.coords.sameAs k.coords && k'.orientation.sameAs k.orientation

theorem Kinematics.IsLocated.isPosedAs_self {k : Kinematics Float} (h : k.IsLocated) :
    k.isPosedAs k = true := by
  rw [isPosedAs, Vec3.sameAs_self h.coords, Vec3.sameAs_self h.orientation, Bool.and_self]

/-- The spin has an angle to turn by in `elapsed` seconds. -/
def Spin.turns (s : Spin Float) (k : Kinematics Float) (elapsed : Float) : Bool :=
  s.isRotating k && !Scalar.eq (s.clippedAngle k elapsed) Scalar.zero

/-- The spin turns, and the orientation comes out as it was. -/
def Spin.stalls (s : Spin Float) (k : Kinematics Float) (elapsed : Float) : Bool :=
  let turned := k.orientation.rotateAbout s.axis (s.clippedAngle k elapsed)
  s.turns k elapsed && (turned.normalize?.getD k.orientation).sameAs k.orientation

/-- The cruise makes a step, or its spin turns, and neither has an effect. -/
def Cruise.stalls (c : Cruise Float) (k : Kinematics Float) (elapsed : Float) : Bool :=
  let step := (c.clippedStep k elapsed).1
  let moves := Scalar.lt Scalar.zero step
  !c.hasTerminated k && (moves || c.spin.any fun s => s.turns k elapsed) &&
    (!moves || (k.coords + c.direction * step).sameAs k.coords) &&
    c.spin.all fun s => !s.turns k elapsed || s.stalls k elapsed

/-- The pursuit makes a step toward `aim` that has no effect, and does not turn either. -/
def Pursuit.stalls (p : Pursuit Float) (k : Kinematics Float) (elapsed : Float) (aim : Vec3 Float) :
    Bool :=
  let way := aim - k.coords
  let step := Scalar.smaller (p.speed * elapsed) (way.length - p.distance)
  !Scalar.le way.length p.distance && !Scalar.le step Scalar.zero &&
    way.normalize?.any fun direction =>
      (k.coords + direction * step).sameAs k.coords &&
        (!p.pointToTarget || direction.sameAs k.orientation)

/-- In `elapsed` seconds the rule reports a change though all that it does comes to nothing. -/
def Rule.stalls (r : Rule Float) (k : Kinematics Float) (elapsed : Float) (targets : Lookup) :
    Bool :=
  match r with
  | rest | orbit _ => false
  | cruise c => c.stalls k elapsed
  | spin s => s.stalls k elapsed
  | pursuit p => (targets p.target).any fun c => p.stalls k elapsed (c + p.offset)

/-- A change is reported if and only if there is one or the rule stalls, and if it stalls there is
none. -/
structure Rule.Accounts (reported same stalls : Bool) : Prop where
  reported : reported = (!same || stalls)
  same : stalls = true → same = true

namespace Rule.Accounts

/-- Nothing changes just if no change is reported or the rule stalls. -/
theorem same_eq {reported same stalls : Bool} (h : Accounts reported same stalls) :
    same = (!reported || stalls) := by
  obtain ⟨rfl, hsame⟩ := h
  revert hsame
  cases same <;> cases stalls <;> decide

/-- No change is left out, and one that is reported is real unless the rule stalls. -/
theorem truth {reported same stalls : Bool} (h : Accounts reported same stalls) :
    (reported = false → same = true) ∧ (reported = true → (same = false ↔ stalls = false)) := by
  obtain ⟨rfl, hsame⟩ := h
  revert hsame
  cases same <;> cases stalls <;> decide

/-- A report of a change is wrong if and only if there is none. -/
theorem of_reported (same : Bool) : Accounts true same same := by
  cases same <;> exact ⟨rfl, id⟩

theorem of_still {same : Bool} (h : same = true) : Accounts false same false :=
  ⟨by rw [h]; rfl, nofun⟩

/-- Two effects together: nothing changes if each of them is absent or comes to nothing. -/
theorem both (first second b b' : Bool) :
    Accounts (first || second) ((!first || b) && (!second || b'))
      ((first || second) && (!first || b) && (!second || b')) := by
  constructor <;> revert first second b b' <;> decide

end Rule.Accounts

section Rules

variable {k : Kinematics Float} {elapsed : Float}

/-- To a spin matter the angle turned and the orientation. -/
theorem Spin.turns_congr (s : Spin Float) {k k' : Kinematics Float} (elapsed : Float)
    (hangle : k'.angleRotated = k.angleRotated) : s.turns k' elapsed = s.turns k elapsed := by
  simp only [turns, isRotating, isComplete, clippedAngle, hangle]

theorem Spin.stalls_congr (s : Spin Float) {k k' : Kinematics Float} (elapsed : Float)
    (hangle : k'.angleRotated = k.angleRotated) (horientation : k'.orientation = k.orientation) :
    s.stalls k' elapsed = s.stalls k elapsed := by
  simp only [stalls, s.turns_congr elapsed hangle, clippedAngle, hangle, horientation]

/-- A spin reports whether it turns. -/
theorem Spin.accounts_rotate (s : Spin Float) (elapsed : Float)
    (hk : k.orientation.isFinite = true) :
    (s.rotate k elapsed).2 = s.turns k elapsed ∧
      Rule.Accounts (s.rotate k elapsed).2
        ((s.rotate k elapsed).1.orientation.sameAs k.orientation) (s.stalls k elapsed) := by
  have hself := Vec3.sameAs_self hk
  unfold rotate stalls turns
  dsimp only
  cases s.isRotating k with
  | false => exact ⟨rfl, .of_still hself⟩
  | true =>
    cases Scalar.eq (s.clippedAngle k elapsed) Scalar.zero with
    | true => exact ⟨rfl, .of_still hself⟩
    | false => exact ⟨rfl, .of_reported _⟩

theorem Spin.accounts_advance (s : Spin Float) (hk : k.IsLocated) :
    Rule.Accounts (s.rotate k elapsed).2 ((s.rotate k elapsed).1.isPosedAs k)
      (s.stalls k elapsed) := by
  rw [Kinematics.isPosedAs, s.coords_rotate, Vec3.sameAs_self hk.coords, Bool.true_and]
  exact (s.accounts_rotate elapsed hk.orientation).2

theorem Cruise.accounts_advance (c : Cruise Float) (hk : k.IsLocated) :
    Rule.Accounts (c.advance k elapsed).2 ((c.advance k elapsed).1.isPosedAs k)
      (c.stalls k elapsed) := by
  have hself := hk.isPosedAs_self
  have hcoords := Vec3.sameAs_self hk.coords
  have horientation := Vec3.sameAs_self hk.orientation
  unfold advance stalls
  cases c.hasTerminated k with
  | true => exact .of_still hself
  | false =>
    rcases c.clippedStep k elapsed with ⟨step, total⟩
    simp only [Bool.false_eq_true, ↓reduceIte, Bool.not_false, Bool.true_and]
    generalize Scalar.lt Scalar.zero step = moves
    -- whether the step leads nowhere is asked only if there is one
    have hstep : (if moves then k.coords + c.direction * step else k.coords).sameAs k.coords =
        (!moves || (k.coords + c.direction * step).sameAs k.coords) := by
      cases moves <;> simp [hcoords]
    cases c.spin with
    | none =>
      rw [Kinematics.isPosedAs, hstep, horientation]
      simpa using Rule.Accounts.both moves false _ true
    | some s =>
      -- the spin comes after the move, which leaves alone all that matters to it
      generalize hmoved : Kinematics.mk _ k.orientation total k.angleRotated = moved
      have hangle : moved.angleRotated = k.angleRotated := by rw [← hmoved]
      have hfacing : moved.orientation = k.orientation := by rw [← hmoved]
      have hplace : moved.coords =
          if moves then k.coords + c.direction * step else k.coords := by rw [← hmoved]
      obtain ⟨hturns, haccounts⟩ :=
        s.accounts_rotate (k := moved) elapsed (hfacing ▸ hk.orientation)
      have hturned := haccounts.same_eq
      rw [hturns, s.turns_congr elapsed hangle, s.stalls_congr elapsed hangle hfacing,
        hfacing] at hturned
      dsimp only
      rw [Kinematics.isPosedAs, s.coords_rotate, hplace, hstep, hturned, hturns,
        s.turns_congr elapsed hangle]
      exact .both _ _ _ _

/-- An orbit compares the coordinates. -/
theorem Orbit.accounts_advance (o : Orbit Float) (hk : k.IsLocated) :
    Rule.Accounts (o.advance k elapsed).2.2 ((o.advance k elapsed).2.1.isPosedAs k) false := by
  refine ⟨?_, nofun⟩
  rw [Bool.or_false, Kinematics.isPosedAs]
  show (!(o.advance k elapsed).2.1.coords.sameAs k.coords) =
    !((o.advance k elapsed).2.1.coords.sameAs k.coords && k.orientation.sameAs k.orientation)
  rw [Vec3.sameAs_self hk.orientation, Bool.and_true]

theorem Pursuit.accounts_approach (p : Pursuit Float) (hk : k.IsLocated) (aim : Vec3 Float) :
    Rule.Accounts (p.approach k elapsed aim).2 ((p.approach k elapsed aim).1.isPosedAs k)
      (p.stalls k elapsed aim) := by
  have hself := hk.isPosedAs_self
  unfold approach stalls
  dsimp only
  cases Scalar.le (aim - k.coords).length p.distance with
  | true => exact .of_still hself
  | false =>
    cases (aim - k.coords).normalize? with
    | none => simpa using Rule.Accounts.of_still hself
    | some direction =>
      cases Scalar.le (Scalar.smaller (p.speed * elapsed)
        ((aim - k.coords).length - p.distance)) Scalar.zero with
      | true => exact .of_still hself
      | false =>
        have horientation := Vec3.sameAs_self hk.orientation
        cases p.pointToTarget <;>
          simpa [Kinematics.isPosedAs, horientation] using Rule.Accounts.of_reported _

/-- What a rule reports is right unless it stalls. -/
theorem Rule.accounts_advance {r : Rule Float} {targets : Lookup} {a : Advance Float}
    (hk : k.IsLocated) (h : r.advance k elapsed targets = .ok a) :
    Accounts a.changed (a.state.isPosedAs k) (r.stalls k elapsed targets) := by
  cases r with
  | rest =>
    cases h
    exact .of_still hk.isPosedAs_self
  | cruise c =>
    cases h
    exact c.accounts_advance hk
  | orbit o =>
    cases h
    exact o.accounts_advance hk
  | spin s =>
    cases h
    exact s.accounts_advance hk
  | pursuit p =>
    obtain ⟨c, htarget, -, -⟩ := advance_pursuit_eq_ok h
    simp only [advance, Pursuit.advance, Pursuit.aimPoint, htarget, bind, Except.bind, pure,
      Except.pure] at h
    cases h
    rw [stalls, htarget]
    exact p.accounts_approach hk (c + p.offset)

end Rules

/-! ### What stalls -/

/-- The angle to turn by in `elapsed` seconds has no sine and cosine, or the platform's are off, or
it is one that hardly turns the orientation. -/
def Spin.IsFutile (s : Spin Float) (k : Kinematics Float) (elapsed : Float) : Prop :=
  let angle := s.clippedAngle k elapsed
  angle.isFinite = true → Double.isSkewed angle = false → k.orientation.Idles s.axis angle

/-- The rule has hardly anything to do in `elapsed` seconds: any step is very short beside the
coordinates, and any turn is futile.  Of the step of a pursuit nothing is said if the way to the
target is faint. -/
def Rule.IsFutile (r : Rule Float) (k : Kinematics Float) (elapsed : Float) (targets : Lookup) :
    Prop :=
  match r with
  | rest | orbit _ => False
  | cruise c =>
    let step := (c.clippedStep k elapsed).1
    (Scalar.lt Scalar.zero step = true → k.coords.Dwarfs step) ∧
      ∀ s ∈ c.spin, s.turns k elapsed = true → s.IsFutile k elapsed
  | spin s => s.IsFutile k elapsed
  | pursuit p => ∃ c, targets p.target = some c ∧
      let way := c + p.offset - k.coords
      (way.isFaint = false →
        k.coords.Dwarfs (Scalar.smaller (p.speed * elapsed) (way.length - p.distance)))

section Futile

variable {k : Kinematics Float} {elapsed : Float}

theorem Spin.isFutile_of_stalls {s : Spin Float} (hs : s.validate = .ok ())
    (hk : k.orientation.isNormalized = true) (h : s.stalls k elapsed = true) :
    s.IsFutile k elapsed := by
  intro hfinite hcircle
  obtain ⟨-, hback⟩ := (Bool.and_eq_true ..).mp h
  rw [Double.isSkewed, hfinite, Bool.true_and, Bool.not_eq_false'] at hcircle
  exact Vec3.idles_of_absorbed hk (isNormalized_axis hs) hcircle hback

/-- A valid rule stalls only if it has hardly anything to do. -/
theorem Rule.isFutile_of_stalls {r : Rule Float} {targets : Lookup} (hr : r.validate = .ok ())
    (hk : k.IsLocated) (hunit : k.orientation.isNormalized = true)
    (h : r.stalls k elapsed targets = true) : r.IsFutile k elapsed targets := by
  cases r with
  | rest | orbit => cases h
  | cruise c =>
    simp only [stalls, Cruise.stalls, Bool.and_eq_true, Bool.or_eq_true, Bool.not_eq_true',
      Option.all_eq_true] at h
    obtain ⟨⟨-, hstep⟩, hspin⟩ := h
    refine ⟨fun hmoves => ?_, fun s hs hturns => ?_⟩
    · rw [hmoves] at hstep
      exact Vec3.dwarfs_of_absorbed hk.coords (Cruise.validate_eq_ok_iff.mp hr).1
        (hstep.resolve_left (by decide))
    · have hstalls := hspin s hs
      rw [hturns] at hstalls
      exact Spin.isFutile_of_stalls ((Cruise.validate_eq_ok_iff.mp hr).2.2.2 s hs) hunit
        (hstalls.resolve_left (by decide))
  | spin s => exact Spin.isFutile_of_stalls hr hunit h
  | pursuit p =>
    obtain ⟨c, hc, h⟩ := (Option.any_eq_true ..).mp h
    refine ⟨c, hc, fun hclear => ?_⟩
    obtain ⟨-, h⟩ := (Bool.and_eq_true ..).mp h
    obtain ⟨direction, hdirection, h⟩ := (Option.any_eq_true ..).mp h
    obtain ⟨hlost, -⟩ := (Bool.and_eq_true ..).mp h
    exact Vec3.dwarfs_of_absorbed hk.coords
      ((Vec3.isNormalized_iff_of_normalize? hdirection).mpr hclear) hlost

end Futile

/-! ### Positions -/

/-- What an advance reports is right unless the rule stalls. -/
theorem Position.accounts_advance {p p' : Position} {elapsed : Float} {targets : Lookup}
    {changed : Bool} (hp : p.state.IsLocated) (h : p.advance elapsed targets = .ok (p', changed)) :
    Rule.Accounts changed (p'.state.isPosedAs p.state)
      (p.rule.stalls p.state elapsed targets) := by
  unfold advance at h
  split at h
  · cases h
  · next a ha =>
    split at h
    · cases h
      exact Rule.accounts_advance hp ha
    · cases h

namespace Tracked

/-- The position advances in a tick, and its rule stalls. -/
def stalls (t : Tracked) (elapsed : Float) (start : Lookup) : Bool :=
  t.status = .active && (t.position.advance elapsed start).isOk &&
    t.position.rule.stalls t.position.state elapsed start

/-- The movement watches that are due where a tick leads the position. -/
def watchesDue (t : Tracked) (elapsed : Float) (start : Lookup) : List MovementHit :=
  let coords := t.coordsAfter elapsed start
  (t.position.movementWatches.filter (·.isDue coords)).map fun w =>
    ⟨w.anchoredAt coords, w.anchor⟩

variable (t : Tracked) (elapsed : Float) (start current : Lookup)

/-- What the first phase of a tick reports of a position is right unless it stalls. -/
theorem accounts_stride (ht : t.position.state.IsLocated) :
    Rule.Accounts (t.stride elapsed start).moved
      ((t.alone elapsed start current).position.state.isPosedAs t.position.state)
      (t.stalls elapsed start) := by
  obtain ⟨hrests, -, -, hstate⟩ | ⟨p, changed, hactive, hadvance, -, -, hstate⟩ :=
    t.alone_cases elapsed start current
  · have hstalls : t.stalls elapsed start = false := by
      rw [stalls, Bool.and_eq_false_iff, Bool.eq_false_iff, ne_eq, Bool.and_eq_true,
        decide_eq_true_eq]
      exact .inl hrests
    have hmoved : (t.stride elapsed start).moved = false := by
      unfold stride
      cases hstatus : t.status with
      | stopped => rfl
      | active =>
        cases hadvance : t.position.advance elapsed start with
        | error e => rfl
        | ok r => exact absurd ⟨hstatus, by rw [hadvance]; rfl⟩ hrests
    rw [hstalls, hmoved, hstate]
    exact .of_still ht.isPosedAs_self
  · have hmoved : (t.stride elapsed start).moved = changed := by
      unfold stride
      rw [hactive, hadvance]
      cases changed <;> rfl
    have haccounts := Position.accounts_advance ht hadvance
    rw [hmoved, hstate, stalls, hactive, hadvance]
    simpa [Except.isOk, Except.toBool] using haccounts

/-- The due watches are told if the first phase reports a change. -/
theorem movements_eq : t.movements elapsed start =
    if (t.stride elapsed start).moved then t.watchesDue elapsed start else [] := by
  unfold movements stride watchesDue coordsAfter afterAdvance
  cases t.status with
  | stopped => rfl
  | active =>
    cases hadvance : t.position.advance elapsed start with
    | error e => rfl
    | ok r =>
      obtain ⟨p, changed⟩ := r
      obtain ⟨a, -, -, -, rfl⟩ := Position.advance_eq_ok hadvance
      cases changed <;> rfl

end Tracked

/-! ### Ticks -/

/-- The listener is told of a movement. -/
def PositionEvent.isMoved : PositionEvent → Bool
  | moved .. => true
  | _ => false

/-- Of the calls of a position, those that tell of a movement go to the due watches. -/
theorem Tracked.filter_isMoved_callsIn (t : Tracked) (elapsed : Float) (start current : Lookup) :
    ((t.callsIn elapsed start current).map fun c => (c.notice.listener, c.event)).filter
        (·.2.isMoved) =
      (t.movements elapsed start).map fun hit =>
        (hit.watch.listener, .moved (t.alone elapsed start current).position hit.previous) := by
  simp [callsIn, List.filter_map, Function.comp_def, Call.event, Notice.event, Notice.listener,
    PositionEvent.isMoved]

/-- Reports that are accounted for count the changes and the stalls. -/
theorem Rule.countP_of_accounts {α : Type} {l : List α} {reported same stalls : α → Bool}
    (h : ∀ a ∈ l, Accounts (reported a) (same a) (stalls a)) :
    l.countP reported = l.countP (fun a => !same a) + l.countP stalls := by
  induction l with
  | nil => rfl
  | cons a l ih =>
    obtain ⟨ha, hl⟩ := List.forall_mem_cons.mp h
    obtain ⟨hreported, hsame⟩ := ha
    rw [List.countP_cons, List.countP_cons, List.countP_cons, ih hl, hreported]
    cases hstalls : stalls a with
    | false => cases same a <;> simp; omega
    | true => simp [hsame hstalls]; omega

namespace World

variable {host : Host κ ε} {w : World κ ε}

theorem tick_eq (hw : w.tracker.poisoned = false) (elapsed : Float) :
    let x := Tracker.Tick.run w.tracker.slots elapsed
    w.tick host elapsed =
      (w.withTracker { w.tracker with slots := x.slots }).notify host x.report x.calls := by
  unfold tick move
  simp only [Tracker.advance_eq_ok hw elapsed]
  rfl

theorem exists_tick_of_onlyReplies (hhost : host.OnlyReplies) (hw : w.tracker.poisoned = false)
    (elapsed : Float) : ∃ report, (w.tick host elapsed).1 = .ok report := by
  rw [tick_eq hw]
  dsimp only
  have hintact : (w.withTracker { w.tracker with
      slots := (Tracker.Tick.run w.tracker.slots elapsed).slots }).tracker.poisoned = false := hw
  generalize w.withTracker _ = ticked at hintact
  generalize (Tracker.Tick.run w.tracker.slots elapsed).calls = calls
  obtain ⟨outside, hleft⟩ := exists_askAll_eq
    (fun c : Call => hhost.positions c.notice.listener c.event) calls ticked
  obtain ⟨answered, hnotify, -⟩ := notify_eq host
    (Tracker.Tick.run w.tracker.slots elapsed).report calls (Prod.eta (call host calls ticked)).symm
    (by rw [call, hleft]; exact hintact)
  exact ⟨answered, by rw [hnotify]⟩

/-- A tick counts the positions that change and those that stall. -/
theorem moved_of_tick (hw : w.tracker.poisoned = false) (hfinite : w.tracker.IsFinite)
    {elapsed : Float} {report : TickReport} (h : (w.tick host elapsed).1 = .ok report) :
    let start := Tracker.coordinatesIn w.tracker.slots
    let current := Tracker.coordinatesAfter w.tracker.slots elapsed
    report.moved =
      (w.tracker.slots.values.countP fun t =>
        !(t.alone elapsed start current).position.state.isPosedAs t.position.state) +
      w.tracker.slots.values.countP fun t => t.stalls elapsed start := by
  intro start current
  rw [tick_eq hw] at h
  obtain ⟨replies, revoked, rfl⟩ := answered_of_notify h
  obtain ⟨-, hreport, -⟩ := Tracker.Tick.run_spec w.tracker.slots elapsed
  have hmoved : (Tracker.Tick.run w.tracker.slots elapsed).report.moved =
      w.tracker.slots.values.countP fun t => (t.stride elapsed start).moved := by
    rw [hreport, Table.values, List.countP_map]
    rfl
  refine hmoved.trans (Rule.countP_of_accounts fun t ht => ?_)
  have hlocated := (Kinematics.isFinite_iff.mp (Table.forall_mem_values_iff.mpr hfinite t ht)).1
  exact t.accounts_stride elapsed start current hlocated

/-- The listeners are told of a movement of the positions that change and of those that stall. -/
theorem told_of_tick {log : ε → List (ListenerId × PositionEvent)} (hlog : host.Records log)
    (hw : w.tracker.poisoned = false) (hfinite : w.tracker.IsFinite) (elapsed : Float) :
    let start := Tracker.coordinatesIn w.tracker.slots
    let current := Tracker.coordinatesAfter w.tracker.slots elapsed
    ∃ told, log (w.tick host elapsed).2.outside = log w.outside ++ told ∧
      told.filter (·.2.isMoved) = w.tracker.slots.values.flatMap fun t =>
        let after := (t.alone elapsed start current).position
        if !after.state.isPosedAs t.position.state || t.stalls elapsed start then
          (t.watchesDue elapsed start).map fun hit => (hit.watch.listener, .moved after hit.previous)
        else [] := by
  intro start current
  obtain ⟨-, -, hcalls⟩ := Tracker.Tick.run_spec w.tracker.slots elapsed
  refine ⟨_, by rw [tick_eq hw]; exact log_notify hlog _ _ _, ?_⟩
  rw [hcalls, List.map_flatMap, List.filter_flatMap, Table.values, List.flatMap_map]
  refine List.flatMap_congr fun e he => ?_
  have hlocated := (Kinematics.isFinite_iff.mp
    (hfinite e.1 e.2 (Table.get?_eq_some_iff.mpr he))).1
  rw [Tracked.callsOf_eq, Tracked.filter_isMoved_callsIn, Tracked.movements_eq,
    (e.2.accounts_stride elapsed start current hlocated).reported]
  exact apply_ite (List.map _) _ _ _

/-- What is reported of a change is right unless a rule stalls.  If the advance of a finite position
reports none, the coordinates and the orientation are equal to what they were.  If it reports one,
they are not, if and only if the rule does not stall.  A valid rule of a position that faces along a
unit vector stalls only if it has hardly anything to do.  A tick of finite positions counts those
that change and those that stall, so it counts exactly those that change if and only if none stalls;
and of the watches that are due, those of exactly these positions are told of a movement.  If
listeners only reply a tick does return a report. -/
theorem moved_iff_not_stalls (host : Host κ ε) (w : World κ ε) (elapsed : Float)
    (hw : w.tracker.poisoned = false) (hfinite : w.tracker.IsFinite) :
    (∀ (p p' : Position) (targets : Lookup) (changed : Bool),
      p.state.IsFinite → p.advance elapsed targets = .ok (p', changed) →
      (changed = false → p'.state.isPosedAs p.state = true) ∧
      (changed = true → (p'.state.isPosedAs p.state = false ↔
        p.rule.stalls p.state elapsed targets = false))) ∧
    (∀ (r : Rule Float) (k : Kinematics Float) (targets : Lookup),
      r.validate = .ok () → k.IsFinite → k.orientation.isNormalized = true →
      r.stalls k elapsed targets = true → r.IsFutile k elapsed targets) ∧
    let start := Tracker.coordinatesIn w.tracker.slots
    let current := Tracker.coordinatesAfter w.tracker.slots elapsed
    let after := fun t : Tracked => (t.alone elapsed start current).position
    let moves := fun t : Tracked => !(after t).state.isPosedAs t.position.state
    let stalls := fun t : Tracked => t.stalls elapsed start
    let slots := w.tracker.slots.values
    (host.OnlyReplies → ∃ report, (w.tick host elapsed).1 = .ok report) ∧
    (∀ report, (w.tick host elapsed).1 = .ok report →
      report.moved = slots.countP moves + slots.countP stalls ∧
      (report.moved = slots.countP moves ↔ ∀ t ∈ slots, stalls t = false)) ∧
    ∀ log, host.Records log → ∃ told,
      log (w.tick host elapsed).2.outside = log w.outside ++ told ∧
      told.filter (·.2.isMoved) = slots.flatMap fun t =>
        if moves t || stalls t then
          (t.watchesDue elapsed start).map fun hit =>
            (hit.watch.listener, .moved (after t) hit.previous)
        else [] := by
  refine ⟨?_, ?_, ?_⟩
  · intro p p' targets changed hp hadvance
    exact (Position.accounts_advance (Kinematics.isFinite_iff.mp hp).1 hadvance).truth
  · intro r k targets hr hk hunit hstalls
    exact Rule.isFutile_of_stalls hr (Kinematics.isFinite_iff.mp hk).1 hunit hstalls
  · intro start current after moves stalls slots
    refine ⟨fun hhost => exists_tick_of_onlyReplies hhost hw elapsed, fun report hreport => ?_,
      fun log hlog => told_of_tick hlog hw hfinite elapsed⟩
    have hmoved : report.moved = slots.countP moves + slots.countP stalls :=
      moved_of_tick hw hfinite hreport
    have hnone : slots.countP stalls = 0 ↔ ∀ t ∈ slots, stalls t = false := by
      simp [List.countP_eq_zero]
    exact ⟨hmoved, by rw [← hnone]; omega⟩

end World

/-! ### Drift -/

namespace Drift

/-- One step to the side in every second. -/
def pace : Rule Float := .cruise ⟨⟨1.0, 0.0, 0.0⟩, 1.0, none, none⟩

/-- Where a step matters. -/
def close : Position := { id := ⟨1⟩, rule := pace }

/-- So far away that a step is nothing. -/
def far : Position where
  id := ⟨2⟩
  state := { (Kinematics.initial : Kinematics Float) with coords := ⟨1e20, 0.0, 0.0⟩ }
  rule := pace

/-- Turns across the axis that it faces along, six radians in every second. -/
def whirl : Position where
  id := ⟨3⟩
  state := { (Kinematics.initial : Kinematics Float) with orientation := ⟨1.0, 0.0, 0.0⟩ }
  rule := .spin ⟨Vec3.zAxis, 6.0, none⟩

/-- Both places are watched. -/
def scene : List Maneuver :=
  [.track close, .track far, .watchMovement ⟨1⟩ { subscriber := "ann", listener := ⟨1⟩ },
    .watchMovement ⟨2⟩ { subscriber := "ann", listener := ⟨2⟩ }]

/-- The world before the first step. -/
def world : World Unit (List (ListenerId × PositionEvent)) where
  tracker := ({} : Tracker).after scene
  outside := []

/-- The surroundings in which everything is logged and all is well. -/
def host : Host Unit (List (ListenerId × PositionEvent)) where
  hook _ progress body scene outside := ⟨.ok (), progress, body, scene, outside⟩
  mayExecute _ _ _ := false
  isOver _ _ _ := true
  credit _ outside := outside
  hearPosition listener event w := (.ok (), { w with outside := w.outside ++ [(listener, event)] })
  hearEntity _ _ w := (.ok (), w)

theorem onlyReplies_host : host.OnlyReplies where
  positions listener event w := ⟨w.outside ++ [(listener, event)], rfl⟩
  entities _ _ w := ⟨w.outside, rfl⟩

end Drift

open Drift in
/-- One of two positions changes, and both are counted and told of. -/
theorem World.moved_iff_not_stalls_drift :
    ∃ report, (world.tick host 1.0).1 = .ok report ∧ report.moved = 2 ∧
      ((world.tick host 1.0).2.outside.filter (·.2.isMoved)).map (·.1) = [⟨1⟩, ⟨2⟩] := by
  have hintact : world.tracker.poisoned = false := by decide +kernel
  have hfinite : world.tracker.IsFinite := by
    have hall : ∀ t ∈ world.tracker.slots.values, ∀ x ∈ t.position.state.numbers,
        x.isFinite = true := by decide +kernel
    exact Table.forall_mem_values_iff.mp hall
  obtain ⟨-, -, hreports, hcount, htold⟩ := moved_iff_not_stalls host world 1.0 hintact hfinite
  obtain ⟨report, hreport⟩ := hreports onlyReplies_host
  obtain ⟨hmoved, -⟩ := hcount report hreport
  obtain ⟨told, houtside, hfilter⟩ := htold id fun _ _ _ => rfl
  refine ⟨report, hreport, hmoved.trans (by decide +kernel), ?_⟩
  have hlog : (world.tick host 1.0).2.outside = told := houtside.trans (List.nil_append told)
  rw [hlog, hfilter]
  decide +kernel

open Drift in
/-- A finite position with a valid rule reports a change of nothing: a step that is lost beside the
coordinates, and a turn by an angle that is too large for a number. -/
theorem Position.reports_change_of_nothing :
    (far.rule.validate = .ok () ∧ far.state.IsFinite ∧
      ∃ p, far.advance 1.0 (fun _ => none) = .ok (p, true) ∧ p.state.isPosedAs far.state = true) ∧
    whirl.rule.validate = .ok () ∧ whirl.state.IsFinite ∧ (1e308 : Float).isFinite = true ∧
      ∃ p, whirl.advance 1e308 (fun _ => none) = .ok (p, true) ∧
        p.state.isPosedAs whirl.state = true := by
  have hchanged : ∀ (p : Position) (elapsed : Float),
      ((p.advance elapsed fun _ => none).toOption.any fun r =>
        r.2 && r.1.state.isPosedAs p.state) = true →
      ∃ p', p.advance elapsed (fun _ => none) = .ok (p', true) ∧
        p'.state.isPosedAs p.state = true := by
    intro p elapsed h
    obtain ⟨⟨p', changed⟩, hadvance, h⟩ := Except.exists_of_any_toOption h
    obtain ⟨rfl, hposed⟩ := (Bool.and_eq_true ..).mp h
    exact ⟨p', hadvance, hposed⟩
  have hfar : ∀ x ∈ far.state.numbers, x.isFinite = true := by decide +kernel
  have hwhirl : ∀ x ∈ whirl.state.numbers, x.isFinite = true := by decide +kernel
  exact ⟨⟨by decide +kernel, hfar, hchanged far 1.0 (by decide +kernel)⟩, by decide +kernel, hwhirl,
    by decide +kernel, hchanged whirl 1e308 (by decide +kernel)⟩

end Orrery
