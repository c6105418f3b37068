import Orrery.Proofs.Restore
import Orrery.Proofs.Ticks

/-!
# Everything stays in its place

Every entity sits under its own name (`Entities.IsFiled`), and every tracked position under its own
identifier, with a valid rule (`Tracker.IsOrderly`).  The operations on both keep that.  What a tick
makes of one position is what its advance makes of it, if that is not refused
(`Tracked.alone_cases`, `Position.advance_eq_ok`).  The only rule that changes then is an orbit,
which takes a new true anomaly; that is finite if the coordinates computed from it are
(`Orbit.isFinite_of_pointAt`).
-/

namespace Orrery

/-! ### Results -/

theorem Except.map_eq_ok {ε α β : Type} {f : α → β} {x : Except ε α} {b : β}
    (h : x.map f = .ok b) : ∃ a, x = .ok a ∧ f a = b := by
  cases x with
  | error e => cases h
  | ok a => exact ⟨a, rfl, Except.ok.inj h⟩

theorem Except.exists_of_any_toOption {ε α : Type} {x : Except ε α} {test : α → Bool}
    (h : x.toOption.any test = true) : ∃ a, x = .ok a ∧ test a = true := by
  cases x with
  | error e => cases h
  | ok a => exact ⟨a, rfl, h⟩

/-- A check that was not in the way did not fail, and what comes after it decides. -/
theorem Except.ite_error_eq_ok_iff {ε α : Type} {p : Prop} [Decidable p] {e : ε} {x : Except ε α}
    {a : α} : (if p then .error e else x) = .ok a ↔ ¬p ∧ x = .ok a := by
  split <;> simp [*]

/-! ### Undefined numbers -/

namespace Double

open Float.Model UnpackedFloat in
theorem isNaN_iff {x : Float} : x.isNaN = true ↔ x.toModel.unpack = .notANumber := by
  show x.toModel.unpack.isNaN = true ↔ _
  cases x.toModel.unpack with
  | notANumber => exact iff_of_true rfl rfl
  | zero | infinity | finite =>
    constructor
    · rintro ⟨⟩
    · rintro ⟨⟩

theorem isNaN_nan : nan.isNaN = true := by decide +kernel

theorem isNaN_pack : (Float.ofModel (Float.Model.pack .notANumber)).isNaN = true := by
  decide +kernel

theorem isFinite_of_isNaN {x : Float} (h : x.isNaN = true) : x.isFinite = false := by
  rw [isNaN_iff] at h
  show x.toModel.unpack.isFinite = false
  rw [h]
  rfl

theorem isNaN_mul_right (x : Float) {y : Float} (h : y.isNaN = true) : (x * y).isNaN = true := by
  rw [isNaN_iff] at h
  have hmul : x * y = .ofModel (.pack (.mul .binary64 x.toModel.unpack y.toModel.unpack)) := rfl
  rw [hmul, h]
  cases x.toModel.unpack <;> exact isNaN_pack

theorem isNaN_add_right (x : Float) {y : Float} (h : y.isNaN = true) : (x + y).isNaN = true := by
  rw [isNaN_iff] at h
  have hadd : x + y = .ofModel (.pack (.add .binary64 x.toModel.unpack y.toModel.unpack)) := rfl
  rw [hadd, h]
  cases x.toModel.unpack <;> exact isNaN_pack

theorem isNaN_add_left {x : Float} (y : Float) (h : x.isNaN = true) : (x + y).isNaN = true := by
  rw [isNaN_iff] at h
  have hadd : x + y = .ofModel (.pack (.add .binary64 x.toModel.unpack y.toModel.unpack)) := rfl
  rw [hadd, h]
  exact isNaN_pack

end Double

/-! ### Rules -/

/-- What the checks of a cruise ask of it. -/
theorem Cruise.validate_eq_ok_iff {α : Type} [Scalar α] {c : Cruise α} : c.validate = .ok () ↔
    c.direction.isNormalized = true ∧ Scalar.isPositive c.speed = true ∧
      (∀ stop ∈ c.stopDistance, Scalar.isPositive stop = true) ∧
      ∀ s ∈ c.spin, s.validate = .ok () := by
  simp only [validate, bind, Except.bind, throw, throwThe, MonadExceptOf.throw, pure, Except.pure,
    Except.ite_error_eq_ok_iff, Bool.not_eq_true, Bool.not_eq_false']
  cases c.stopDistance <;> cases c.spin <;> simp [Except.ite_error_eq_ok_iff]

/-- What the checks of a spin ask of it. -/
theorem Spin.validate_eq_ok_iff {α : Type} [Scalar α] {s : Spin α} : s.validate = .ok () ↔
    (Scalar.isFinite s.speed = true ∧ Scalar.le Scalar.fullTurn (Scalar.abs s.speed) = false) ∧
      s.axis.isNormalized = true ∧
      ∀ stop ∈ s.stopAngle, Scalar.isFinite stop = true ∧ Scalar.isNegative stop = false := by
  simp only [validate, bind, Except.bind, throw, throwThe, MonadExceptOf.throw, pure, Except.pure,
    Except.ite_error_eq_ok_iff, Bool.not_eq_true, Bool.not_eq_false', Bool.or_eq_false_iff]
  cases s.stopAngle <;> simp

/-- What the checks of a pursuit ask of it. -/
theorem Pursuit.validate_eq_ok_iff {α : Type} [Scalar α] {p : Pursuit α} : p.validate = .ok () ↔
    (Scalar.isFinite p.distance = true ∧ Scalar.isNegative p.distance = false) ∧
      Scalar.isPositive p.speed = true ∧ p.offset.isFinite = true := by
  simp only [validate, bind, Except.bind, throw, throwThe, MonadExceptOf.throw, pure, Except.pure,
    Except.ite_error_eq_ok_iff, Bool.not_eq_true, Bool.not_eq_false', Bool.or_eq_false_iff,
    and_true]

/-- What the checks of an orbit ask of it. -/
theorem Orbit.validate_eq_ok_iff {α : Type} [Scalar α] {o : Orbit α} : o.validate = .ok () ↔
    Scalar.isPositive o.semiLatusRectum = true ∧
      (Scalar.le Scalar.zero o.eccentricity = true ∧
        Scalar.lt o.eccentricity Scalar.one = true) ∧
      Scalar.isPositive o.speed = true ∧
      (o.major.isNormalized = true ∧ o.minor.isNormalized = true) ∧
      o.major.isOrthogonal o.minor = true ∧ Scalar.isFinite o.trueAnomaly = true := by
  simp only [validate, bind, Except.bind, throw, throwThe, MonadExceptOf.throw, pure, Except.pure,
    Except.ite_error_eq_ok_iff, Bool.not_eq_true, Bool.not_eq_false', Bool.or_eq_false_iff,
    Bool.and_eq_true, and_true]

/-- The true anomaly is finite if the coordinates computed from it are. -/
theorem Orbit.isFinite_of_pointAt {o : Orbit Float} {θ : Float}
    (h : (o.pointAt θ).isFinite = true) : θ.isFinite = true := by
  by_contra hθ
  have hcos : (Scalar.cos θ : Float).isNaN = true := by
    show (Double.cosine θ).isNaN = true
    rw [Double.cosine, if_neg hθ]
    exact Double.isNaN_nan
  -- an undefined cosine makes the first coordinate undefined
  have hx : (o.pointAt θ).x.isNaN = true :=
    Double.isNaN_add_left _ (Double.isNaN_add_right _ (Double.isNaN_mul_right _
      (Double.isNaN_mul_right _ hcos)))
  have hfinite : (o.pointAt θ).x.isFinite = true := by
    simp only [Vec3.isFinite, Bool.and_eq_true] at h
    exact h.1.1
  rw [Double.isFinite_of_isNaN hx] at hfinite
  cases hfinite

theorem Orbit.validate_trueAnomaly {o : Orbit Float} (h : o.validate = .ok ()) {θ : Float}
    (hθ : θ.isFinite = true) : { o with trueAnomaly := θ }.validate = .ok () := by
  obtain ⟨hlatus, heccentricity, hspeed, haxes, hright, -⟩ := validate_eq_ok_iff.mp h
  exact validate_eq_ok_iff.mpr ⟨hlatus, heccentricity, hspeed, haxes, hright, hθ⟩

/-- A pursuit advances toward its target, and its rule stays as it is. -/
theorem Rule.advance_pursuit_eq_ok {p : Pursuit Float} {state : Kinematics Float} {elapsed : Float}
    {targets : Lookup} {a : Advance Float}
    (h : (Rule.pursuit p).advance state elapsed targets = .ok a) :
    ∃ c, targets p.target = some c ∧ a.rule = .pursuit p ∧
      a.state = (p.approach state elapsed (c + p.offset)).1 := by
  simp only [advance, Pursuit.advance, Pursuit.aimPoint, bind, Except.bind, pure, Except.pure] at h
  cases htarget : targets p.target with
  | none =>
    rw [htarget] at h
    cases h
  | some c =>
    rw [htarget] at h
    cases h
    exact ⟨c, rfl, rfl, rfl⟩

/-- An advance with finite coordinates leaves a valid rule valid. -/
theorem Rule.validate_advance {r : Rule Float} (h : r.validate = .ok ()) {state : Kinematics Float}
    {elapsed : Float} {targets : Lookup} {a : Advance Float}
    (hadvance : r.advance state elapsed targets = .ok a)
    (hfinite : a.state.coords.isFinite = true) : a.rule.validate = .ok () := by
  cases r with
  | rest | cruise | spin =>
    cases hadvance
    exact h
  | orbit o =>
    cases hadvance
    exact Orbit.validate_trueAnomaly h (Orbit.isFinite_of_pointAt hfinite)
  | pursuit p =>
    obtain ⟨-, -, hrule, -⟩ := advance_pursuit_eq_ok hadvance
    rw [hrule]
    exact h

/-! ### Positions -/

theorem Position.facing_eq_ok {p p' : Position} {orientation : Point}
    (h : p.facing orientation = .ok p') : ∃ u, orientation.normalize? = some u ∧
      p' = { p with state := { p.state with orientation := u } } := by
  unfold facing at h
  split at h
  · cases h
  · next u hu =>
    cases h
    exact ⟨u, hu, rfl⟩

theorem Position.setRule_eq_ok {p p' : Position} {rule : Rule Float}
    (h : p.setRule rule = .ok p') : rule.validate = .ok () ∧ p' = { p with
      rule := rule, state := { p.state with distanceMoved := 0.0, angleRotated := 0.0 } } := by
  unfold setRule at h
  split at h
  · cases h
  · next hvalid =>
    cases h
    exact ⟨hvalid, rfl⟩

theorem Position.teleport_eq_ok {p p' : Position} {coords : Point}
    (h : p.teleport coords = .ok p') : coords.isFinite = true ∧ p' = { p with
      state := { p.state with coords := coords }
      movementWatches := p.movementWatches.map (·.anchoredAt coords) } := by
  unfold teleport at h
  split at h
  · next hcoords =>
    cases h
    exact ⟨hcoords, rfl⟩
  · cases h

/-- An advance that is not refused leads to finite coordinates and a finite orientation, and changes
nothing but the kinematic state and the rule. -/
theorem Position.advance_eq_ok {p p' : Position} {changed : Bool} {elapsed : Float}
    {targets : Lookup} (h : p.advance elapsed targets = .ok (p', changed)) :
    ∃ a, p.rule.advance p.state elapsed targets = .ok a ∧ a.state.coords.isFinite = true ∧
      a.state.orientation.isFinite = true ∧ p' = { p with state := a.state, rule := a.rule } := by
  unfold advance at h
  split at h
  · cases h
  · next a ha =>
    split at h
    · next hfinite =>
      cases h
      rw [Bool.and_eq_true] at hfinite
      exact ⟨a, ha, hfinite.1, hfinite.2, rfl⟩
    · cases h

/-- The kinematic state and the rule of a position change in a tick only if it advances. -/
theorem Tracked.alone_cases (t : Tracked) (elapsed : Float) (start current : Lookup) :
    let p := (t.alone elapsed start current).position
    (¬(t.status = .active ∧ (t.position.advance elapsed start).isOk = true) ∧
      p.id = t.position.id ∧ p.rule = t.position.rule ∧ p.state = t.position.state) ∨
    ∃ p' changed, t.status = .active ∧ t.position.advance elapsed start = .ok (p', changed) ∧
      p.id = p'.id ∧ p.rule = p'.rule ∧ p.state = p'.state := by
  unfold alone afterAdvance
  cases t.status with
  | stopped => exact .inl ⟨nofun, rfl, rfl, rfl⟩
  | active =>
    cases t.position.advance elapsed start with
    | error e => exact .inl ⟨nofun, rfl, rfl, rfl⟩
    | ok r =>
      obtain ⟨p', changed⟩ := r
      refine .inr ⟨p', changed, rfl, rfl, ?_⟩
      cases changed <;> exact ⟨rfl, rfl, rfl⟩

/-- What advances keep of kinematic states unless they break it, ticks keep unless a position
advances and breaks it. -/
theorem Tracked.alone_iff {t : Tracked} {elapsed : Float} {start current : Lookup}
    {P : Kinematics Float → Prop} {b : Bool} (h : P t.position.state)
    (hadvance : ∀ a, t.position.rule.advance t.position.state elapsed start = .ok a →
      a.state.coords.isFinite = true → a.state.orientation.isFinite = true →
      (P a.state ↔ b = false)) :
    P (t.alone elapsed start current).position.state ↔
      (decide (t.status = .active) && (t.position.advance elapsed start).isOk && b) = false := by
  obtain ⟨hrests, -, -, hstate⟩ | ⟨p, changed, hactive, hok, -, -, hstate⟩ :=
    t.alone_cases elapsed start current
  · rw [hstate]
    refine iff_of_true h ?_
    rw [Bool.and_eq_false_iff, Bool.eq_false_iff, ne_eq, Bool.and_eq_true, decide_eq_true_eq]
    exact .inl hrests
  · obtain ⟨a, ha, hcoords, horientation, rfl⟩ := Position.advance_eq_ok hok
    rw [hstate, hadvance a ha hcoords horientation, hactive, hok]
    simp [Except.isOk, Except.toBool]

/-- Under its own identifier, and with a valid rule. -/
structure Position.IsFiled (p : Position) (id : PositionId) : Prop where
  /-- It is its own identifier. -/
  id : p.id = id
  /-- The rule is valid. -/
  rule : p.rule.validate = .ok ()

namespace Position.IsFiled

variable {p : Position} {id : PositionId}

theorem setRule {p' : Position} {rule : Rule Float} (h : p.IsFiled id)
    (hset : p.setRule rule = .ok p') : p'.IsFiled id := by
  obtain ⟨hvalid, rfl⟩ := setRule_eq_ok hset
  exact ⟨h.id, hvalid⟩

theorem teleport {p' : Position} {coords : Point} (h : p.IsFiled id)
    (hjump : p.teleport coords = .ok p') : p'.IsFiled id := by
  obtain ⟨-, rfl⟩ := teleport_eq_ok hjump
  exact ⟨h.id, h.rule⟩

theorem advance {p' : Position} {changed : Bool} {elapsed : Float} {targets : Lookup}
    (h : p.IsFiled id) (hadvance : p.advance elapsed targets = .ok (p', changed)) :
    p'.IsFiled id := by
  obtain ⟨a, ha, hcoords, -, rfl⟩ := advance_eq_ok hadvance
  exact ⟨h.id, Rule.validate_advance h.rule ha hcoords⟩

/-- What becomes of a position in a tick. -/
theorem alone {t : Tracked} (h : t.position.IsFiled id) (elapsed : Float) (start current : Lookup) :
    (t.alone elapsed start current).position.IsFiled id := by
  obtain ⟨-, hid, hrule, -⟩ | ⟨p', changed, -, hadvance, hid, hrule, -⟩ :=
    t.alone_cases elapsed start current
  · exact ⟨hid.trans h.id, hrule ▸ h.rule⟩
  · have hp' := h.advance hadvance
    exact ⟨hid.trans hp'.id, hrule ▸ hp'.rule⟩

end Position.IsFiled

/-! ### The tracker -/

namespace Tracker

variable {t t' : Tracker}

theorem open?_eq_ok (h : t.poisoned = false) : t.open? = .ok t.slots := by simp [open?, h]

theorem of_open?_eq_ok {slots : Table PositionId Tracked} (h : t.open? = .ok slots) :
    t.poisoned = false ∧ slots = t.slots := by
  unfold open? at h
  cases hpoisoned : t.poisoned <;> rw [hpoisoned] at h <;> cases h
  exact ⟨rfl, rfl⟩

theorem require_eq_ok {id : PositionId} {slot : Tracked} (h : t.require id = .ok slot) :
    t.slots.get? id = some slot := by
  unfold require open? at h
  cases hpoisoned : t.poisoned <;> rw [hpoisoned] at h
  · cases hget : t.slots.get? id with
    | none => simp [bind, Except.bind, hget, throw, throwThe, MonadExceptOf.throw] at h
    | some old =>
      simp only [Bool.false_eq_true, ↓reduceIte, bind, Except.bind, hget, pure, Except.pure,
        Except.ok.injEq] at h
      rw [h]
  · cases h

theorem require_of_get? {id : PositionId} {slot : Tracked} (hintact : t.poisoned = false)
    (h : t.slots.get? id = some slot) : t.require id = .ok slot := by
  simp only [require, open?_eq_ok hintact, bind, Except.bind, h, pure, Except.pure]

/-- A change of a tracked position is refused only if what it does to that is. -/
theorem update_of_get? {id : PositionId} {slot : Tracked} (hintact : t.poisoned = false)
    (h : t.slots.get? id = some slot) (f : Tracked → Except TrackerError Tracked) :
    t.update id f =
      (f slot).map fun slot' => { t with slots := t.slots.modify id fun _ => slot' } := by
  unfold update
  rw [require_of_get? hintact h]
  cases hf : f slot <;> simp [bind, Except.bind, hf, Except.map, pure, Except.pure]

theorem update_eq_ok {id : PositionId} {f : Tracked → Except TrackerError Tracked}
    (h : t.update id f = .ok t') :
    ∃ slot slot', t.slots.get? id = some slot ∧ f slot = .ok slot' ∧
      t' = { t with slots := t.slots.modify id fun _ => slot' } := by
  unfold update at h
  cases hslot : t.require id with
  | error e =>
    rw [hslot] at h
    cases h
  | ok slot =>
    rw [hslot] at h
    cases hf : f slot with
    | error e =>
      simp [bind, Except.bind, hf] at h
    | ok slot' =>
      simp only [bind, Except.bind, hf, pure, Except.pure, Except.ok.injEq] at h
      exact ⟨slot, slot', require_eq_ok hslot, hf, h.symm⟩

theorem track_eq_ok {p : Position} (h : t.track p = .ok t') :
    p.rule.validate = .ok () ∧ t.slots.get? p.id = none ∧
      t' = { t with slots := t.slots.insert p.id { position := p } } := by
  unfold track at h
  cases hvalid : p.rule.validate with
  | error f => simp [hvalid, bind, Except.bind, throw, throwThe, MonadExceptOf.throw] at h
  | ok u =>
    cases hopen : t.open? with
    | error e => simp [hvalid, hopen, bind, Except.bind] at h
    | ok slots =>
      obtain ⟨-, rfl⟩ := of_open?_eq_ok hopen
      simp only [hvalid, hopen, bind, Except.bind] at h
      split at h
      · cases h
      · next hnew =>
        cases h
        exact ⟨rfl, Table.contains_eq_false_iff.mp (Bool.eq_false_iff.mpr hnew), rfl⟩

theorem untrack_eq_ok {id : PositionId} {p : Option Position} (h : t.untrack id = .ok (p, t')) :
    t' = { t with slots := t.slots.erase id } := by
  unfold untrack at h
  cases hopen : t.open? with
  | error e => simp [hopen, bind, Except.bind] at h
  | ok slots =>
    obtain ⟨-, rfl⟩ := of_open?_eq_ok hopen
    simp only [hopen, bind, Except.bind, pure, Except.pure, Except.ok.injEq, Prod.mk.injEq] at h
    exact h.2.symm

/-- A stop changes nothing but the status of a position that is active. -/
theorem stop_eq_ok {id : PositionId} {report : TickReport} {calls : List Call}
    (h : t.stop id = .ok (t', report, calls)) :
    ∃ slot, t.slots.get? id = some slot ∧
      ((slot.status = .stopped ∧ t' = t ∧ report = {} ∧ calls = []) ∨
      (slot.status = .active ∧
        t' = { t with slots := t.slots.modify id fun s => { s with status := .stopped } } ∧
        report = { stopped := [id] } ∧
        calls = slot.stopNotices.map fun n => ⟨slot.position, n⟩)) := by
  unfold stop at h
  cases hslot : t.require id with
  | error e =>
    rw [hslot] at h
    cases h
  | ok slot =>
    refine ⟨slot, require_eq_ok hslot, ?_⟩
    obtain ⟨position, status⟩ := slot
    rw [hslot] at h
    cases status with
    | stopped =>
      cases h
      exact .inl ⟨rfl, rfl, rfl, rfl⟩
    | active =>
      cases h
      exact .inr ⟨rfl, rfl, rfl, rfl⟩

theorem poisoned_stop {id : PositionId} {report : TickReport} {calls : List Call}
    (h : t.stop id = .ok (t', report, calls)) : t'.poisoned = t.poisoned := by
  obtain ⟨-, -, ⟨-, rfl, -, -⟩ | ⟨-, rfl, -, -⟩⟩ := stop_eq_ok h <;> rfl

/-- Pruning drops the watches of one revocation after the other. -/
theorem exists_prune_eq_ok (h : t.poisoned = false) (rs : List Revocation) :
    ∃ n, t.prune rs = .ok (n, { t with slots := rs.foldl revoke t.slots }) := by
  cases rs with
  | nil => exact ⟨0, rfl⟩
  | cons r rs =>
    -- the count aside, the fold is the same
    let step (x : Nat × Table PositionId Tracked) (r : Revocation) :=
      (x.1 + revokedCount x.2 r, revoke x.2 r)
    have hfold : (r :: rs).foldl revoke t.slots = ((r :: rs).foldl step (0, t.slots)).2 :=
      @List.foldl_hom _ _ _ Prod.snd step revoke (r :: rs) (0, t.slots) fun _ _ => rfl
    rw [hfold]
    simp only [prune, open?_eq_ok h]
    exact ⟨_, rfl⟩

theorem prune_eq_ok {rs : List Revocation} {n : Nat} (hopen : t.poisoned = false)
    (h : t.prune rs = .ok (n, t')) : t' = { t with slots := rs.foldl revoke t.slots } := by
  obtain ⟨n', hpruned⟩ := exists_prune_eq_ok hopen rs
  rw [h] at hpruned
  cases hpruned
  rfl

/-! ### All tracked positions -/

/-- All tracked positions have a property, which may depend on the identifiers that they sit
under. -/
def Every (Q : PositionId → Tracked → Prop) (t : Tracker) : Prop :=
  ∀ id slot, t.slots.get? id = some slot → Q id slot

namespace Every

variable {Q : PositionId → Tracked → Prop} {id : PositionId}

theorem empty : ({} : Tracker).Every Q := nofun

theorem modify (h : t.Every Q) {f : Tracked → Tracked} (hf : ∀ slot, Q id slot → Q id (f slot)) :
    { t with slots := t.slots.modify id f }.Every Q := by
  intro j slot hslot
  rw [Table.get?_modify] at hslot
  split at hslot
  · next hid =>
    subst hid
    obtain ⟨old, hold, rfl⟩ := Option.map_eq_some_iff.mp hslot
    exact hf old (h j old hold)
  · exact h j slot hslot

theorem update (h : t.Every Q) {f : Tracked → Except TrackerError Tracked}
    (hf : ∀ slot slot', Q id slot → f slot = .ok slot' → Q id slot')
    (hupdate : t.update id f = .ok t') : t'.Every Q := by
  obtain ⟨slot, slot', hslot, hslot', rfl⟩ := update_eq_ok hupdate
  exact h.modify fun _ _ => hf slot slot' (h id slot hslot) hslot'

theorem track (h : t.Every Q) {p : Position}
    (hp : p.rule.validate = .ok () → Q p.id { position := p }) (htrack : t.track p = .ok t') :
    t'.Every Q := by
  obtain ⟨hvalid, -, rfl⟩ := track_eq_ok htrack
  intro j slot hslot
  rw [Table.get?_insert] at hslot
  split at hslot
  · next hid =>
    cases hslot
    rw [hid]
    exact hp hvalid
  · exact h j slot hslot

theorem untrack (h : t.Every Q) {p : Option Position} (huntrack : t.untrack id = .ok (p, t')) :
    t'.Every Q := by
  rw [untrack_eq_ok huntrack]
  intro j slot hslot
  rw [Table.get?_erase] at hslot
  split at hslot
  · cases hslot
  · exact h j slot hslot

theorem setRule (h : t.Every Q) {rule : Rule Float}
    (hp : ∀ slot p, Q id slot → slot.position.setRule rule = .ok p →
      Q id { position := p, status := .active })
    (hset : t.setRule id rule = .ok t') : t'.Every Q := by
  refine h.update (fun slot slot' hQ hslot => ?_) hset
  split at hslot
  · cases hslot
  · next p hset =>
    cases hslot
    exact hp slot p hQ hset

theorem teleport (h : t.Every Q) {coords : Point}
    (hp : ∀ slot p status, Q id slot → slot.position.teleport coords = .ok p →
      Q id { position := p, status := status })
    (hjump : t.teleport id coords = .ok t') : t'.Every Q := by
  refine h.update (fun slot slot' hQ hslot => ?_) hjump
  split at hslot
  · cases hslot
  · next p hjump =>
    cases hslot
    exact hp slot p _ hQ hjump

theorem stop (h : t.Every Q) {report : TickReport} {calls : List Call}
    (hQ : ∀ slot, Q id slot → Q id { slot with status := .stopped })
    (hstop : t.stop id = .ok (t', report, calls)) : t'.Every Q := by
  obtain ⟨-, -, ⟨-, rfl, -, -⟩ | ⟨-, rfl, -, -⟩⟩ := stop_eq_ok hstop
  · exact h
  · exact h.modify hQ

theorem advance (h : t.Every Q) {elapsed : Float}
    (halone : ∀ id slot, t.slots.get? id = some slot → Q id slot →
      Q id (slot.alone elapsed (coordinatesIn t.slots) (coordinatesAfter t.slots elapsed))) :
    { t with slots := (Tick.run t.slots elapsed).slots }.Every Q := by
  intro id slot hslot
  obtain ⟨old, hold, rfl⟩ :=
    Option.map_eq_some_iff.mp ((Tick.get?_run t.slots elapsed id).symm.trans hslot)
  exact halone id old hold (h id old hold)

theorem revoke (h : t.Every Q)
    (hdrop : ∀ id slot subscriber, Q id slot →
      Q id { slot with position := slot.position.dropMovement subscriber } ∧
      Q id { slot with position := slot.position.dropProximity subscriber })
    (rs : List Revocation) : { t with slots := rs.foldl Tracker.revoke t.slots }.Every Q := by
  induction rs generalizing t with
  | nil => exact h
  | cons r rs ih =>
    have hstep : { t with slots := Tracker.revoke t.slots r }.Every Q :=
      h.modify fun slot hQ => by
        obtain ⟨hmovement, hproximity⟩ := hdrop r.id slot r.subscriber hQ
        split
        · exact hproximity
        · exact hmovement
    exact ih hstep

end Every

/-! ### Order among the tracked positions -/

/-- Nothing broke off half-way, and every tracked position sits under its own identifier, with a
valid rule. -/
structure IsOrderly (t : Tracker) : Prop where
  /-- Nothing broke off half-way. -/
  intact : t.poisoned = false
  filed : ∀ id slot, t.slots.get? id = some slot → slot.position.IsFiled id

theorem IsOrderly.every (h : t.IsOrderly) : t.Every fun id slot => slot.position.IsFiled id :=
  h.filed

theorem poisoned_update {id : PositionId} {f : Tracked → Except TrackerError Tracked}
    (h : t.update id f = .ok t') : t'.poisoned = t.poisoned := by
  obtain ⟨-, -, -, -, rfl⟩ := update_eq_ok h
  rfl

theorem IsOrderly.update (h : t.IsOrderly) {id : PositionId}
    {f : Tracked → Except TrackerError Tracked}
    (hf : ∀ slot slot', slot.position.IsFiled id → f slot = .ok slot' → slot'.position.IsFiled id)
    (hupdate : t.update id f = .ok t') : t'.IsOrderly where
  intact := (poisoned_update hupdate).trans h.intact
  filed := h.every.update hf hupdate

theorem IsOrderly.track (h : t.IsOrderly) {p : Position} (htrack : t.track p = .ok t') :
    t'.IsOrderly where
  intact := by
    obtain ⟨-, -, rfl⟩ := track_eq_ok htrack
    exact h.intact
  filed := h.every.track (fun hvalid => ⟨rfl, hvalid⟩) htrack

theorem IsOrderly.untrack (h : t.IsOrderly) {id : PositionId} {p : Option Position}
    (huntrack : t.untrack id = .ok (p, t')) : t'.IsOrderly where
  intact := by
    rw [untrack_eq_ok huntrack]
    exact h.intact
  filed := h.every.untrack huntrack

theorem IsOrderly.setRule (h : t.IsOrderly) {id : PositionId} {rule : Rule Float}
    (hset : t.setRule id rule = .ok t') : t'.IsOrderly where
  intact := (poisoned_update hset).trans h.intact
  filed := h.every.setRule (fun _ _ hfiled => hfiled.setRule) hset

theorem IsOrderly.teleport (h : t.IsOrderly) {id : PositionId} {coords : Point}
    (hjump : t.teleport id coords = .ok t') : t'.IsOrderly where
  intact := (poisoned_update hjump).trans h.intact
  filed := h.every.teleport (fun _ _ _ hfiled => hfiled.teleport) hjump

theorem IsOrderly.halt (h : t.IsOrderly) (id : PositionId) : (t.halt id).IsOrderly := by
  unfold Tracker.halt
  split
  · next hset => exact h.setRule hset
  · exact h

theorem IsOrderly.release (h : t.IsOrderly) (id : PositionId) : (t.release id).IsOrderly := by
  unfold Tracker.release
  split
  · next huntrack => exact h.untrack huntrack
  · exact h

theorem IsOrderly.stop (h : t.IsOrderly) {id : PositionId} {report : TickReport}
    {calls : List Call} (hstop : t.stop id = .ok (t', report, calls)) : t'.IsOrderly where
  intact := (poisoned_stop hstop).trans h.intact
  filed := h.every.stop (fun _ hfiled => ⟨hfiled.id, hfiled.rule⟩) hstop

theorem IsOrderly.advance (h : t.IsOrderly) (elapsed : Float) :
    { t with slots := (Tick.run t.slots elapsed).slots }.IsOrderly where
  intact := h.intact
  filed := h.every.advance fun _ _ _ hfiled => hfiled.alone ..

theorem IsOrderly.of_entries {items : List Tracked} (hintact : t.poisoned = false)
    (hvalid : ∀ slot ∈ items, slot.position.rule.validate = .ok ())
    (hentries : t.slots.entries = items.map fun slot => (slot.position.id, slot)) :
    t.IsOrderly := by
  refine ⟨hintact, fun id slot hslot => ?_⟩
  rw [Table.get?_eq_some_iff, hentries] at hslot
  obtain ⟨item, hitem, heq⟩ := List.mem_map.mp hslot
  cases heq
  exact ⟨rfl, hvalid _ hitem⟩

theorem IsOrderly.revoke (h : t.IsOrderly) (rs : List Revocation) :
    { t with slots := rs.foldl Tracker.revoke t.slots }.IsOrderly where
  intact := h.intact
  filed := h.every.revoke
    (fun _ _ _ hfiled => ⟨⟨hfiled.id, hfiled.rule⟩, hfiled.id, hfiled.rule⟩) rs

end Tracker

/-! ### Entities -/

theorem Ship.id_absorb (s : Ship) (damage : UInt32) : (s.absorb damage).1.id = s.id := by
  unfold absorb
  split <;> rfl

/-- Every entity sits under its own name. -/
def Entities.IsFiled (es : Entities) : Prop := ∀ id e, es.get? id = some e → e.id = id

namespace Entities.IsFiled

variable {es es' : Entities} {id : EntityId}

theorem adjust (h : es.IsFiled) {f : Entity → Entity} (hf : ∀ e, e.id = id → (f e).id = id) :
    (es.adjust id f).IsFiled := by
  intro j e he
  rw [get?_adjust] at he
  split at he
  · next hj =>
    subst hj
    obtain ⟨old, hold, rfl⟩ := Option.map_eq_some_iff.mp he
    exact hf old (h j old hold)
  · exact h j e he

theorem adjustShip (h : es.IsFiled) {f : Ship → Ship} (hf : ∀ s, s.id = id → (f s).id = id) :
    (es.adjustShip id f).IsFiled :=
  h.adjust fun e he => by
    cases e with
    | ship s => exact hf s he
    | station _ | loot _ | deposit _ => exact he

theorem adjustDeposit (h : es.IsFiled) {f : Deposit → Deposit}
    (hf : ∀ d, d.id = id → (f d).id = id) : (es.adjustDeposit id f).IsFiled :=
  h.adjust fun e he => by
    cases e with
    | deposit d => exact hf d he
    | station _ | loot _ | ship _ => exact he

theorem putHold (h : es.IsFiled) (hold : Hold) : (es.putHold id hold).IsFiled :=
  h.adjust fun e he => by cases e <;> exact he

theorem putEvents (h : es.IsFiled) (events : EventTable) : (es.putEvents id events).IsFiled :=
  h.adjust fun e he => by cases e <;> exact he

theorem add (h : es.IsFiled) {e : Entity} (hadd : es.add e = .ok es') : es'.IsFiled := by
  obtain ⟨-, hget⟩ := get?_of_add hadd
  intro j e' he'
  rw [hget] at he'
  split at he'
  · next hj =>
    cases he'
    exact hj.symm
  · exact h j e' he'

theorem erase (h : es.IsFiled) (id : EntityId) : (es.erase id).IsFiled := by
  intro j e he
  rw [get?_erase] at he
  split at he
  · cases he
  · exact h j e he

theorem of_entries {items : List Entity}
    (h : es.table.entries = items.map fun e => (e.id, e)) : es.IsFiled := by
  intro id e he
  rw [get?, Table.get?_eq_some_iff, h] at he
  obtain ⟨item, hitem, heq⟩ := List.mem_map.mp he
  cases heq
  rfl

end Entities.IsFiled

end Orrery
