import Orrery.Proofs.Notices

/-!
# Crossings

A proximity watch evaluates the distance to its target in every tick in which both are tracked and
the advance of its own position does not fail (`Trail.evaluation?`).  It remembers on which side of
its threshold that was.  Nothing else changes what it remembers (`Trail.next_spec`), not even that
its position is not tracked for a while.

So what a watch reports depends on nothing but what it has evaluated since its registration.  The
changes of side alternate, and a watch reports those that its trigger asks for
(`Position.crossings_alternate`).
-/

namespace Orrery

/-! ### Runs -/

/-- Tracked positions, and one that is followed even when it is not among them. -/
structure Trail where
  /-- The identifier of the followed position. -/
  followed : PositionId
  tracker : Tracker := {}
  /-- The followed position, while it is not tracked. -/
  aside : Option Position := none

/-- Something that is done while a position is followed. -/
inductive Errand where
  | maneuver (m : Maneuver)
  /-- To track the followed position again. -/
  | retrack

namespace Maneuver

/-- Whether a maneuver takes a position away from a tracker. -/
def takesAway (m : Maneuver) (t : Tracker) (id : PositionId) : Bool :=
  match m with
  | untrack j => j = id && (m.commit t).isOk
  | restore _ => (m.commit t).isOk
  | _ => false

/-- Whether a maneuver does not drop the proximity watches that a subscriber has on a position. -/
def spares (m : Maneuver) (id : PositionId) (subscriber : String) : Bool :=
  match m with
  | dropWatches j s => !(j = id && subscriber = s)
  | prune rs => !decide (⟨id, true, subscriber⟩ ∈ rs)
  | _ => true

/-- The proximity watch that a maneuver registers on a position. -/
def newcomers (m : Maneuver) (id : PositionId) : List ProximityWatch :=
  match m with
  | watchProximity j w => if j = id then [w] else []
  | _ => []

end Maneuver

/-- The proximity watch that a notice belongs to, and what it reports. -/
def Notice.crossing? : Notice → Option ProximityHit
  | proximity hit => some hit
  | _ => none

namespace Trail

/-- A position that is about to be tracked, by a tracker that tracks nothing else. -/
def start (p : Position) : Trail := { followed := p.id, aside := some p }

variable (x : Trail)

/-- The followed position. -/
def position? : Option Position :=
  x.aside.or ((x.tracker.slots.get? x.followed).map (·.position))

/-- Does something.  A position that is taken away from the tracker is set aside. -/
def next : Errand → Trail
  | .maneuver m =>
    { x with
      tracker := x.tracker.afterOne m
      aside := if m.takesAway x.tracker x.followed then x.position? else x.aside }
  | .retrack =>
    match x.aside.map x.tracker.track with
    | some (.ok t) => { x with tracker := t, aside := none }
    | _ => x

/-- The trail after some errands. -/
def after (es : List Errand) : Trail := es.foldl next x

/-- The distance from the followed position to a target that its watches evaluate.  They do in a
tick if it is tracked and its advance does not fail, and the target is tracked. -/
def evaluation? (target : PositionId) (e : Errand) : Option Float :=
  match x.aside, e with
  | none, .maneuver (.tick elapsed) =>
    match x.tracker.advance elapsed with
    | .ok (t, report, _) =>
      if report.failed.any (·.1 = x.followed) then none else t.distanceBetween x.followed target
    | .error _ => none
  | _, _ => none

/-- What the proximity watches of the followed position report. -/
def hits (e : Errand) : List ProximityHit :=
  match x.aside, e with
  | none, .maneuver m =>
    match m.commit x.tracker with
    | .ok (_, _, calls) =>
      (calls.filter fun c => c.position.id = x.followed).filterMap (·.notice.crossing?)
    | .error _ => []
  | _, _ => []

/-- Whether an errand does not drop the proximity watches that a subscriber has on the followed
position. -/
def spares (e : Errand) (subscriber : String) : Bool :=
  match x.aside, e with
  | none, .maneuver m => m.spares x.followed subscriber
  | _, _ => true

/-- The proximity watch that an errand registers on the followed position. -/
def newcomers (e : Errand) : List ProximityWatch :=
  match x.aside, e with
  | none, .maneuver m => m.newcomers x.followed
  | _, _ => []

/-- The distances to a target that are evaluated in the course of some errands. -/
def distances (x : Trail) (target : PositionId) : List Errand → List Float
  | [] => []
  | e :: es => (x.evaluation? target e).toList ++ (x.next e).distances target es

end Trail

/-! ### Vigils -/

/-- The evaluations at which the side of a threshold changes, `side` being the one at first, and the
new side. -/
def crossings (threshold : Float) : Bool → List Float → List (Float × Bool)
  | _, [] => []
  | side, d :: ds =>
    let new := Scalar.le d threshold
    (if new != side then [(d, new)] else []) ++ crossings threshold new ds

/-- A proximity watch and its history. -/
structure Vigil where
  /-- The watch as it was registered. -/
  watch : ProximityWatch
  /-- Number of errands since then. -/
  age : Nat := 0
  /-- What it has evaluated since then. -/
  seen : List Float := []
  /-- What it has reported since then. -/
  told : List ProximityHit := []

namespace Vigil

variable (v : Vigil)

/-- Whether a distance is in range. -/
def reaches (d : Float) : Bool := Scalar.le d v.watch.distance

/-- The side of the last evaluation, or else that of the registration. -/
def side : Bool := (v.seen.getLast?.map v.reaches).getD v.watch.within

/-- The watch as it should be now. -/
def current : ProximityWatch := { v.watch with within := v.side }

/-- What should be reported of an evaluation: whether it is on the other side than the last one, if
the trigger asks for that. -/
def report? (d : Float) : Option ProximityHit :=
  if v.reaches d != v.side && v.watch.trigger.reports (v.reaches d) then
    some ⟨{ v.watch with within := v.reaches d }, d, v.reaches d⟩
  else none

/-- The history after one more errand. -/
def next (evaluated : Option Float) : Vigil :=
  { v with
    age := v.age + 1
    seen := v.seen ++ evaluated.toList
    told := v.told ++ (evaluated.bind v.report?).toList }

/-- The changes of side that a vigil has been through. -/
def changes : List (Float × Bool) := crossings v.watch.distance v.watch.within v.seen

/-- The changes of side that a vigil has reported. -/
def reported : List (Float × Bool) := v.told.map fun hit => (hit.distance, hit.entered)

end Vigil

namespace Trail

/-- The vigils after one more errand: some end with it, and another one may begin. -/
def nextVigils (x : Trail) (vs : List Vigil) (e : Errand) : List Vigil :=
  (vs.filter (x.spares e ·.watch.subscriber)).map
    (fun v => v.next (x.evaluation? v.watch.target e)) ++
    (x.newcomers e).map fun w => { watch := w }

/-- The vigils after some errands. -/
def vigils (x : Trail) (vs : List Vigil) : List Errand → List Vigil
  | [] => vs
  | e :: es => (x.next e).vigils (x.nextVigils vs e) es

end Trail

/-! ### One evaluation -/

namespace ProximityWatch

/-- The watch after an evaluation, if there is one. -/
def remeasured (w : ProximityWatch) (evaluated : Option Float) : ProximityWatch :=
  (evaluated.map fun d => (w.observe d).1).getD w

/-- What the watch reports of an evaluation, if there is one. -/
def hit? (w : ProximityWatch) (evaluated : Option Float) : Option ProximityHit :=
  evaluated.bind fun d => (w.observe d).2.map fun entered => ⟨(w.observe d).1, d, entered⟩

end ProximityWatch

theorem Position.dueProximity_eq (p : Position) (targets : Lookup) :
    p.dueProximity targets =
      (p.proximityWatches.filterMap fun w => w.hit? ((targets w.target).map p.coords.distance),
        { p with
          proximityWatches := p.proximityWatches.map fun w =>
            w.remeasured ((targets w.target).map p.coords.distance) }) := by
  have hmeasure : ∀ w, p.measure targets w =
      (w.remeasured ((targets w.target).map p.coords.distance),
        w.hit? ((targets w.target).map p.coords.distance)) := by
    intro w
    unfold measure
    cases targets w.target <;> rfl
  unfold dueProximity
  simp only [List.filterMap_map, List.map_map, Function.comp_def, hmeasure]

namespace Tracked

variable (t : Tracked) (elapsed : Float) (start current : Lookup)

/-- The distance to a target in a tick, unless the advance fails. -/
def measured? (target : PositionId) : Option Float :=
  (t.afterAdvance elapsed start).toOption.bind fun p => (current target).map p.coords.distance

theorem proximityWatches_of_afterAdvance {p : Position}
    (h : t.afterAdvance elapsed start = .ok p) :
    p.proximityWatches = t.position.proximityWatches := by
  unfold afterAdvance at h
  cases hstatus : t.status with
  | stopped =>
    rw [hstatus] at h
    cases h
    rfl
  | active =>
    rw [hstatus] at h
    obtain ⟨⟨p', changed⟩, hadvance, rfl⟩ := Except.map_eq_ok h
    obtain ⟨a, -, -, -, rfl⟩ := Position.advance_eq_ok hadvance
    cases changed <;> rfl

theorem proximityWatches_alone :
    (t.alone elapsed start current).position.proximityWatches =
      t.position.proximityWatches.map fun w =>
        w.remeasured (t.measured? elapsed start current w.target) := by
  unfold alone measured?
  cases h : t.afterAdvance elapsed start with
  | error e => exact (List.map_id _).symm
  | ok p =>
    simp only [Position.dueProximity_eq, t.proximityWatches_of_afterAdvance elapsed start h]
    rfl

theorem crossings_eq : t.crossings elapsed start current =
    t.position.proximityWatches.filterMap fun w =>
      w.hit? (t.measured? elapsed start current w.target) := by
  unfold Tracked.crossings measured?
  cases h : t.afterAdvance elapsed start with
  | error e => exact (List.filterMap_eq_nil_iff.mpr fun _ _ => rfl).symm
  | ok p =>
    simp only [Position.dueProximity_eq, t.proximityWatches_of_afterAdvance elapsed start h]
    rfl

/-- The calls of a tick that tell of crossings. -/
theorem filterMap_callsIn :
    (t.callsIn elapsed start current).filterMap (·.notice.crossing?) =
      t.crossings elapsed start current := by
  have hmoved : ∀ hits : List MovementHit,
      (hits.map Notice.moved).filterMap Notice.crossing? = [] := fun hits => by
    simp [List.filterMap_map, Function.comp_def, Notice.crossing?]
  have hstopped : ∀ ws : List MovementWatch,
      (ws.map Notice.stopped).filterMap Notice.crossing? = [] := fun ws => by
    simp [List.filterMap_map, Function.comp_def, Notice.crossing?]
  have hcrossed : ∀ hits : List ProximityHit,
      (hits.map Notice.proximity).filterMap Notice.crossing? = hits := fun hits => by
    rw [List.filterMap_map]
    exact List.filterMap_some
  unfold callsIn
  rw [List.filterMap_map]
  show List.filterMap Notice.crossing? _ = _
  rw [List.filterMap_append, List.filterMap_append, hmoved, hstopped, hcrossed, List.nil_append,
    List.append_nil]

end Tracked

/-! ### One commit -/

namespace Tracker

variable {t t' : Tracker} {id : PositionId} {elapsed : Float}

/-- The report names a tracked position just if its advance fails. -/
theorem any_failed_run {slots : Table PositionId Tracked} {slot : Tracked}
    (h : slots.get? id = some slot) :
    (Tick.run slots elapsed).report.failed.any (·.1 = id) =
      (slot.afterAdvance elapsed (coordinatesIn slots)).toOption.isNone := by
  obtain ⟨-, hreport, -⟩ := Tick.run_spec slots elapsed
  generalize coordinatesIn slots = start at hreport ⊢
  have hfailure : (slot.stride elapsed start).failure.isSome =
      (slot.afterAdvance elapsed start).toOption.isNone := by
    obtain ⟨e, -, -, hafter, hstride⟩ | ⟨p, hafter, hfailure, -⟩ :=
      slot.stride_cases elapsed start
    · rw [hafter, hstride]
      rfl
    · rw [hafter, hfailure]
      rfl
  rw [hreport, ← hfailure, Bool.eq_iff_iff]
  simp only [Tick.firstReport, List.any_eq_true, List.mem_filterMap, Option.map_eq_some_iff,
    decide_eq_true_eq, Option.isSome_iff_exists]
  constructor
  · rintro ⟨⟨j, e⟩, ⟨⟨j', slot'⟩, hmem, e', hfailed, heq⟩, hj⟩
    cases heq
    cases hj
    obtain rfl := Option.some.inj ((Table.get?_eq_some_iff.mpr hmem).symm.trans h)
    exact ⟨e, hfailed⟩
  · rintro ⟨e, hfailed⟩
    exact ⟨(id, e), ⟨(id, slot), Table.get?_eq_some_iff.mp h, e, hfailed, rfl⟩, rfl⟩

/-- The calls of a tick that tell of crossings of one position. -/
theorem filterMap_calls_run (ht : t.IsOrderly) {slot : Tracked}
    (h : t.slots.get? id = some slot) :
    ((Tick.run t.slots elapsed).calls.filter fun c => c.position.id = id).filterMap
        (·.notice.crossing?) =
      slot.crossings elapsed (coordinatesIn t.slots) (coordinatesAfter t.slots elapsed) := by
  obtain ⟨-, -, hcalls⟩ := Tick.run_spec t.slots elapsed
  generalize coordinatesIn t.slots = start at hcalls ⊢
  generalize coordinatesAfter t.slots elapsed = current at hcalls ⊢
  -- all calls of a position carry its own identifier
  have hid : ∀ j slot, (j, slot) ∈ t.slots.entries →
      ∀ c ∈ Tick.callsOf slot elapsed start current, c.position.id = j := by
    intro j slot hslot c hc
    rw [slot.callsOf_eq] at hc
    obtain ⟨n, -, rfl⟩ := List.mem_map.mp hc
    exact ((ht.filed j slot (Table.get?_eq_some_iff.mpr hslot)).alone elapsed start current).id
  have hown := t.slots.filter_flatMap (f := fun slot => Tick.callsOf slot elapsed start current)
    (q := fun c => c.position.id = id) (k := id) fun j slot hslot hj =>
      List.filter_eq_nil_iff.mpr fun c hc => by simpa using (hid j slot hslot c hc).symm ▸ hj
  have hall : (Tick.callsOf slot elapsed start current).filter (fun c => c.position.id = id) =
      Tick.callsOf slot elapsed start current :=
    List.filter_eq_self.mpr fun c hc => by
      simpa using hid id slot (Table.get?_eq_some_iff.mp h) c hc
  rw [hcalls, hown, h, Option.map_some, Option.getD_some, hall, slot.callsOf_eq,
    slot.filterMap_callsIn]

/-- The proximity watches of a tracked position. -/
def proximityWatches? (t : Tracker) (id : PositionId) : Option (List ProximityWatch) :=
  (t.slots.get? id).map (·.position.proximityWatches)

/-- A change of one position that leaves its proximity watches as they are. -/
theorem proximityWatches?_modify {j : PositionId} {f : Tracked → Tracked}
    (h : ∀ slot, t.slots.get? j = some slot →
      (f slot).position.proximityWatches = slot.position.proximityWatches) :
    proximityWatches? { t with slots := t.slots.modify j f } id = t.proximityWatches? id :=
  t.slots.map_get?_modify (·.position.proximityWatches) h id

theorem proximityWatches?_update {j : PositionId} {f : Tracked → Except TrackerError Tracked}
    (hf : ∀ slot slot', f slot = .ok slot' →
      slot'.position.proximityWatches = slot.position.proximityWatches)
    (h : t.update j f = .ok t') : t'.proximityWatches? id = t.proximityWatches? id := by
  obtain ⟨slot, slot', hslot, hslot', rfl⟩ := update_eq_ok h
  refine proximityWatches?_modify fun old hold => ?_
  obtain rfl := Option.some.inj (hslot.symm.trans hold)
  exact hf slot slot' hslot'

theorem proximityWatches?_setRule {j : PositionId} {rule : Rule Float}
    (h : t.setRule j rule = .ok t') : t'.proximityWatches? id = t.proximityWatches? id := by
  refine proximityWatches?_update (fun slot slot' hslot => ?_) h
  split at hslot
  · cases hslot
  · next p hp =>
    obtain ⟨-, rfl⟩ := Position.setRule_eq_ok hp
    cases hslot
    rfl

/-- A commit that is not a tick drops and adds proximity watches, and leaves the others as they
are. -/
theorem proximityWatches?_commit (ht : t.IsOrderly) {slot : Tracked}
    (hslot : t.slots.get? id = some slot) {m : Maneuver} {report : TickReport} {calls : List Call}
    (hcommit : m.commit t = .ok (t', report, calls)) (hstays : m.takesAway t id = false)
    (hm : ∀ elapsed, m ≠ .tick elapsed) :
    t'.proximityWatches? id =
      some (slot.position.proximityWatches.filter (m.spares id ·.subscriber) ++
        m.newcomers id) := by
  have hsame : t.proximityWatches? id = some slot.position.proximityWatches := by
    rw [proximityWatches?, hslot]
    rfl
  have hidle : t'.proximityWatches? id = t.proximityWatches? id →
      t'.proximityWatches? id =
        some (slot.position.proximityWatches.filter (fun _ => true) ++ []) := by
    intro h
    rw [h, hsame, List.append_nil, List.filter_true]
  cases m with
  | track p =>
    refine hidle ?_
    obtain ⟨-, hnew, rfl⟩ := track_eq_ok (Maneuver.quietly_eq_ok hcommit).1
    have hid : id ≠ p.id := by
      rintro rfl
      rw [hslot] at hnew
      cases hnew
    simp only [proximityWatches?, Table.get?_insert, if_neg hid]
  | untrack j =>
    refine hidle ?_
    have hid : id ≠ j := by
      rintro rfl
      simp [Maneuver.takesAway, hcommit, Except.isOk, Except.toBool] at hstays
    obtain ⟨⟨p, t''⟩, huntrack, rfl⟩ := Except.map_eq_ok (Maneuver.quietly_eq_ok hcommit).1
    rw [untrack_eq_ok huntrack]
    simp only [proximityWatches?, Table.get?_erase, if_neg hid]
  | setRule j rule => exact hidle (proximityWatches?_setRule (Maneuver.quietly_eq_ok hcommit).1)
  | halt j =>
    refine hidle ?_
    cases (Maneuver.quietly_eq_ok hcommit).1
    unfold Tracker.halt
    split
    · next hset => exact proximityWatches?_setRule hset
    · rfl
  | teleport j coords =>
    refine hidle (proximityWatches?_update (fun slot slot' hslot => ?_)
      (Maneuver.quietly_eq_ok hcommit).1)
    split at hslot
    · cases hslot
    · next p hp =>
      obtain ⟨-, rfl⟩ := Position.teleport_eq_ok hp
      cases hslot
      rfl
  | stop j =>
    refine hidle ?_
    have hstop : t.stop j = .ok (t', report, calls) := hcommit
    obtain ⟨-, -, ⟨-, rfl, -, -⟩ | ⟨-, rfl, -, -⟩⟩ := stop_eq_ok hstop
    · rfl
    · exact proximityWatches?_modify fun _ _ => rfl
  | watchMovement j w =>
    refine hidle (proximityWatches?_update (fun slot slot' hslot => ?_)
      (Maneuver.quietly_eq_ok hcommit).1)
    cases hslot
    rfl
  | watchProximity j w =>
    obtain ⟨slot', slot'', hslot', hw, rfl⟩ := update_eq_ok (Maneuver.quietly_eq_ok hcommit).1
    cases hw
    simp only [proximityWatches?, Maneuver.spares, Maneuver.newcomers, Table.get?_modify,
      List.filter_true]
    by_cases hid : id = j
    · subst hid
      obtain rfl := Option.some.inj (hslot.symm.trans hslot')
      rw [if_pos rfl, if_pos rfl, hslot]
      rfl
    · rw [if_neg hid, if_neg (Ne.symm hid), hslot, List.append_nil]
      rfl
  | dropWatches j subscriber =>
    obtain ⟨⟨n, t''⟩, hdrop, rfl⟩ := Except.map_eq_ok (Maneuver.quietly_eq_ok hcommit).1
    obtain ⟨slot', slot'', hslot', hw, rfl⟩ := update_eq_ok (dropWatches_eq_ok hdrop)
    cases hw
    simp only [proximityWatches?, Maneuver.spares, Maneuver.newcomers, Table.get?_modify,
      List.append_nil]
    by_cases hid : id = j
    · subst hid
      obtain rfl := Option.some.inj (hslot.symm.trans hslot')
      rw [if_pos rfl, hslot]
      simp [Position.dropProximity, Position.dropMovement, bne, beq_eq_decide]
    · rw [if_neg hid, hslot]
      simp [Ne.symm hid]
  | tick elapsed => exact absurd rfl (hm elapsed)
  | prune rs =>
    obtain ⟨⟨n, t''⟩, hprune, rfl⟩ := Except.map_eq_ok (Maneuver.quietly_eq_ok hcommit).1
    obtain ⟨n', hpruned, -⟩ := t.prune_spec ht.intact rs
    rw [hprune] at hpruned
    cases hpruned
    rw [proximityWatches?, get?_retain, hslot]
    exact congrArg some (List.append_nil _).symm
  | restore slots =>
    simp [Maneuver.takesAway, hcommit, Except.isOk, Except.toBool] at hstays

/-- A refused maneuver was not about to drop or add proximity watches of a tracked position. -/
theorem spares_of_refused (ht : t.IsOrderly) {slot : Tracked}
    (hslot : t.slots.get? id = some slot) {m : Maneuver} {e : TrackerError}
    (hcommit : m.commit t = .error e) : (∀ s, m.spares id s = true) ∧ m.newcomers id = [] := by
  cases m with
  | track | untrack | setRule | halt | teleport | stop | watchMovement | tick | restore =>
    exact ⟨fun _ => rfl, rfl⟩
  | watchProximity j w =>
    refine ⟨fun _ => rfl, if_neg ?_⟩
    rintro rfl
    simp only [Maneuver.commit, watchProximity, update_of_get? ht.intact hslot] at hcommit
    cases hcommit
  | dropWatches j subscriber =>
    refine ⟨fun s => ?_, rfl⟩
    have hid : j ≠ id := by
      rintro rfl
      simp only [Maneuver.commit, dropWatches, require_of_get? ht.intact hslot,
        update_of_get? ht.intact hslot] at hcommit
      cases hcommit
    simp [Maneuver.spares, hid]
  | prune rs =>
    obtain ⟨n, hprune⟩ := exists_prune_eq_ok ht.intact rs
    simp only [Maneuver.commit, hprune] at hcommit
    cases hcommit

/-- Only a tick tells of crossings. -/
theorem crossing?_of_mem_calls {m : Maneuver} {report : TickReport} {calls : List Call}
    (hcommit : m.commit t = .ok (t', report, calls)) (hm : ∀ elapsed, m ≠ .tick elapsed) :
    ∀ c ∈ calls, c.notice.crossing? = none := by
  cases m with
  | track | untrack | setRule | halt | teleport | watchMovement | watchProximity | dropWatches |
      prune | restore =>
    rw [(Maneuver.quietly_eq_ok hcommit).2.2]
    exact fun _ hc => absurd hc List.not_mem_nil
  | stop j =>
    have hstop : t.stop j = .ok (t', report, calls) := hcommit
    obtain ⟨slot, -, ⟨-, -, -, rfl⟩ | ⟨-, -, -, rfl⟩⟩ := stop_eq_ok hstop
    · exact fun _ hc => absurd hc List.not_mem_nil
    · intro c hc
      obtain ⟨n, hn, rfl⟩ := List.mem_map.mp hc
      obtain ⟨w, -, rfl⟩ := List.mem_map.mp hn
      rfl
  | tick elapsed => exact absurd rfl (hm elapsed)

end Tracker

/-! ### One errand -/

namespace Trail

variable {x : Trail}

/-- The tracker can be trusted, and the followed position is known, under its own identifier. -/
structure IsSound (x : Trail) : Prop where
  orderly : x.tracker.IsOrderly
  known : (∃ p, x.aside = some p ∧ p.id = x.followed) ∨
    (x.aside = none ∧ ∃ slot, x.tracker.slots.get? x.followed = some slot)

theorem isSound_start (p : Position) : (start p).IsSound :=
  ⟨Tracker.isOrderly_empty, .inl ⟨p, rfl, rfl⟩⟩

/-- The proximity watches of the followed position. -/
def watches? (x : Trail) : Option (List ProximityWatch) := x.position?.map (·.proximityWatches)

/-- What an errand makes of some proximity watches of the followed position. -/
def served (x : Trail) (e : Errand) (ws : List ProximityWatch) : List ProximityWatch :=
  (ws.filter (x.spares e ·.subscriber)).map (fun w => w.remeasured (x.evaluation? w.target e)) ++
    x.newcomers e

/-- What an errand makes some proximity watches of the followed position report. -/
def reported (x : Trail) (e : Errand) (ws : List ProximityWatch) : List ProximityHit :=
  ws.filterMap fun w => w.hit? (x.evaluation? w.target e)

/-- Without an evaluation no watch changes, and none reports. -/
theorem served_of_unmeasured {e : Errand} (h : ∀ target, x.evaluation? target e = none)
    (ws : List ProximityWatch) :
    x.served e ws = ws.filter (x.spares e ·.subscriber) ++ x.newcomers e ∧
      x.reported e ws = [] := by
  refine ⟨?_, List.filterMap_eq_nil_iff.mpr fun w _ => by rw [h]; rfl⟩
  simp only [served, h]
  exact congrArg (· ++ x.newcomers e) (List.map_id _)

/-- An errand that does not evaluate, drop or add anything. -/
theorem served_of_idle {e : Errand} (hmeasured : ∀ target, x.evaluation? target e = none)
    (hspares : ∀ s, x.spares e s = true) (hnewcomers : x.newcomers e = [])
    (ws : List ProximityWatch) : x.served e ws = ws ∧ x.reported e ws = [] := by
  obtain ⟨hserved, hreported⟩ := served_of_unmeasured hmeasured ws
  refine ⟨?_, hreported⟩
  rw [hserved, hnewcomers, List.append_nil, List.filter_eq_self.mpr fun w _ => hspares _]

/-- Only a tick evaluates anything, and only a tick makes proximity watches report. -/
theorem unmeasured_of_not_tick {m : Maneuver} (hm : ∀ elapsed, m ≠ .tick elapsed) :
    (∀ target, x.evaluation? target (.maneuver m) = none) ∧ x.hits (.maneuver m) = [] := by
  refine ⟨fun target => ?_, ?_⟩
  · unfold evaluation?
    split
    · next elapsed _ heq => exact absurd (Errand.maneuver.inj heq) (hm elapsed)
    · rfl
  · unfold hits
    split
    · next heq =>
      cases heq
      split
      · next hcommit =>
        refine List.filterMap_eq_nil_iff.mpr fun c hc => ?_
        exact Tracker.crossing?_of_mem_calls hcommit hm c (List.mem_filter.mp hc).1
      · rfl
    · rfl

section Tracked

variable (h : x.IsSound) (haside : x.aside = none) {slot : Tracked}
  (hslot : x.tracker.slots.get? x.followed = some slot)

include h haside hslot

/-- What a tick measures. -/
theorem evaluation?_tick (elapsed : Float) (target : PositionId) :
    x.evaluation? target (.maneuver (.tick elapsed)) =
      slot.measured? elapsed (Tracker.coordinatesIn x.tracker.slots)
        (Tracker.coordinatesAfter x.tracker.slots elapsed) target := by
  have hcurrent := Tracker.Tick.coordinatesIn_run x.tracker.slots elapsed
  simp only [evaluation?, haside, Tracker.advance_eq_ok h.orderly.intact,
    Tracker.any_failed_run hslot, Tracker.distanceBetween, Tracker.coordinatesOf,
    h.orderly.intact, Bool.false_eq_true, ↓reduceIte, hcurrent, Tracked.measured?]
  cases hafter : slot.afterAdvance elapsed (Tracker.coordinatesIn x.tracker.slots) with
  | error e => rfl
  | ok p =>
    have hown : Tracker.coordinatesAfter x.tracker.slots elapsed x.followed = some p.coords := by
      rw [Tracker.coordinatesAfter, hslot, Option.map_some, Tracked.coordsAfter, hafter]
    rw [hown]
    cases Tracker.coordinatesAfter x.tracker.slots elapsed target <;> rfl

/-- What a tick makes of the proximity watches of the followed position. -/
theorem served_tick (elapsed : Float) :
    (x.tracker.afterOne (.tick elapsed)).proximityWatches? x.followed =
        some (x.served (.maneuver (.tick elapsed)) slot.position.proximityWatches) ∧
      x.hits (.maneuver (.tick elapsed)) =
        x.reported (.maneuver (.tick elapsed)) slot.position.proximityWatches := by
  have hcommit : (Maneuver.tick elapsed).commit x.tracker = _ :=
    Tracker.advance_eq_ok h.orderly.intact elapsed
  have hmeasured := evaluation?_tick h haside hslot elapsed
  refine ⟨?_, ?_⟩
  · rw [Tracker.afterOne_of_ok hcommit, Tracker.proximityWatches?]
    simp only [Tracker.Tick.get?_run, hslot, Option.map_some, Tracked.proximityWatches_alone,
      served, hmeasured, spares, newcomers, haside, Maneuver.spares, Maneuver.newcomers,
      List.filter_true, List.append_nil]
  · simp only [hits, haside, hcommit, Tracker.filterMap_calls_run h.orderly hslot,
      Tracked.crossings_eq, reported, hmeasured]

/-- What a maneuver makes of the proximity watches of the followed position, if that stays
tracked. -/
theorem served_of_stays {m : Maneuver} (hstays : m.takesAway x.tracker x.followed = false) :
    (x.tracker.afterOne m).proximityWatches? x.followed =
        some (x.served (.maneuver m) slot.position.proximityWatches) ∧
      x.hits (.maneuver m) = x.reported (.maneuver m) slot.position.proximityWatches := by
  by_cases htick : ∃ elapsed, m = .tick elapsed
  · obtain ⟨elapsed, rfl⟩ := htick
    exact served_tick h haside hslot elapsed
  · have hm : ∀ elapsed, m ≠ .tick elapsed := fun elapsed heq => htick ⟨elapsed, heq⟩
    obtain ⟨hunmeasured, hhits⟩ := unmeasured_of_not_tick (x := x) hm
    obtain ⟨hserved, hreported⟩ :=
      served_of_unmeasured hunmeasured slot.position.proximityWatches
    refine ⟨?_, by rw [hhits, hreported]⟩
    rw [hserved]
    simp only [spares, newcomers, haside, Tracker.afterOne]
    cases hcommit : m.commit x.tracker with
    | error e =>
      obtain ⟨hall, hnone⟩ := Tracker.spares_of_refused h.orderly hslot hcommit
      rw [hnone, List.append_nil, List.filter_eq_self.mpr fun w _ => hall _,
        Tracker.proximityWatches?, hslot]
      rfl
    | ok r => exact Tracker.proximityWatches?_commit h.orderly hslot hcommit hstays hm

omit h hslot in
/-- Nothing happens to the proximity watches of a position that is taken away from the tracker. -/
theorem served_of_takesAway {m : Maneuver} (hgoes : m.takesAway x.tracker x.followed = true)
    (ws : List ProximityWatch) :
    x.served (.maneuver m) ws = ws ∧ x.hits (.maneuver m) = x.reported (.maneuver m) ws := by
  have hidle : (∀ elapsed, m ≠ .tick elapsed) ∧ (∀ s, m.spares x.followed s = true) ∧
      m.newcomers x.followed = [] := by
    cases m with
    | untrack | restore => exact ⟨nofun, fun _ => rfl, rfl⟩
    | track | setRule | halt | teleport | stop | watchMovement | watchProximity | dropWatches |
        tick | prune => cases hgoes
  obtain ⟨hm, hspares, hnewcomers⟩ := hidle
  obtain ⟨hunmeasured, hhits⟩ := unmeasured_of_not_tick (x := x) hm
  obtain ⟨hserved, hreported⟩ := served_of_idle hunmeasured
    (fun s => by simp only [spares, haside, hspares]) (by simp only [newcomers, haside, hnewcomers])
    ws
  exact ⟨hserved, by rw [hhits, hreported]⟩

/-- An errand, while the followed position is tracked. -/
theorem next_of_tracked (e : Errand) :
    (x.next e).IsSound ∧
      (x.next e).watches? = some (x.served e slot.position.proximityWatches) ∧
      x.hits e = x.reported e slot.position.proximityWatches := by
  have hposition : x.position? = some slot.position := by
    rw [position?, haside, hslot]
    rfl
  cases e with
  | retrack =>
    have hnext : x.next .retrack = x := by simp only [next, haside, Option.map_none]
    obtain ⟨hserved, hreported⟩ := served_of_idle (x := x) (e := .retrack)
      (fun _ => by simp only [evaluation?, haside]) (fun _ => by simp only [spares, haside])
      (by simp only [newcomers, haside]) slot.position.proximityWatches
    refine ⟨hnext.symm ▸ h, ?_, ?_⟩
    · rw [hnext, hserved, watches?, hposition]
      rfl
    · rw [hreported]
      simp only [hits, haside]
  | maneuver m =>
    have horderly : (x.tracker.afterOne m).IsOrderly := Tracker.isOrderly_after h.orderly [m]
    cases hgoes : m.takesAway x.tracker x.followed with
    | true =>
      have hnext : x.next (.maneuver m) =
          { x with tracker := x.tracker.afterOne m, aside := some slot.position } := by
        simp only [next, hgoes, hposition, ↓reduceIte]
      obtain ⟨hserved, hhits⟩ :=
        served_of_takesAway haside hgoes slot.position.proximityWatches
      rw [hnext, hserved]
      exact ⟨⟨horderly, .inl ⟨_, rfl, (h.orderly.filed _ _ hslot).id⟩⟩, rfl, hhits⟩
    | false =>
      have hnext : x.next (.maneuver m) = { x with tracker := x.tracker.afterOne m } := by
        simp only [next, hgoes, Bool.false_eq_true, ↓reduceIte]
      obtain ⟨hserved, hhits⟩ := served_of_stays h haside hslot hgoes
      obtain ⟨slot', hslot', hwatches⟩ := Option.map_eq_some_iff.mp hserved
      rw [hnext, ← hwatches]
      refine ⟨⟨horderly, .inr ⟨haside, slot', hslot'⟩⟩, ?_, hhits⟩
      simp only [watches?, position?, haside, hslot']
      rfl

end Tracked

/-- An errand, while the followed position is set aside. -/
theorem next_of_aside (h : x.IsSound) {p : Position} (haside : x.aside = some p)
    (hid : p.id = x.followed) (e : Errand) :
    (x.next e).IsSound ∧ (x.next e).position? = some p ∧
      x.served e p.proximityWatches = p.proximityWatches ∧
      x.hits e = x.reported e p.proximityWatches := by
  have hposition : x.position? = some p := by
    rw [position?, haside]
    rfl
  obtain ⟨hserved, hreported⟩ := served_of_idle (x := x) (e := e)
    (fun _ => by simp only [evaluation?, haside]) (fun _ => by simp only [spares, haside])
    (by simp only [newcomers, haside]) p.proximityWatches
  have hhits : x.hits e = x.reported e p.proximityWatches := by
    rw [hreported]
    simp only [hits, haside]
  suffices hnext : (x.next e).IsSound ∧ (x.next e).position? = some p from
    ⟨hnext.1, hnext.2, hserved, hhits⟩
  cases e with
  | maneuver m =>
    have hnext : x.next (.maneuver m) = { x with tracker := x.tracker.afterOne m } := by
      simp only [next, hposition, haside, ite_self]
    rw [hnext]
    refine ⟨⟨Tracker.isOrderly_after h.orderly [m], .inl ⟨p, haside, hid⟩⟩, ?_⟩
    simp only [position?, haside]
    rfl
  | retrack =>
    cases htrack : x.tracker.track p with
    | error e =>
      have hnext : x.next .retrack = x := by simp only [next, haside, Option.map_some, htrack]
      rw [hnext]
      exact ⟨h, hposition⟩
    | ok t =>
      have hnext : x.next .retrack = { x with tracker := t, aside := none } := by
        simp only [next, haside, Option.map_some, htrack]
      have hslot : t.slots.get? x.followed = some { position := p } := by
        obtain ⟨-, -, rfl⟩ := Tracker.track_eq_ok htrack
        rw [Table.get?_insert, if_pos hid.symm]
      rw [hnext]
      refine ⟨⟨h.orderly.track htrack, .inr ⟨rfl, _, hslot⟩⟩, ?_⟩
      simp only [position?, hslot]
      rfl

/-- What an errand makes of the proximity watches of the followed position, and what it makes them
report. -/
theorem next_spec (h : x.IsSound) (e : Errand) :
    (x.next e).IsSound ∧ ∃ ws, x.watches? = some ws ∧
      (x.next e).watches? = some (x.served e ws) ∧ x.hits e = x.reported e ws := by
  obtain ⟨p, haside, hid⟩ | ⟨haside, slot, hslot⟩ := h.known
  · obtain ⟨hsound, hposition, hserved, hhits⟩ := next_of_aside h haside hid e
    refine ⟨hsound, p.proximityWatches, ?_, ?_, hhits⟩
    · rw [watches?, position?, haside]
      rfl
    · rw [hserved, watches?, hposition]
      rfl
  · obtain ⟨hsound, hwatches, hhits⟩ := next_of_tracked h haside hslot e
    refine ⟨hsound, slot.position.proximityWatches, ?_, hwatches, hhits⟩
    rw [watches?, position?, haside, hslot]
    rfl

theorem after_concat (x : Trail) (es : List Errand) (e : Errand) :
    x.after (es ++ [e]) = (x.after es).next e := by
  simp [after]

theorem distances_concat (x : Trail) (target : PositionId) (es : List Errand) (e : Errand) :
    x.distances target (es ++ [e]) =
      x.distances target es ++ ((x.after es).evaluation? target e).toList := by
  induction es generalizing x with
  | nil => exact List.append_nil _
  | cons e' es ih =>
    rw [List.cons_append, distances, ih, distances, List.append_assoc]
    rfl

theorem vigils_concat (x : Trail) (vs : List Vigil) (es : List Errand) (e : Errand) :
    x.vigils vs (es ++ [e]) = (x.after es).nextVigils (x.vigils vs es) e := by
  induction es generalizing x vs with
  | nil => rfl
  | cons e' es ih => exact ih ..

end Trail

/-! ### One vigil -/

theorem crossings_cons (threshold : Float) (side : Bool) (d : Float) (ds : List Float) :
    crossings threshold side (d :: ds) =
      (if Scalar.le d threshold != side then [(d, Scalar.le d threshold)] else []) ++
        crossings threshold (Scalar.le d threshold) ds := rfl

/-- The changes of side alternate. -/
theorem isChain_crossings (threshold : Float) (side : Bool) (ds : List Float) :
    List.IsChain (· ≠ ·) (side :: (crossings threshold side ds).map (·.2)) := by
  induction ds generalizing side with
  | nil => exact .singleton _
  | cons d ds ih =>
    have hrest := ih (Scalar.le d threshold)
    rw [crossings_cons]
    by_cases hsame : Scalar.le d threshold = side
    · rw [hsame] at hrest ⊢
      simpa using hrest
    · simpa [hsame, Ne.symm hsame] using hrest

theorem crossings_concat (threshold : Float) (side : Bool) (ds : List Float) (d : Float) :
    crossings threshold side (ds ++ [d]) = crossings threshold side ds ++
      crossings threshold ((ds.getLast?.map (Scalar.le · threshold)).getD side) [d] := by
  induction ds generalizing side with
  | nil => rfl
  | cons d' ds ih =>
    rw [List.cons_append, crossings_cons, ih, crossings_cons threshold side d' ds,
      List.append_assoc, List.getLast?_cons]
    cases ds.getLast? <;> rfl

namespace Vigil

variable (v : Vigil)

/-- An evaluation settles the side, and nothing else does. -/
theorem side_next (evaluated : Option Float) :
    (v.next evaluated).side = (evaluated.map v.reaches).getD v.side := by
  cases evaluated with
  | none =>
    simp only [next, side, Option.toList_none, List.append_nil]
    rfl
  | some d => simp [next, side, reaches]

theorem current_next (evaluated : Option Float) :
    (v.next evaluated).current = v.current.remeasured evaluated := by
  rw [current, side_next]
  cases evaluated <;> rfl

theorem bind_report? (evaluated : Option Float) :
    evaluated.bind v.report? = v.current.hit? evaluated := by
  cases evaluated with
  | none => rfl
  | some d =>
    have hobserved : v.current.observe d = ({ v.watch with within := v.reaches d },
        if v.reaches d != v.side && v.watch.trigger.reports (v.reaches d) then some (v.reaches d)
        else none) := rfl
    rw [Option.bind_some, report?, ProximityWatch.hit?, Option.bind_some, hobserved]
    split
    · rfl
    · rfl

/-- One more evaluation is a change if it is on the other side. -/
theorem changes_next (evaluated : Option Float) :
    (v.next evaluated).changes = v.changes ++
      ((evaluated.filter fun d => v.reaches d != v.side).map fun d => (d, v.reaches d)).toList := by
  cases evaluated with
  | none => simp [changes, next]
  | some d =>
    simp only [changes, next, Option.toList_some, crossings_concat]
    refine congrArg (v.changes ++ ·) ?_
    simp only [crossings, List.append_nil, Option.filter]
    show (if v.reaches d != v.side then _ else _) = _
    split <;> rfl

/-- Those changes are reported that the trigger asks for. -/
theorem reported_next (h : v.reported = v.changes.filter fun c => v.watch.trigger.reports c.2)
    (evaluated : Option Float) :
    (v.next evaluated).reported =
      (v.next evaluated).changes.filter fun c => v.watch.trigger.reports c.2 := by
  have hone : ((evaluated.bind v.report?).toList.map fun hit => (hit.distance, hit.entered)) =
      ((evaluated.filter fun d => v.reaches d != v.side).map fun d =>
        (d, v.reaches d)).toList.filter fun c => v.watch.trigger.reports c.2 := by
    cases evaluated with
    | none => rfl
    | some d =>
      rw [Option.bind_some, report?, Option.filter]
      by_cases hcrosses : (v.reaches d != v.side) = true
      · by_cases hreports : v.watch.trigger.reports (v.reaches d) = true <;>
          simp [hcrosses, hreports]
      · simp [hcrosses]
  rw [changes_next, List.filter_append, ← h, ← hone]
  exact List.map_append

/-- What a vigil has on record is what has happened since its registration. -/
structure IsTrue (v : Vigil) (x : Trail) (es : List Errand) : Prop where
  /-- It has seen every evaluation of its target. -/
  seen : ∃ before since, es = before ++ since ∧ since.length = v.age ∧
    v.seen = (x.after before).distances v.watch.target since
  /-- It has reported the changes that its trigger asks for. -/
  told : v.reported = v.changes.filter fun c => v.watch.trigger.reports c.2

variable {v}

theorem IsTrue.next {x : Trail} {es : List Errand} (h : v.IsTrue x es) (e : Errand) :
    (v.next ((x.after es).evaluation? v.watch.target e)).IsTrue x (es ++ [e]) := by
  obtain ⟨before, since, rfl, hage, hseen⟩ := h.seen
  refine ⟨⟨before, since ++ [e], List.append_assoc .., ?_, ?_⟩, v.reported_next h.told _⟩
  · rw [List.length_append, hage]
    rfl
  · have hafter : x.after (before ++ since) = (x.after before).after since := List.foldl_append ..
    rw [Trail.distances_concat, ← hafter]
    exact congrArg (· ++ _) hseen

/-- Vigils of the same age have seen the same of the same target. -/
theorem IsTrue.seen_eq {c : Vigil} {x : Trail} {es : List Errand} (hc : c.IsTrue x es)
    (hv : v.IsTrue x es) (hage : c.age = v.age) (htarget : c.watch.target = v.watch.target) :
    c.seen = v.seen := by
  obtain ⟨before, since, hsplit, hlength, hseen⟩ := hc.seen
  obtain ⟨before', since', hsplit', hlength', hseen'⟩ := hv.seen
  obtain ⟨rfl, rfl⟩ := List.append_inj' (hsplit.symm.trans hsplit')
    (hlength.trans (hage.trans hlength'.symm))
  rw [hseen, hseen', htarget]

theorem isTrue_of_new (w : ProximityWatch) (x : Trail) (es : List Errand) :
    Vigil.IsTrue { watch := w } x es :=
  ⟨⟨es, [], (List.append_nil es).symm, rfl, rfl⟩, rfl⟩

end Vigil

/-! ### All vigils -/

/-- The vigils of a position that is about to be tracked, after some errands. -/
def Position.vigils (p : Position) (es : List Errand) : List Vigil :=
  (Trail.start p).vigils (p.proximityWatches.map fun w => { watch := w }) es

namespace Trail

/-- A tick ends no vigil and begins none. -/
theorem nextVigils_tick (x : Trail) (vs : List Vigil) (elapsed : Float) :
    x.nextVigils vs (.maneuver (.tick elapsed)) =
      vs.map fun v => v.next (x.evaluation? v.watch.target (.maneuver (.tick elapsed))) := by
  have hspares : ∀ s, x.spares (.maneuver (.tick elapsed)) s = true := fun s => by
    unfold spares
    split
    · next heq =>
      cases heq
      rfl
    · rfl
  have hnewcomers : x.newcomers (.maneuver (.tick elapsed)) = [] := by
    unfold newcomers
    split
    · next heq =>
      cases heq
      rfl
    · rfl
  rw [nextVigils, hnewcomers, List.filter_eq_self.mpr fun v _ => hspares _]
  exact List.append_nil _

theorem followed_next (x : Trail) (e : Errand) : (x.next e).followed = x.followed := by
  cases e with
  | maneuver m => rfl
  | retrack =>
    simp only [next]
    split <;> rfl

/-- Vigils that are true to the watches stay so. -/
theorem nextVigils_spec {x : Trail} (h : x.IsSound) {vs : List Vigil}
    (hvs : x.watches? = some (vs.map Vigil.current)) (e : Errand) :
    (x.next e).watches? = some ((x.nextVigils vs e).map Vigil.current) ∧
      x.hits e = vs.filterMap fun v => (x.evaluation? v.watch.target e).bind v.report? := by
  obtain ⟨-, ws, hws, hnext, hhits⟩ := next_spec h e
  obtain rfl := Option.some.inj (hvs.symm.trans hws)
  refine ⟨?_, ?_⟩
  · rw [hnext, served, nextVigils, List.map_append, List.filter_map, List.map_map, List.map_map,
      List.map_map]
    refine congrArg some (congrArg₂ (· ++ ·) (List.map_congr_left fun v _ => ?_) ?_)
    · exact (v.current_next _).symm
    · exact (List.map_id _).symm
  · rw [hhits, reported, List.filterMap_map]
    exact List.filterMap_congr fun v _ => (v.bind_report? _).symm

theorem vigils_spec (p : Position) (es : List Errand) :
    ((start p).after es).IsSound ∧ ((start p).after es).followed = p.id ∧
      ((start p).after es).watches? = some ((p.vigils es).map Vigil.current) ∧
      ∀ v ∈ p.vigils es, v.IsTrue (start p) es := by
  induction es using List.reverseRecOn with
  | nil =>
    refine ⟨isSound_start p, rfl, ?_, fun v hv => ?_⟩
    · show some p.proximityWatches = some (List.map _ (p.proximityWatches.map _))
      rw [List.map_map]
      exact congrArg some (List.map_id _).symm
    · obtain ⟨w, -, rfl⟩ := List.mem_map.mp hv
      exact Vigil.isTrue_of_new ..
  | append_singleton es e ih =>
    obtain ⟨hsound, hfollowed, hwatches, htrue⟩ := ih
    rw [after_concat, Position.vigils, vigils_concat]
    refine ⟨(next_spec hsound e).1, ?_, (nextVigils_spec hsound hwatches e).1, fun v hv => ?_⟩
    · rw [followed_next, hfollowed]
    · rcases List.mem_append.mp hv with hv | hv
      · obtain ⟨u, hu, rfl⟩ := List.mem_map.mp hv
        exact (htrue u (List.mem_filter.mp hu).1).next e
      · obtain ⟨w, -, rfl⟩ := List.mem_map.mp hv
        exact Vigil.isTrue_of_new ..

end Trail

/-- Let a position be tracked, with any proximity watches, by a tracker that tracks nothing at
first, and let any errands be done: ticks, jumps, new rules, positions tracked and untracked, this
one included, watches registered and dropped.  Its watches are then those of its vigils, one for
one: they remember on which side of the threshold the last evaluation was, or, before the first one,
the side of their registration, which is out of range for a new watch.  What the next errand makes
them report is what the vigils should report: a change of that side, if the trigger asks for it.  In
a tick the side changes with an evaluation to that of the new distance, whatever the trigger, and
otherwise stays as it is.

So a watch reports those changes of side that its trigger asks for, among all evaluations since its
registration, and the changes alternate.  A watch with another trigger, but of the same age, the
same target and the same threshold, reports those of them that its own trigger asks for. -/
theorem Position.crossings_alternate (p : Position) (es : List Errand) (e : Errand) :
    let x := (Trail.start p).after es
    let vs := p.vigils es
    (x.followed = p.id ∧ x.position?.map (·.proximityWatches) = some (vs.map Vigil.current)) ∧
    x.hits e = vs.filterMap (fun v => (x.evaluation? v.watch.target e).bind v.report?) ∧
    (∀ elapsed, let tick := Errand.maneuver (.tick elapsed)
      (x.next tick).position?.map (·.proximityWatches) = some (vs.map fun v =>
        { v.watch with
          within := ((x.evaluation? v.watch.target tick).map v.reaches).getD v.side })) ∧
    (∀ v ∈ vs, v.IsTrue (Trail.start p) es ∧
      List.IsChain (· ≠ ·) (v.watch.within :: v.changes.map (·.2))) ∧
    ∀ v ∈ vs, ∀ c ∈ vs, c.watch.trigger = .crossed → c.age = v.age →
      c.watch.target = v.watch.target → c.watch.distance = v.watch.distance →
      c.watch.within = v.watch.within →
      c.reported = c.changes ∧
        v.reported = c.reported.filter fun r => v.watch.trigger.reports r.2 := by
  intro x vs
  obtain ⟨hsound, hfollowed, hwatches, htrue⟩ := Trail.vigils_spec p es
  refine ⟨⟨hfollowed, hwatches⟩, (Trail.nextVigils_spec hsound hwatches e).2, fun elapsed => ?_,
    fun v hv => ⟨htrue v hv, isChain_crossings ..⟩, fun v hv c hc htrigger hage htarget hdistance
      hwithin => ?_⟩
  · refine (Trail.nextVigils_spec hsound hwatches (.maneuver (.tick elapsed))).1.trans ?_
    rw [Trail.nextVigils_tick, List.map_map]
    refine congrArg some (List.map_congr_left fun v _ => ?_)
    simp only [Function.comp_apply, Vigil.current, Vigil.side_next]
    rfl
  · have hall : c.reported = c.changes := by
      rw [(htrue c hc).told, htrigger]
      exact List.filter_eq_self.mpr fun _ _ => rfl
    have hseen := Vigil.IsTrue.seen_eq (htrue c hc) (htrue v hv) hage htarget
    refine ⟨hall, ?_⟩
    rw [hall, (htrue v hv).told, Vigil.changes, Vigil.changes, hseen, hdistance, hwithin]

/-! ### A flyby -/

namespace Flyby

/-- The beacon, where the axes meet. -/
def beacon : Position := { id := ⟨2⟩ }

/-- A watch on the distance of the beacon. -/
def watch (trigger : ProximityTrigger) : ProximityWatch :=
  { subscriber := "mission", target := beacon.id, distance := 1.0, trigger, listener := ⟨0⟩ }

/-- The probe, which heads for the beacon. -/
def probe : Position where
  id := ⟨1⟩
  state := { (Kinematics.initial : Kinematics Float) with coords := ⟨-2.0, 0.0, 0.0⟩ }
  rule := .cruise ⟨⟨1.0, 0.0, 0.0⟩, 1.0, none, none⟩
  proximityWatches := [watch .crossed, watch .entered, watch .left]

/-- The probe is near the beacon when it is lost, and tracked again before it has gone far. -/
def course : List Errand :=
  [.retrack, .maneuver (.track beacon), .maneuver (.tick 1.0), .maneuver (.untrack probe.id),
    .maneuver (.tick 1.0), .retrack]

/-- The watches that report an errand, the distance, and whether it is in range. -/
def report (x : Trail) (e : Errand) : List (ProximityTrigger × Float × Bool) :=
  (x.hits e).map fun hit => (hit.watch.trigger, hit.distance, hit.entered)

/-- It comes into range before it is lost, and leaves it after it has been found. -/
example :
    report ((Trail.start probe).after (course.take 2)) (.maneuver (.tick 1.0)) =
      [(.crossed, 1.0, true), (.entered, 1.0, true)] ∧
    report ((Trail.start probe).after course) (.maneuver (.tick 4.0)) =
      [(.crossed, 3.0, false), (.left, 3.0, false)] := by
  decide +kernel

end Flyby

end Orrery
