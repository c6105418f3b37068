import Orrery.Proofs.Maneuver

/-!
# Stops

A position that goes from active to stopped is named once in the report of the commit that stops it,
and each of its movement watches is told once (`Tracker.Announces`).  Both ways of stopping a
position, by request and because its rule has terminated, are like that.

There is a third way.  A jump makes a position active again unless its rule has terminated, and so
stops an active position that was given such a rule and has not been through a tick since.  Nobody
is told of that.  It is the only exception (`Tracker.stops_announced_iff`).
-/

namespace Orrery

/-! ### One position -/

/-- Whether a notice tells of a stop. -/
def Notice.isStop : Notice → Bool
  | stopped _ => true
  | _ => false

namespace Tracked

/-- The calls that tell all movement watches of a stop. -/
def stopCalls (t : Tracked) : List Call := t.stopNotices.map fun n => ⟨t.position, n⟩

theorem isStop_of_mem_stopCalls {t : Tracked} {c : Call} (h : c ∈ t.stopCalls) :
    c.notice.isStop = true ∧ c.position = t.position := by
  obtain ⟨n, hn, rfl⟩ := List.mem_map.mp h
  obtain ⟨w, -, rfl⟩ := List.mem_map.mp hn
  exact ⟨rfl, rfl⟩

theorem filter_stopCalls {t : Tracked} {j : PositionId} (h : t.position.id = j) (id : PositionId) :
    t.stopCalls.filter (fun c => c.position.id = id) = if j = id then t.stopCalls else [] := by
  have hid : ∀ c ∈ t.stopCalls, c.position.id = j := fun c hc => by
    rw [(isStop_of_mem_stopCalls hc).2, h]
  split
  · next hj => exact List.filter_eq_self.mpr fun c hc => by simpa using (hid c hc).trans hj
  · next hj =>
    refine List.filter_eq_nil_iff.mpr fun c hc => ?_
    rw [hid c hc]
    simpa using hj

variable (t : Tracked) (elapsed : Float) (start current : Lookup)

theorem isStop_stride : ∀ n ∈ (t.stride elapsed start).notices, n.isStop = false := by
  unfold stride
  split
  · exact fun _ h => absurd h List.not_mem_nil
  · split
    · exact fun _ h => absurd h List.not_mem_nil
    · exact fun _ h => absurd h List.not_mem_nil
    · intro n hn
      obtain ⟨hit, -, rfl⟩ := List.mem_map.mp hn
      rfl

/-- What the second phase has to report of a stop is that to all movement watches. -/
theorem filter_isStop_settle {notices : List Notice} (h : ∀ n ∈ notices, n.isStop = false) :
    let s := t.settle notices current
    s.notices.filter Notice.isStop = if s.stops then s.slot.stopNotices else [] := by
  have hmoves : notices.filter Notice.isStop = [] :=
    List.filter_eq_nil_iff.mpr fun n hn => by simp [h n hn]
  have hcrossings : ∀ hits : List ProximityHit,
      (hits.map Notice.proximity).filter Notice.isStop = [] := fun hits =>
    List.filter_eq_nil_iff.mpr fun n hn => by
      obtain ⟨hit, -, rfl⟩ := List.mem_map.mp hn
      exact Bool.false_ne_true
  have hstops : ∀ u : Tracked, u.stopNotices.filter Notice.isStop = u.stopNotices := fun u =>
    List.filter_eq_self.mpr fun n hn => by
      obtain ⟨w, -, rfl⟩ := List.mem_map.mp hn
      rfl
  simp only [settle]
  split
  · simp [List.filter_append, hmoves, hcrossings, hstops]
  · simp [List.filter_append, hmoves, hcrossings]

/-- A tick stops a position in its second phase or not at all. -/
theorem any_stops_settlement? :
    (t.settlement? elapsed start current).any (·.stops) = true ↔
      t.status = .active ∧ (t.alone elapsed start current).status = .stopped := by
  rw [alone_eq]
  unfold settlement?
  obtain ⟨e, hactive, -, -, hstride⟩ | ⟨p, -, hfailure, hslot⟩ := t.stride_cases elapsed start
  · simp [hstride, hactive]
  · simp only [hfailure, hslot, settle, Option.isSome_none, Bool.false_eq_true, ↓reduceIte,
      Option.any_some, Option.elim_some]
    cases hstatus : t.status <;> cases (p.dueProximity current).2.hasTerminated <;> simp

/-- The calls about a stop that a tick gives rise to. -/
theorem filter_isStop_callsOf :
    (Tracker.Tick.callsOf t elapsed start current).filter (·.notice.isStop) =
      if t.status = .active ∧ (t.alone elapsed start current).status = .stopped then
        (t.alone elapsed start current).stopCalls
      else [] := by
  have hstops := t.any_stops_settlement? elapsed start current
  have halone := t.alone_eq elapsed start current
  unfold Tracker.Tick.callsOf
  cases hsettled : t.settlement? elapsed start current with
  | none =>
    rw [hsettled, Option.any_none] at hstops
    rw [if_neg (fun h => Bool.false_ne_true (hstops.mpr h))]
    rfl
  | some s =>
    rw [hsettled, Option.any_some] at hstops
    rw [hsettled, Option.elim_some] at halone
    have hs : s =
        (t.stride elapsed start).slot.settle (t.stride elapsed start).notices current := by
      simp only [settlement?] at hsettled
      split at hsettled
      · cases hsettled
      · exact (Option.some.inj hsettled).symm
    have hnotices : s.notices.filter Notice.isStop =
        if s.stops then s.slot.stopNotices else [] := by
      rw [hs]
      exact filter_isStop_settle _ _ (t.isStop_stride elapsed start)
    rw [Option.map_some, Option.getD_some, List.filter_map]
    show (s.notices.filter Notice.isStop).map _ = _
    rw [hnotices, halone]
    by_cases hstop : s.stops = true
    · rw [if_pos hstop, if_pos (by rw [← halone]; exact hstops.mp hstop)]
      rfl
    · rw [if_neg hstop, if_neg (by rw [← halone]; exact mt hstops.mpr hstop)]
      rfl

/-- Only a position whose rule has not terminated stays active in a tick, unless its advance
fails. -/
theorem not_hasTerminated_alone (h : (t.alone elapsed start current).status = .active)
    (hadvance : (t.stride elapsed start).failure = none) :
    (t.alone elapsed start current).position.hasTerminated = false := by
  obtain ⟨e, -, -, -, hstride⟩ | ⟨p, hafter, -, -⟩ := t.stride_cases elapsed start
  · rw [hstride] at hadvance
    cases hadvance
  · unfold alone at h ⊢
    rw [hafter] at h ⊢
    by_contra hterminated
    rw [Bool.not_eq_false] at hterminated
    simp only [hterminated, ↓reduceIte] at h
    cases h

/-- A tick changes nothing about a position that is stopped but what its proximity watches
remember. -/
theorem alone_of_stopped (h : t.status = .stopped) :
    t.alone elapsed start current = { t with position := (t.position.dueProximity current).2 } := by
  unfold alone afterAdvance
  simp only [h, ite_self]

end Tracked

/-! ### One commit -/

namespace Tracker

/-- The status of a tracked position. -/
def status? (t : Tracker) (id : PositionId) : Option MotionStatus :=
  (t.slots.get? id).map (·.status)

/-- From one tracker to the other a position goes from active to stopped. -/
def Stops (t t' : Tracker) (id : PositionId) : Prop :=
  t.status? id = some .active ∧ t'.status? id = some .stopped

instance (t t' : Tracker) (id : PositionId) : Decidable (t.Stops t' id) :=
  inferInstanceAs (Decidable (_ ∧ _))

/-- If a position stops it is named in the report once, and each of its movement watches is told
once, in their order.  If it does not stop it is not named, and nobody is told. -/
structure Announces (t t' : Tracker) (report : TickReport) (calls : List Call) (id : PositionId) :
    Prop where
  /-- The report names it once. -/
  named : report.stopped.count id = if t.Stops t' id then 1 else 0
  /-- Every movement watch is told once. -/
  told : (calls.filter fun c => c.position.id = id && c.notice.isStop) =
    if t.Stops t' id then ((t'.slots.get? id).map Tracked.stopCalls).getD [] else []

variable {t t' : Tracker} {id : PositionId}

theorem not_stops_of_eq (h : t'.status? id = t.status? id) : ¬t.Stops t' id := by
  rintro ⟨hactive, hstopped⟩
  rw [h, hactive] at hstopped
  cases hstopped

theorem not_stops_of_ne (h : t'.status? id ≠ some .stopped) : ¬t.Stops t' id := fun hstops =>
  h hstops.2

/-- Where nothing is reported, nothing may stop. -/
theorem announces_nobody_iff : t.Announces t' {} [] id ↔ ¬t.Stops t' id := by
  constructor
  · rintro ⟨hnamed, -⟩ hstops
    rw [if_pos hstops] at hnamed
    cases hnamed
  · intro hstops
    exact ⟨by rw [if_neg hstops]; rfl, by rw [if_neg hstops]; rfl⟩

theorem status?_modify (t : Tracker) (id j : PositionId) (f : Tracked → Tracked) :
    status? { t with slots := t.slots.modify id f } j =
      if j = id then (t.slots.get? j).map fun slot => (f slot).status else t.status? j := by
  unfold status?
  rw [Table.get?_modify]
  split
  · exact Option.map_map ..
  · rfl

/-- A change that leaves the status of every position as it is. -/
theorem status?_modify_eq (t : Tracker) (id j : PositionId) {f : Tracked → Tracked}
    (h : ∀ slot, t.slots.get? id = some slot → (f slot).status = slot.status) :
    status? { t with slots := t.slots.modify id f } j = t.status? j :=
  t.slots.map_get?_modify _ h j

/-- A tick announces every stop. -/
theorem announces_advance (ht : t.IsOrderly) (elapsed : Float) (id : PositionId) :
    t.Announces { t with slots := (Tick.run t.slots elapsed).slots }
      (Tick.run t.slots elapsed).report (Tick.run t.slots elapsed).calls id := by
  obtain ⟨-, hreport, hcalls⟩ := Tick.run_spec t.slots elapsed
  have hget := Tick.get?_run t.slots elapsed id
  generalize coordinatesIn t.slots = start at hget hreport hcalls
  generalize coordinatesAfter t.slots elapsed = current at hget hreport hcalls
  have hstops : t.Stops { t with slots := (Tick.run t.slots elapsed).slots } id ↔
      ((t.slots.get? id).any fun slot =>
        (slot.settlement? elapsed start current).any (·.stops)) = true := by
    unfold Stops status?
    rw [hget]
    cases t.slots.get? id with
    | none => simp
    | some slot => simp [slot.any_stops_settlement?]
  refine ⟨?_, ?_⟩
  · rw [hreport]
    simp only [hstops]
    exact t.slots.count_keys_filter (fun slot : Tracked =>
      (slot.settlement? elapsed start current).any (·.stops)) id
  · -- what others have to tell of stops is told of themselves
    have hothers : ∀ j slot, (j, slot) ∈ t.slots.entries →
        (Tick.callsOf slot elapsed start current).filter
            (fun c => c.position.id = id && c.notice.isStop) =
          if j = id ∧ slot.status = .active ∧ (slot.alone elapsed start current).status = .stopped
          then (slot.alone elapsed start current).stopCalls else [] := by
      intro j slot hslot
      have hget := Table.get?_eq_some_iff.mpr hslot
      have hfiled := (ht.filed j slot hget).alone elapsed start current
      rw [← List.filter_filter, slot.filter_isStop_callsOf]
      by_cases hstop : slot.status = .active ∧
          (slot.alone elapsed start current).status = .stopped
      · rw [if_pos hstop, Tracked.filter_stopCalls hfiled.id]
        simp only [hstop, and_self, and_true]
      · rw [if_neg hstop, if_neg fun h => hstop h.2]
        rfl
    have hown := t.slots.filter_flatMap (f := fun slot => Tick.callsOf slot elapsed start current)
      (k := id) fun j slot hslot hj => by rw [hothers j slot hslot, if_neg fun h => hj h.1]
    rw [hcalls, hown, hget]
    cases hslot : t.slots.get? id with
    | none => simp [Stops, status?, hget, hslot]
    | some slot =>
      simp only [Option.map_some, Option.getD_some,
        hothers id slot (Table.get?_eq_some_iff.mp hslot), true_and]
      simp [Stops, status?, hget, hslot]

/-- A stop by request is announced. -/
theorem announces_stop (ht : t.IsOrderly) {j : PositionId} {report : TickReport}
    {calls : List Call} (h : t.stop j = .ok (t', report, calls)) (id : PositionId) :
    t.Announces t' report calls id := by
  obtain ⟨slot, hget, ⟨-, rfl, rfl, rfl⟩ | ⟨hactive, rfl, rfl, rfl⟩⟩ := stop_eq_ok h
  · exact announces_nobody_iff.mpr (not_stops_of_eq rfl)
  · have hstops : t.Stops { t with slots := t.slots.modify j fun s => { s with
        status := .stopped } } id ↔ j = id := by
      unfold Stops
      rw [status?_modify]
      by_cases hid : id = j
      · subst hid
        simp [status?, hget, hactive]
      · simp only [if_neg hid, Ne.symm hid, iff_false]
        exact not_stops_of_eq rfl
    refine ⟨?_, ?_⟩
    · simp only [hstops]
      by_cases hid : j = id <;> simp [hid]
    · have hall : slot.stopCalls.filter (·.notice.isStop) = slot.stopCalls :=
        List.filter_eq_self.mpr fun c hc => (Tracked.isStop_of_mem_stopCalls hc).1
      have hcalls := Tracked.filter_stopCalls (ht.filed j slot hget).id id
      have hmap : slot.stopNotices.map (fun n => ⟨slot.position, n⟩) = slot.stopCalls := rfl
      rw [← List.filter_filter, hmap, hall, hcalls]
      simp only [hstops]
      by_cases hid : j = id
      · subst hid
        simp only [↓reduceIte, Table.get?_modify, hget]
        rfl
      · simp only [if_neg hid]

/-- A change of one position that makes it active or leaves its status as it is stops nothing. -/
theorem not_stops_update {j : PositionId} {f : Tracked → Except TrackerError Tracked}
    (hf : ∀ slot slot', f slot = .ok slot' → slot'.status = .active ∨ slot'.status = slot.status)
    (h : t.update j f = .ok t') (id : PositionId) : ¬t.Stops t' id := by
  obtain ⟨slot, slot', hslot, hslot', rfl⟩ := update_eq_ok h
  rintro ⟨hactive, hstopped⟩
  rw [status?_modify] at hstopped
  split at hstopped
  · next hid =>
    subst hid
    rw [status?, hslot] at hactive
    rw [hslot] at hstopped
    simp only [Option.map_some, Option.some.injEq] at hactive hstopped
    rcases hf slot slot' hslot' with hstatus | hstatus <;> rw [hstopped] at hstatus
    · cases hstatus
    · rw [hactive] at hstatus
      cases hstatus
  · rw [hactive] at hstopped
    cases hstopped

theorem not_stops_setRule {j : PositionId} {rule : Rule Float} (h : t.setRule j rule = .ok t')
    (id : PositionId) : ¬t.Stops t' id := by
  refine not_stops_update (fun slot slot' hslot => ?_) h id
  split at hslot
  · cases hslot
  · cases hslot
    exact .inl rfl

theorem not_stops_halt (t : Tracker) (j id : PositionId) : ¬t.Stops (t.halt j) id := by
  unfold halt
  split
  · next hset => exact not_stops_setRule hset id
  · exact not_stops_of_eq rfl

theorem not_stops_track {p : Position} (h : t.track p = .ok t') (id : PositionId) :
    ¬t.Stops t' id := by
  rw [(track_eq_ok h).2.2]
  by_cases hid : id = p.id
  · refine not_stops_of_ne ?_
    rw [status?, Table.get?_insert, if_pos hid]
    exact nofun
  · refine not_stops_of_eq ?_
    rw [status?, Table.get?_insert, if_neg hid, status?]

theorem not_stops_untrack {j : PositionId} {p : Option Position} (h : t.untrack j = .ok (p, t'))
    (id : PositionId) : ¬t.Stops t' id := by
  rw [untrack_eq_ok h]
  by_cases hid : id = j
  · refine not_stops_of_ne ?_
    rw [status?, Table.get?_erase, if_pos hid]
    exact nofun
  · refine not_stops_of_eq ?_
    rw [status?, Table.get?_erase, if_neg hid, status?]

theorem status?_revoke (t : Tracker) (rs : List Revocation) (id : PositionId) :
    status? { t with slots := rs.foldl revoke t.slots } id = t.status? id := by
  induction rs generalizing t with
  | nil => rfl
  | cons r rs ih =>
    have hone : status? { t with slots := revoke t.slots r } id = t.status? id :=
      status?_modify_eq t r.id id fun _ _ => rfl
    rw [← hone]
    exact ih { t with slots := revoke t.slots r }

end Tracker

/-- A jump has no influence on what the rule has left to do. -/
theorem Position.hasTerminated_teleport {p p' : Position} {coords : Point}
    (h : p.teleport coords = .ok p') : p'.hasTerminated = p.hasTerminated := by
  obtain ⟨-, rfl⟩ := teleport_eq_ok h
  unfold hasTerminated Rule.hasTerminated
  cases p.rule <;> rfl

/-- The maneuver is a jump of an active position whose rule has terminated. -/
def Maneuver.StopsUnnoticed (m : Maneuver) (t : Tracker) (id : PositionId) : Prop :=
  ∃ coords slot, m = .teleport id coords ∧ t.slots.get? id = some slot ∧ slot.status = .active ∧
    slot.position.hasTerminated = true

namespace Tracker

variable {t t' : Tracker}

/-- A jump stops an active position whose rule has terminated, and no other one. -/
theorem stops_teleport_iff {j : PositionId} {coords : Point} (h : t.teleport j coords = .ok t')
    (id : PositionId) : t.Stops t' id ↔ (Maneuver.teleport j coords).StopsUnnoticed t id := by
  obtain ⟨slot, slot', hslot, hjump, rfl⟩ := update_eq_ok h
  have hstatus : slot'.status = if slot.position.hasTerminated then .stopped else .active := by
    split at hjump
    · cases hjump
    · next p hp =>
      cases hjump
      rw [Position.hasTerminated_teleport hp]
  unfold Stops
  rw [status?_modify]
  by_cases hid : id = j
  · subst hid
    simp only [status?, hslot, Option.map_some, Option.some.injEq, ↓reduceIte, hstatus]
    constructor
    · rintro ⟨hactive, hstopped⟩
      refine ⟨coords, slot, rfl, hslot, hactive, ?_⟩
      by_contra hterminated
      rw [if_neg hterminated] at hstopped
      cases hstopped
    · rintro ⟨-, slot₀, -, hslot₀, hactive, hterminated⟩
      cases hslot.symm.trans hslot₀
      exact ⟨hactive, if_pos hterminated⟩
  · rw [if_neg hid]
    constructor
    · exact fun hstops => absurd hstops (not_stops_of_eq rfl)
    · rintro ⟨_, _, hm, -⟩
      cases hm
      exact absurd rfl hid

/-- A commit announces every stop, unless it is a jump of an active position whose rule has
terminated. -/
theorem announces_commit_iff (ht : t.IsOrderly) {m : Maneuver} (hm : ∀ slots, m ≠ .restore slots)
    {report : TickReport} {calls : List Call} (h : m.commit t = .ok (t', report, calls))
    (id : PositionId) : t.Announces t' report calls id ↔ ¬m.StopsUnnoticed t id := by
  have hother : (∀ j coords, m ≠ .teleport j coords) → t.Announces t' report calls id →
      (t.Announces t' report calls id ↔ ¬m.StopsUnnoticed t id) := by
    intro hne hannounces
    refine iff_of_true hannounces ?_
    rintro ⟨coords, -, heq, -⟩
    exact hne id coords heq
  cases m with
  | teleport j coords =>
    obtain ⟨hjump, rfl, rfl⟩ := Maneuver.quietly_eq_ok h
    rw [announces_nobody_iff, stops_teleport_iff hjump]
  | stop j => exact hother (by simp) (announces_stop ht h id)
  | tick elapsed =>
    have hadvance := advance_eq_ok ht.intact elapsed
    rw [show t.advance elapsed = _ from h] at hadvance
    cases hadvance
    exact hother (by simp) (announces_advance ht elapsed id)
  | track p =>
    obtain ⟨htrack, rfl, rfl⟩ := Maneuver.quietly_eq_ok h
    exact hother (by simp) (announces_nobody_iff.mpr (not_stops_track htrack id))
  | untrack j =>
    obtain ⟨hchange, rfl, rfl⟩ := Maneuver.quietly_eq_ok h
    obtain ⟨⟨p, t''⟩, huntrack, rfl⟩ := Except.map_eq_ok hchange
    exact hother (by simp) (announces_nobody_iff.mpr (not_stops_untrack huntrack id))
  | setRule j rule =>
    obtain ⟨hset, rfl, rfl⟩ := Maneuver.quietly_eq_ok h
    exact hother (by simp) (announces_nobody_iff.mpr (not_stops_setRule hset id))
  | halt j =>
    obtain ⟨hhalt, rfl, rfl⟩ := Maneuver.quietly_eq_ok h
    cases hhalt
    exact hother (by simp) (announces_nobody_iff.mpr (not_stops_halt t j id))
  | watchMovement j w | watchProximity j w =>
    obtain ⟨hwatch, rfl, rfl⟩ := Maneuver.quietly_eq_ok h
    refine hother (by simp) (announces_nobody_iff.mpr (not_stops_update ?_ hwatch id))
    intro slot slot' hslot
    cases hslot
    exact .inr rfl
  | dropWatches j subscriber =>
    obtain ⟨hchange, rfl, rfl⟩ := Maneuver.quietly_eq_ok h
    obtain ⟨⟨n, t''⟩, hdrop, rfl⟩ := Except.map_eq_ok hchange
    refine hother (by simp) (announces_nobody_iff.mpr
      (not_stops_update ?_ (dropWatches_eq_ok hdrop) id))
    intro slot slot' hslot
    cases hslot
    exact .inr rfl
  | prune rs =>
    obtain ⟨hchange, rfl, rfl⟩ := Maneuver.quietly_eq_ok h
    obtain ⟨⟨n, t''⟩, hprune, rfl⟩ := Except.map_eq_ok hchange
    obtain rfl := prune_eq_ok ht.intact hprune
    exact hother (by simp)
      (announces_nobody_iff.mpr (not_stops_of_eq (status?_revoke t rs id)))
  | restore slots => exact absurd rfl (hm slots)

/-! ### Ticks -/

/-- After a tick every active position whose advance did not fail has something left to do. -/
theorem not_hasTerminated_of_tick {elapsed : Float} {report : TickReport} {calls : List Call}
    (ht : t.IsOrderly) (h : t.advance elapsed = .ok (t', report, calls)) {id : PositionId}
    {slot : Tracked} (hslot : t'.slots.get? id = some slot) (hactive : slot.status = .active)
    (hfailed : ∀ e, (id, e) ∉ report.failed) : slot.position.hasTerminated = false := by
  rw [advance_eq_ok ht.intact] at h
  cases h
  obtain ⟨-, hreport, -⟩ := Tick.run_spec t.slots elapsed
  obtain ⟨old, hold, rfl⟩ :=
    Option.map_eq_some_iff.mp ((Tick.get?_run t.slots elapsed id).symm.trans hslot)
  refine old.not_hasTerminated_alone _ _ _ hactive ?_
  -- a failure would have been reported
  cases hfailure : (old.stride elapsed (coordinatesIn t.slots)).failure with
  | none => rfl
  | some e =>
    refine absurd ?_ (hfailed e)
    rw [hreport]
    exact List.mem_filterMap.mpr ⟨(id, old), Table.get?_eq_some_iff.mp hold, by rw [hfailure]; rfl⟩

/-- A tick moves no position that is stopped, and does not start it again. -/
theorem unmoved_of_tick {elapsed : Float} {report : TickReport} {calls : List Call}
    (ht : t.IsOrderly) (h : t.advance elapsed = .ok (t', report, calls)) {id : PositionId}
    {slot : Tracked} (hslot : t.slots.get? id = some slot) (hstopped : slot.status = .stopped) :
    ∃ slot', t'.slots.get? id = some slot' ∧ slot'.status = .stopped ∧
      slot'.position.state = slot.position.state ∧ slot'.position.rule = slot.position.rule := by
  rw [advance_eq_ok ht.intact] at h
  cases h
  refine ⟨_, (Tick.get?_run t.slots elapsed id).trans (congrArg _ hslot), ?_⟩
  simp only [slot.alone_of_stopped _ _ _ hstopped]
  exact ⟨hstopped, rfl, rfl⟩

end Tracker

/-! ### Listeners -/

variable {κ ε : Type}

/-- The surroundings keep a log of all that listeners of positions are told. -/
def Host.Records (host : Host κ ε) (log : ε → List (ListenerId × PositionEvent)) : Prop :=
  ∀ listener event (w : World κ ε),
    log (host.hearPosition listener event w).2.outside = log w.outside ++ [(listener, event)]

namespace World

variable {host : Host κ ε} {log : ε → List (ListenerId × PositionEvent)}

theorem log_hearAll (hlog : host.Records log) (calls : List Call) (w : World κ ε) :
    log (askAll (fun c : Call => host.hearPosition c.notice.listener c.event) calls w).2.outside =
      log w.outside ++ calls.map fun c => (c.notice.listener, c.event) := by
  induction calls generalizing w with
  | nil => rw [List.map_nil, List.append_nil]; rfl
  | cons c calls ih =>
    have hrest := ih (host.hearPosition c.notice.listener c.event w).2
    rw [hlog, List.append_assoc] at hrest
    exact hrest

/-- The listeners are told of the calls, each once and in order. -/
theorem log_notify (hlog : host.Records log) (report : TickReport) (calls : List Call)
    (w : World κ ε) : log (w.notify host report calls).2.outside =
      log w.outside ++ calls.map fun c => (c.notice.listener, c.event) := by
  have htold := log_hearAll hlog calls w
  unfold notify
  rcases hasked : askAll (fun c : Call => host.hearPosition c.notice.listener c.event) calls w
    with ⟨replies, w'⟩
  rw [hasked] at htold
  dsimp only
  cases w'.tracker.prune (Revocation.ofReplies calls replies) <;> exact htold

/-- The answers of the listeners complete the report. -/
theorem answered_of_notify {report answered : TickReport} {calls : List Call} {w : World κ ε}
    (h : (w.notify host report calls).1 = .ok answered) :
    ∃ replies revoked, answered = report.answered replies revoked := by
  unfold notify at h
  generalize askAll _ calls w = asked at h
  obtain ⟨replies, w'⟩ := asked
  dsimp only at h
  cases hprune : w'.tracker.prune (Revocation.ofReplies calls replies) with
  | error e =>
    rw [hprune] at h
    cases h
  | ok r =>
    rw [hprune] at h
    cases h
    exact ⟨replies, r.1, rfl⟩

/-- The listeners are told what the commit asks for, each once and in order, and the report names
the positions that it says have stopped. -/
theorem steer_of_commit (hlog : host.Records log) {w : World κ ε} {m : Maneuver} {t' : Tracker}
    {report : TickReport} {calls : List Call}
    (h : m.commit w.tracker = .ok (t', report, calls)) :
    log (w.steer host m).2.outside =
        log w.outside ++ calls.map (fun c => (c.notice.listener, c.event)) ∧
      ∀ answered, (w.steer host m).1 = .ok answered → answered.stopped = report.stopped := by
  unfold steer move
  simp only [h]
  refine ⟨log_notify hlog report calls { w with tracker := t' }, fun answered hok => ?_⟩
  obtain ⟨replies, revoked, rfl⟩ := answered_of_notify hok
  rfl

end World

/-! ### Whole runs -/

/-- In a run of maneuvers from nothing every commit announces the stops that it brings about: the
report names each position once that goes from active to stopped, and each of its movement watches
is told once.  The only exception is a jump of an active position whose rule has terminated.  After
a tick every active position whose advance did not fail has a rule that has not terminated, and a
tick changes neither the kinematic state nor the rule of a position that is stopped. -/
theorem Tracker.stops_announced_iff (host : Host κ ε)
    (log : ε → List (ListenerId × PositionEvent)) (hlog : host.Records log) (ms : List Maneuver)
    (hms : ∀ slots, .restore slots ∉ ms) (m : Maneuver) (t t' : Tracker) (report : TickReport)
    (calls : List Call) (h : Commits {} ms m t t' report calls) :
    (∀ id, t.Announces t' report calls id ↔ ¬m.StopsUnnoticed t id) ∧
    (∀ w : World κ ε, w.tracker = t →
      log (w.steer host m).2.outside =
          log w.outside ++ calls.map (fun c => (c.notice.listener, c.event)) ∧
        ∀ answered, (w.steer host m).1 = .ok answered → answered.stopped = report.stopped) ∧
    ∀ elapsed, m = .tick elapsed →
      (∀ id slot, t'.slots.get? id = some slot → slot.status = .active →
        (∀ e, (id, e) ∉ report.failed) → slot.position.hasTerminated = false) ∧
      ∀ id slot, t.slots.get? id = some slot → slot.status = .stopped →
        ∃ slot', t'.slots.get? id = some slot' ∧ slot'.status = .stopped ∧
          slot'.position.state = slot.position.state ∧
          slot'.position.rule = slot.position.rule := by
  obtain ⟨⟨before, rest, rfl, rfl⟩, hcommit⟩ := h
  have horderly := isOrderly_after isOrderly_empty before
  have hm : ∀ slots, m ≠ .restore slots := by
    rintro slots rfl
    exact hms slots (by simp)
  refine ⟨announces_commit_iff horderly hm hcommit, ?_, ?_⟩
  · rintro w hw
    exact World.steer_of_commit hlog (by rw [hw]; exact hcommit)
  · rintro elapsed rfl
    exact ⟨fun id slot => not_hasTerminated_of_tick horderly hcommit,
      fun id slot => unmoved_of_tick horderly hcommit⟩

/-! ### A turntable -/

namespace Turntable

/-- A watched position. -/
def place : PositionId := ⟨1⟩

/-- Its audience. -/
def audience : MovementWatch := { subscriber := "audience", listener := ⟨0⟩ }

/-- The position is tracked and watched. -/
def scene : List Maneuver := [.track { id := place }, .watchMovement place audience]

/-- It is to turn by no angle at all. -/
def still : Maneuver := .setRule place (.spin ⟨Vec3.zAxis, 1.0, some 0.0⟩)

/-- It jumps aside. -/
def jump : Maneuver := .teleport place ⟨1.0, 0.0, 0.0⟩

/-- The surroundings in which every listener is content, and all that they are told is logged. -/
def host : Host Unit (List (ListenerId × PositionEvent)) where
  hook _ progress body scene outside := ⟨.ok (), progress, body, scene, outside⟩
  mayExecute _ _ _ := false
  isOver _ _ _ := true
  credit _ outside := outside
  hearPosition listener event w := (.ok (), { w with outside := w.outside ++ [(listener, event)] })
  hearEntity _ _ w := (.ok (), w)

theorem records_host : host.Records id := fun _ _ _ => rfl

end Turntable

open Turntable in
/-- A position that is stopped by request is named in the report, and its audience is told. -/
theorem Tracker.stops_announced_iff_turntable :
    ∃ t t' report calls, Commits {} (scene ++ [.stop place]) (.stop place) t t' report calls ∧
      t.Stops t' place ∧ t.Announces t' report calls place := by
  have hcommit : Commits {} (scene ++ [.stop place]) (.stop place) (({} : Tracker).after scene) _
      { stopped := [place] } _ := ⟨⟨scene, [], rfl, rfl⟩, rfl⟩
  have hannounces := (stops_announced_iff host id records_host (scene ++ [.stop place])
    (by simp [scene]) _ _ _ _ _ hcommit).1 place
  refine ⟨_, _, _, _, hcommit, by decide +kernel, hannounces.mpr ?_⟩
  rintro ⟨coords, -, hm, -⟩
  cases hm

open Turntable in
/-- A position with nothing left to do is stopped by a jump before any tick, and nobody is told. -/
theorem Tracker.stop_unnoticed :
    ∃ t t', Commits {} (scene ++ [still, jump]) jump t t' {} [] ∧
      t.Stops t' place ∧ ¬t.Announces t' {} [] place := by
  obtain ⟨t, ht⟩ : ∃ t, t = ({} : Tracker).after (scene ++ [still]) := ⟨_, rfl⟩
  have hslot : ((t.slots.get? place).any fun slot =>
      slot.status = .active && slot.position.hasTerminated) = true := by
    rw [ht]
    decide +kernel
  have haccepted : (t.teleport place ⟨1.0, 0.0, 0.0⟩).isOk = true := by
    rw [ht]
    decide +kernel
  cases hjump : t.teleport place ⟨1.0, 0.0, 0.0⟩ with
  | error e =>
    rw [hjump] at haccepted
    cases haccepted
  | ok t' =>
    obtain ⟨slot, hget, hslot⟩ := Option.any_eq_true _ _ |>.mp hslot
    rw [Bool.and_eq_true, decide_eq_true_eq] at hslot
    have hstops : t.Stops t' place :=
      (stops_teleport_iff hjump place).mpr ⟨_, slot, rfl, hget, hslot.1, hslot.2⟩
    have hcommit : jump.commit t = .ok (t', {}, []) := by
      show Maneuver.quietly (t.teleport place ⟨1.0, 0.0, 0.0⟩) = _
      rw [hjump]
      rfl
    exact ⟨t, t', ⟨⟨scene ++ [still], [], rfl, ht⟩, hcommit⟩, hstops,
      fun h => announces_nobody_iff.mp h hstops⟩

end Orrery
