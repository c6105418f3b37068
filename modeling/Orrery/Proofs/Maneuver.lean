import Mathlib.Data.List.Induction
import Orrery.Proofs.Request

/-!
# Maneuvers

Everything that can be done to the tracked positions, as data (`Maneuver`): mostly, what requests
and enrolments of the same names do (`World.snd_steer`).  A maneuver first changes the tracker as
one unit, its *commit*; then the listeners are told, who may go on to make maneuvers of their own;
and at last the watches of revoked subscribers are dropped, which is a commit as well.  So whatever
happens to a tracker, in whatever order, is a list of commits (`World.leads_steerAll`), and what
every commit keeps holds from then on (`Tracker.after_induction`).  What a commit keeps of all
positions is what the maneuver keeps of single ones (`Maneuver.Respects`, `Tracker.Every.commit`).

One thing that they keep is that every position stays in its place with a valid rule.  So what is
tracked can be saved and taken over again at any time (`World.tracked_restorable`).
-/

namespace Orrery

variable {κ ε : Type}

/-- Something that can be done to the tracked positions. -/
inductive Maneuver where
  | track (p : Position)
  | untrack (id : PositionId)
  | setRule (id : PositionId) (rule : Rule Float)
  /-- To stop a position in place. -/
  | halt (id : PositionId)
  | teleport (id : PositionId) (coords : Point)
  /-- To stop a position, its listeners being told. -/
  | stop (id : PositionId)
  | watchMovement (id : PositionId) (w : MovementWatch)
  | watchProximity (id : PositionId) (w : ProximityWatch)
  /-- To drop all watches of a subscriber on a position. -/
  | dropWatches (id : PositionId) (subscriber : String)
  /-- To advance every active position. -/
  | tick (elapsed : Float)
  /-- To drop the watches of subscribers that were revoked. -/
  | prune (rs : List Revocation)
  /-- To track other positions in place of all that are tracked. -/
  | restore (slots : List Tracked)

namespace Maneuver

/-- A change that is reported to nobody. -/
def quietly (r : Except TrackerError Tracker) :
    Except TrackerError (Tracker × TickReport × List Call) :=
  r.map fun t => (t, {}, [])

/-- What a maneuver does as one unit, its report so far, and the calls to be made. -/
def commit (m : Maneuver) (t : Tracker) : Except TrackerError (Tracker × TickReport × List Call) :=
  match m with
  | track p => quietly (t.track p)
  | untrack id => quietly ((t.untrack id).map (·.2))
  | setRule id rule => quietly (t.setRule id rule)
  | halt id => quietly (.ok (t.halt id))
  | teleport id coords => quietly (t.teleport id coords)
  | stop id => t.stop id
  | watchMovement id w => quietly (t.watchMovement id w)
  | watchProximity id w => quietly (t.watchProximity id w)
  | dropWatches id subscriber => quietly ((t.dropWatches id subscriber).map (·.2))
  | tick elapsed => t.advance elapsed
  | prune rs => quietly ((t.prune rs).map (·.2))
  | restore slots => quietly (t.restore slots)

theorem quietly_eq_ok {r : Except TrackerError Tracker} {t : Tracker} {report : TickReport}
    {calls : List Call} (h : quietly r = .ok (t, report, calls)) :
    r = .ok t ∧ report = {} ∧ calls = [] := by
  obtain ⟨t', ht', heq⟩ := Except.map_eq_ok h
  cases heq
  exact ⟨ht', rfl, rfl⟩

end Maneuver

/-! ### Commits in a row -/

namespace Tracker

/-- The tracker after one commit; one that is refused changes nothing. -/
def afterOne (t : Tracker) (m : Maneuver) : Tracker :=
  match m.commit t with
  | .ok (t', _, _) => t'
  | .error _ => t

/-- The tracker after the commits of some maneuvers. -/
def after (t : Tracker) (ms : List Maneuver) : Tracker := ms.foldl afterOne t

theorem afterOne_of_ok {t t' : Tracker} {m : Maneuver} {report : TickReport} {calls : List Call}
    (h : m.commit t = .ok (t', report, calls)) : t.afterOne m = t' := by
  rw [afterOne, h]

theorem after_append (t : Tracker) (ms ms' : List Maneuver) :
    t.after (ms ++ ms') = (t.after ms).after ms' := List.foldl_append ..

/-- What every commit keeps, a run of them keeps. -/
theorem after_induction {P : Tracker → Prop} {allowed : Maneuver → Prop}
    (hcommit : ∀ t m t' report calls, allowed m → P t → m.commit t = .ok (t', report, calls) → P t')
    {t : Tracker} (ht : P t) {ms : List Maneuver} (hms : ∀ m ∈ ms, allowed m) :
    P (t.after ms) := by
  induction ms generalizing t with
  | nil => exact ht
  | cons m ms ih =>
    obtain ⟨hm, hrest⟩ := List.forall_mem_cons.mp hms
    have hone : P (t.afterOne m) := by
      unfold afterOne
      split
      · next t' report calls hok => exact hcommit t m t' report calls hm ht hok
      · exact ht
    exact ih hone hrest

/-- In the course of some maneuvers `m` is committed, and takes the tracker from `t` to `t'`. -/
structure Commits (start : Tracker) (ms : List Maneuver) (m : Maneuver) (t t' : Tracker)
    (report : TickReport) (calls : List Call) : Prop where
  /-- The tracker is what the maneuvers before it lead to. -/
  turn : ∃ before rest, ms = before ++ m :: rest ∧ t = start.after before
  /-- The maneuver is not refused. -/
  done : m.commit t = .ok (t', report, calls)

theorem Commits.of_nil {t t' start : Tracker} {m : Maneuver} {report : TickReport}
    {calls : List Call} (h : Commits start [] m t t' report calls) : False := by
  obtain ⟨⟨before, rest, hsplit, -⟩, -⟩ := h
  simp at hsplit

/-- The first maneuver is committed, or one of those that come after it. -/
theorem Commits.of_cons {t t' start : Tracker} {m first : Maneuver} {ms : List Maneuver}
    {report : TickReport} {calls : List Call}
    (h : Commits start (first :: ms) m t t' report calls) :
    m = first ∧ t = start ∨ Commits (start.afterOne first) ms m t t' report calls := by
  obtain ⟨⟨before, rest, hsplit, rfl⟩, hdone⟩ := h
  cases before with
  | nil =>
    cases hsplit
    exact .inl ⟨rfl, rfl⟩
  | cons m' before =>
    cases hsplit
    exact .inr ⟨⟨before, rest, rfl, rfl⟩, hdone⟩

/-- A tracker that allowed maneuvers lead to. -/
def Leads (allowed : Maneuver → Prop) (t t' : Tracker) : Prop :=
  ∃ ms, (∀ m ∈ ms, allowed m) ∧ t' = t.after ms

namespace Leads

variable {allowed : Maneuver → Prop} {t t' t'' : Tracker}

theorem refl (t : Tracker) : t.Leads allowed t := ⟨[], by simp, rfl⟩

theorem single {m : Maneuver} (h : allowed m) (t : Tracker) : t.Leads allowed (t.afterOne m) :=
  ⟨[m], by simpa using h, rfl⟩

theorem trans (h : t.Leads allowed t') (h' : t'.Leads allowed t'') : t.Leads allowed t'' := by
  obtain ⟨ms, hms, rfl⟩ := h
  obtain ⟨ms', hms', rfl⟩ := h'
  refine ⟨ms ++ ms', ?_, (after_append ..).symm⟩
  intro m hm
  exact (List.mem_append.mp hm).elim (hms m) (hms' m)

end Leads

end Tracker

/-! ### Maneuvers in a world -/

/-- Listeners of positions do to the tracker what allowed maneuvers do. -/
def Host.Steers (host : Host κ ε) (allowed : Maneuver → Prop) : Prop :=
  ∀ listener event (w : World κ ε),
    w.tracker.Leads allowed (host.hearPosition listener event w).2.tracker

namespace World

/-- Makes a maneuver, the listeners included. -/
def steer (host : Host κ ε) (w : World κ ε) (m : Maneuver) :
    Except TrackerError TickReport × World κ ε :=
  w.move host m.commit

/-- The world after some maneuvers. -/
def steerAll (host : Host κ ε) (w : World κ ε) (ms : List Maneuver) : World κ ε :=
  ms.foldl (fun w m => (w.steer host m).2) w

/-- Maneuvers that are reported to nobody are changes of the tracker alone. -/
theorem steer_of_quietly (host : Host κ ε) (w : World κ ε) {m : Maneuver}
    (change : Tracker → Except TrackerError Tracker)
    (h : m.commit w.tracker = Maneuver.quietly (change w.tracker)) :
    w.steer host m = ((w.changeTracker change).1.map fun _ => {}, (w.changeTracker change).2) := by
  unfold steer move changeTracker
  rw [h]
  cases change w.tracker with
  | error e => rfl
  | ok t => rfl

/-- A maneuver is the request or the enrolment of its name, if there is one.  If not, it is a change
of the tracker that is part of something larger: of the removal of revoked subscribers, or of the
restoration of a whole simulation. -/
theorem snd_steer (host : Host κ ε) (w : World κ ε) (m : Maneuver) :
    (w.steer host m).2 = match m with
      | .track p => (w.serve host (.track p)).2
      | .untrack id => (w.serve host (.untrack id)).2
      | .setRule id rule => (w.serve host (.setRule id rule)).2
      | .teleport id coords => (w.serve host (.teleport id coords)).2
      | .stop id => (w.serve host (.stop id)).2
      | .tick elapsed => (w.serve host (.tick elapsed)).2
      | .watchMovement id x => w.enrol (.watchMovement id x)
      | .watchProximity id x => w.enrol (.watchProximity id x)
      | .dropWatches id subscriber => w.enrol (.dropWatches id subscriber)
      | .halt id => { w with tracker := w.tracker.halt id }
      | .prune rs => (w.changeTracker fun t => (t.prune rs).map (·.2)).2
      | .restore slots => (w.changeTracker (·.restore slots)).2 := by
  have hquiet {m : Maneuver} (change : Tracker → Except TrackerError Tracker)
      (h : m.commit w.tracker = Maneuver.quietly (change w.tracker)) :
      (w.steer host m).2 = (w.changeTracker change).2 :=
    congrArg Prod.snd (steer_of_quietly host w change h)
  cases m with
  | stop id | tick elapsed => rfl
  | track p => exact hquiet (·.track p) rfl
  | untrack id =>
    rw [hquiet (fun t => (t.untrack id).map (·.2)) rfl]
    unfold changeTracker serve untrack
    cases huntrack : w.tracker.untrack id with
    | error e => simp only [huntrack, Except.map]
    | ok r => simp only [huntrack, Except.map]
  | setRule id rule => exact hquiet (·.setRule id rule) rfl
  | halt id => exact hquiet (fun t => .ok (t.halt id)) rfl
  | teleport id coords => exact hquiet (·.teleport id coords) rfl
  | watchMovement id x => exact hquiet (·.watchMovement id x) rfl
  | watchProximity id x => exact hquiet (·.watchProximity id x) rfl
  | dropWatches id subscriber =>
    refine hquiet (fun t => (t.dropWatches id subscriber).map (·.2)) ?_
    rfl
  | prune rs =>
    refine hquiet (fun t => (t.prune rs).map (·.2)) ?_
    rfl
  | restore slots => exact hquiet (·.restore slots) rfl

section Listeners

variable {host : Host κ ε} {allowed : Maneuver → Prop}

theorem leads_hearAll (hhost : host.Steers allowed) (calls : List Call) (w : World κ ε) :
    w.tracker.Leads allowed
      (askAll (fun c : Call => host.hearPosition c.notice.listener c.event) calls w).2.tracker := by
  induction calls generalizing w with
  | nil => exact .refl _
  | cons c calls ih =>
    have hfirst := hhost c.notice.listener c.event w
    exact hfirst.trans (ih (host.hearPosition c.notice.listener c.event w).2)

theorem leads_notify (hhost : host.Steers allowed) (hprune : ∀ rs, allowed (.prune rs))
    (report : TickReport) (calls : List Call) (w : World κ ε) :
    w.tracker.Leads allowed (w.notify host report calls).2.tracker := by
  have htold := leads_hearAll hhost calls w
  unfold notify
  rcases hasked : askAll (fun c : Call => host.hearPosition c.notice.listener c.event) calls w with
    ⟨replies, w'⟩
  rw [hasked] at htold
  -- dropping the watches of revoked subscribers is a maneuver of its own
  have hpruned := htold.trans (.single (hprune (Revocation.ofReplies calls replies)) w'.tracker)
  cases hprune : w'.tracker.prune (Revocation.ofReplies calls replies) with
  | error e => simpa only [hprune] using htold
  | ok r =>
    have hone : w'.tracker.afterOne (.prune (Revocation.ofReplies calls replies)) = r.2 := by
      simp only [Tracker.afterOne, Maneuver.commit, Maneuver.quietly, hprune, Except.map]
    rw [hone] at hpruned
    simpa only [hprune] using hpruned

/-- A maneuver commits, and whatever listeners do after that is more of the same. -/
theorem leads_steer (hhost : host.Steers allowed) (hprune : ∀ rs, allowed (.prune rs))
    (w : World κ ε) (m : Maneuver) :
    (w.tracker.afterOne m).Leads allowed (w.steer host m).2.tracker := by
  unfold steer move Tracker.afterOne
  cases m.commit w.tracker with
  | error e => exact .refl _
  | ok r => exact leads_notify hhost hprune r.2.1 r.2.2 { w with tracker := r.1 }

/-- Whatever maneuvers in a world do to the tracker is a list of commits. -/
theorem leads_steerAll (hhost : host.Steers allowed) (hprune : ∀ rs, allowed (.prune rs))
    {ms : List Maneuver} (hms : ∀ m ∈ ms, allowed m) (w : World κ ε) :
    w.tracker.Leads allowed (w.steerAll host ms).tracker := by
  induction ms generalizing w with
  | nil => exact .refl _
  | cons m ms ih =>
    obtain ⟨hm, hrest⟩ := List.forall_mem_cons.mp hms
    have hfirst := (Tracker.Leads.single hm w.tracker).trans (leads_steer hhost hprune w m)
    exact hfirst.trans (ih hrest (w.steer host m).2)

end Listeners

end World

/-! ### What commits keep -/

/-- What a maneuver makes of single positions keeps a property that all of them have. -/
structure Maneuver.Respects (m : Maneuver) (t : Tracker) (Q : PositionId → Tracked → Prop) :
    Prop where
  /-- A position that is newly tracked has it. -/
  track : ∀ p, m = .track p → p.rule.validate = .ok () → Q p.id { position := p }
  /-- A new rule keeps it. -/
  setRule : ∀ id slot rule p, Q id slot → slot.position.setRule rule = .ok p →
    Q id { position := p }
  /-- A jump keeps it. -/
  teleport : ∀ id slot coords p status, Q id slot → slot.position.teleport coords = .ok p →
    Q id { position := p, status := status }
  /-- A stop keeps it. -/
  stop : ∀ id slot, Q id slot → Q id { slot with status := .stopped }
  /-- Watches are not looked at. -/
  watches : ∀ id slot movement proximity, Q id slot →
    Q id { slot with position :=
      { slot.position with movementWatches := movement, proximityWatches := proximity } }
  /-- A tick keeps it. -/
  tick : ∀ elapsed, m = .tick elapsed → ∀ id slot, t.slots.get? id = some slot → Q id slot →
    Q id (slot.alone elapsed (Tracker.coordinatesIn t.slots)
      (Tracker.coordinatesAfter t.slots elapsed))
  /-- A position that is taken over has it. -/
  restore : ∀ slots, m = .restore slots → ∀ slot ∈ slots,
    slot.position.rule.validate = .ok () → Q slot.position.id slot

namespace Tracker

variable {t t' : Tracker}

/-- What a maneuver makes of single positions, its commit makes of all tracked positions. -/
theorem Every.commit {Q : PositionId → Tracked → Prop} (hintact : t.poisoned = false)
    (h : t.Every Q) {m : Maneuver} (hm : m.Respects t Q) {report : TickReport} {calls : List Call}
    (hcommit : m.commit t = .ok (t', report, calls)) : t'.poisoned = false ∧ t'.Every Q := by
  cases m with
  | track p =>
    have htrack := (Maneuver.quietly_eq_ok hcommit).1
    refine ⟨?_, h.track (hm.track p rfl) htrack⟩
    rw [(track_eq_ok htrack).2.2]
    exact hintact
  | untrack id =>
    obtain ⟨⟨p, t''⟩, huntrack, rfl⟩ := Except.map_eq_ok (Maneuver.quietly_eq_ok hcommit).1
    refine ⟨?_, h.untrack huntrack⟩
    rw [untrack_eq_ok huntrack]
    exact hintact
  | setRule id rule =>
    have hset := (Maneuver.quietly_eq_ok hcommit).1
    exact ⟨(poisoned_update hset).trans hintact,
      h.setRule (fun slot p => hm.setRule id slot rule p) hset⟩
  | halt id =>
    cases (Maneuver.quietly_eq_ok hcommit).1
    unfold Tracker.halt
    split
    · next hset =>
      exact ⟨(poisoned_update hset).trans hintact,
        h.setRule (fun slot p => hm.setRule id slot .rest p) hset⟩
    · exact ⟨hintact, h⟩
  | teleport id coords =>
    have hjump := (Maneuver.quietly_eq_ok hcommit).1
    exact ⟨(poisoned_update hjump).trans hintact,
      h.teleport (fun slot p status => hm.teleport id slot coords p status) hjump⟩
  | stop id =>
    have hstop : t.stop id = .ok (t', report, calls) := hcommit
    exact ⟨(poisoned_stop hstop).trans hintact, h.stop (hm.stop id) hstop⟩
  | watchMovement id w | watchProximity id w =>
    have hwatch := (Maneuver.quietly_eq_ok hcommit).1
    refine ⟨(poisoned_update hwatch).trans hintact, h.update (fun slot slot' hQ hslot => ?_) hwatch⟩
    cases hslot
    exact hm.watches id slot _ _ hQ
  | dropWatches id subscriber =>
    obtain ⟨⟨n, t''⟩, hdrop, rfl⟩ := Except.map_eq_ok (Maneuver.quietly_eq_ok hcommit).1
    have hdrop := dropWatches_eq_ok hdrop
    refine ⟨(poisoned_update hdrop).trans hintact, h.update (fun slot slot' hQ hslot => ?_) hdrop⟩
    cases hslot
    exact hm.watches id slot _ _ hQ
  | tick elapsed =>
    have hadvance := advance_eq_ok hintact elapsed
    rw [show t.advance elapsed = _ from hcommit] at hadvance
    cases hadvance
    exact ⟨hintact, h.advance (hm.tick elapsed rfl)⟩
  | prune rs =>
    obtain ⟨⟨n, t''⟩, hprune, rfl⟩ := Except.map_eq_ok (Maneuver.quietly_eq_ok hcommit).1
    obtain rfl := prune_eq_ok hintact hprune
    exact ⟨hintact, h.revoke (fun id slot _ hQ =>
      ⟨hm.watches id slot _ _ hQ, hm.watches id slot _ _ hQ⟩) rs⟩
  | restore slots =>
    obtain ⟨-, hvalid, hpoisoned, hentries⟩ :=
      restore_eq_ok_iff.mp (Maneuver.quietly_eq_ok hcommit).1
    refine ⟨hpoisoned, fun id slot hslot => ?_⟩
    rw [Table.get?_eq_some_iff, hentries] at hslot
    obtain ⟨item, hitem, heq⟩ := List.mem_map.mp hslot
    cases heq
    exact hm.restore slots rfl _ hitem (hvalid _ hitem)

end Tracker

/-! ### Everything stays in its place -/

namespace Tracker

variable {t t' : Tracker}

theorem IsOrderly.commit (h : t.IsOrderly) {m : Maneuver} {report : TickReport}
    {calls : List Call} (hcommit : m.commit t = .ok (t', report, calls)) : t'.IsOrderly := by
  have hm : m.Respects t fun id slot => slot.position.IsFiled id :=
    { track := fun p _ hvalid => ⟨rfl, hvalid⟩
      setRule := fun _ _ _ _ hfiled => hfiled.setRule
      teleport := fun _ _ _ _ _ hfiled => hfiled.teleport
      stop := fun _ _ hfiled => ⟨hfiled.id, hfiled.rule⟩
      watches := fun _ _ _ _ hfiled => ⟨hfiled.id, hfiled.rule⟩
      tick := fun _ _ _ _ _ hfiled => hfiled.alone ..
      restore := fun _ _ _ _ hvalid => ⟨rfl, hvalid⟩ }
  obtain ⟨hintact, hfiled⟩ := h.every.commit h.intact hm hcommit
  exact ⟨hintact, hfiled⟩

theorem isOrderly_empty : ({} : Tracker).IsOrderly := ⟨rfl, nofun⟩

theorem isOrderly_after (h : t.IsOrderly) (ms : List Maneuver) : (t.after ms).IsOrderly :=
  after_induction (P := IsOrderly) (fun _ _ _ _ _ _ ht => ht.commit) h fun _ _ => trivial

/-- What nothing at all has, and what a commit keeps unless it breaks it, holds at all times of a
run from nothing if and only if no commit breaks it. -/
theorem always_iff {P : Tracker → Prop} {breaks : Maneuver → Tracker → Prop} {ms : List Maneuver}
    (hempty : P {})
    (hone : ∀ m ∈ ms, ∀ t : Tracker, t.IsOrderly → P t → (P (t.afterOne m) ↔
      ∀ t' report calls, m.commit t = .ok (t', report, calls) → ¬breaks m t)) :
    (∀ front, front <+: ms → P (({} : Tracker).after front)) ↔
      ∀ m t t' report calls, Commits {} ms m t t' report calls → ¬breaks m t := by
  have horderly : ∀ front, (({} : Tracker).after front).IsOrderly := isOrderly_after isOrderly_empty
  have hnext : ∀ front m,
      ({} : Tracker).after (front ++ [m]) = (({} : Tracker).after front).afterOne m :=
    fun front m => after_append ..
  constructor
  · rintro h m t t' report calls ⟨⟨front, rest, rfl, rfl⟩, hcommit⟩
    have hlong : front ++ [m] <+: front ++ m :: rest := ⟨rest, by simp⟩
    have hafter := h _ hlong
    rw [hnext] at hafter
    exact (hone m (by simp) _ (horderly front) (h front (List.prefix_append ..))).mp hafter
      t' report calls hcommit
  · intro h front
    induction front using List.reverseRecOn with
    | nil => exact fun _ => hempty
    | append_singleton front m ih =>
      rintro ⟨rest, hsplit⟩
      rw [List.append_assoc, List.singleton_append] at hsplit
      have hm : m ∈ ms := by simp [← hsplit]
      rw [hnext]
      refine (hone m hm _ (horderly front) (ih ⟨m :: rest, hsplit⟩)).mpr ?_
      intro t' report calls hcommit
      exact h m _ t' report calls ⟨⟨front, rest, hsplit.symm, rfl⟩, hcommit⟩

/-- What is tracked in good order can be taken over by every tracker that can be trusted. -/
theorem IsOrderly.restore_snapshot (h : t.IsOrderly) :
    t.snapshot = .ok t.slots.values ∧ ∀ t' : Tracker, t'.poisoned = false →
      t'.restore t.slots.values = .ok { t' with slots := t.slots } := by
  have hentries : t.slots.entries =
      t.slots.values.map fun slot => (slot.position.id, slot) :=
    Table.entries_eq_map_values fun id slot hslot => (h.filed id slot hslot).id
  have hvalid : ∀ slot ∈ t.slots.values, slot.position.rule.validate = .ok () := by
    intro slot hslot
    obtain ⟨⟨id, slot⟩, hmem, rfl⟩ := List.mem_map.mp hslot
    exact (h.filed id slot (Table.get?_eq_some_iff.mpr hmem)).rule
  refine ⟨?_, fun t' hintact => restore_eq_ok_iff.mpr ⟨hintact, hvalid, hintact, hentries⟩⟩
  simp only [snapshot, open?_eq_ok h.intact]
  rfl

end Tracker

/-- Whatever maneuvers are made in a world that tracks nothing at first, and whatever maneuvers its
listeners make meanwhile, every tracked position sits under its own identifier, and there once, and
has a valid rule.  So what is tracked can be saved, and taken over again just as it is. -/
theorem World.tracked_restorable (host : Host κ ε) (hhost : host.Steers fun _ => True)
    (w : World κ ε) (hw : w.tracker = {}) (ms : List Maneuver) :
    let t := (w.steerAll host ms).tracker
    t.poisoned = false ∧ t.slots.keys.Nodup ∧
    (∀ id slot, (id, slot) ∈ t.slots.entries →
      slot.position.id = id ∧ slot.position.rule.validate = .ok ()) ∧
    ∃ saved, t.snapshot = .ok saved ∧ saved.map (·.position.id) = t.slots.keys ∧
      t.restore saved = .ok t ∧
      ∀ t' : Tracker, t'.poisoned = false →
        t'.restore saved = .ok { t' with slots := t.slots } := by
  intro t
  have horderly : t.IsOrderly := by
    obtain ⟨commits, -, hcommits⟩ :=
      leads_steerAll hhost (fun _ => trivial) (fun m (_ : m ∈ ms) => trivial) w
    show (w.steerAll host ms).tracker.IsOrderly
    rw [hcommits, hw]
    exact Tracker.isOrderly_after Tracker.isOrderly_empty commits
  have hfiled : ∀ id slot, (id, slot) ∈ t.slots.entries → slot.position.IsFiled id :=
    fun id slot hslot => horderly.filed id slot (Table.get?_eq_some_iff.mpr hslot)
  obtain ⟨hsaved, htaken⟩ := horderly.restore_snapshot
  refine ⟨horderly.intact, t.slots.nodup, fun id slot hslot => ?_, t.slots.values, hsaved, ?_,
    htaken t horderly.intact, htaken⟩
  · exact ⟨(hfiled id slot hslot).id, (hfiled id slot hslot).rule⟩
  · rw [Table.values, Table.keys, List.map_map]
    exact List.map_congr_left fun e he => (hfiled e.1 e.2 he).id

/-! ### A patrol -/

namespace Patrol

/-- The position on patrol. -/
def id : PositionId := ⟨1⟩

/-- An orbit around the origin. -/
def orbit : Orbit Float where
  semiLatusRectum := 10.0
  eccentricity := 0.5
  speed := 1.0
  major := ⟨1.0, 0.0, 0.0⟩
  minor := ⟨0.0, 1.0, 0.0⟩
  origin := .focus
  trueAnomaly := 0.0

/-- The surroundings in which every listener stops the position on patrol and is revoked. -/
def host : Host Unit Unit :=
  { Host.still with
    hearPosition := fun _ _ w =>
      (.error (.revoked "scout"), { w with tracker := w.tracker.halt id }) }

theorem steers_host (allowed : Maneuver → Prop) (h : allowed (.halt id)) : host.Steers allowed :=
  fun _ _ w => ⟨[.halt id], by simpa using h, rfl⟩

/-- A watched patrol, with ticks of lengths that are no lengths, and a jump at the end. -/
def course : List Maneuver :=
  [.track { id := id, rule := .orbit orbit },
    .watchMovement id { subscriber := "scout", listener := ⟨0⟩ }, .tick 1.0,
    .setRule id (.orbit orbit), .tick Double.nan, .tick (1.0 / 0.0), .stop id,
    .teleport id ⟨5.0, 0.0, 0.0⟩]

end Patrol

/-- A patrol can be saved and taken over again. -/
theorem World.tracked_restorable_patrol :
    let t := (({ outside := () } : World Unit Unit).steerAll Patrol.host Patrol.course).tracker
    ∃ saved, t.snapshot = .ok saved ∧ t.restore saved = .ok t := by
  intro t
  obtain ⟨-, -, -, saved, hsaved, -, htaken, -⟩ := tracked_restorable Patrol.host
    (Patrol.steers_host _ trivial) ({ outside := () } : World Unit Unit) rfl Patrol.course
  exact ⟨saved, hsaved, htaken⟩

end Orrery
