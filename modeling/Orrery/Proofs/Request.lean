import Orrery.Proofs.SilentWorld

/-!
# Requests to a world

A world is used through requests, which it answers, and by those who want to listen to it, who
enrol.  If listeners only reply, what a request comes to does not depend on them
(`World.serve_silenced`), and an enrolment does not show in silence (`World.enrol_silenced`).
-/

namespace Orrery

variable {κ ε : Type}

/-! ### Requests -/

/-- What a world can be asked for. -/
inductive Request (κ : Type) where
  | track (p : Position)
  | untrack (id : PositionId)
  | setRule (id : PositionId) (rule : Rule Float)
  | teleport (id : PositionId) (coords : Point)
  /-- To stop a position. -/
  | stop (id : PositionId)
  /-- To advance every active position. -/
  | tick (elapsed : Float)
  | create (e : Entity)
  | remove (now : Float) (id : EntityId)
  | addCommand (c : Command κ)
  /-- To stop every command that acts on an entity. -/
  | stopCommands (now : Float) (id : EntityId)
  | tickCommands (now : Float)
  /-- To hand material over. -/
  | transfer (src dst : EntityId) (material : String) (quantity : UInt32)

/-- What a world answers to a request. -/
inductive Answer where
  /-- To a change of the tracked positions. -/
  | tracker (r : Except TrackerError Unit)
  /-- The position that is tracked no more, if it was. -/
  | untracked (r : Except TrackerError (Option Position))
  | moved (r : Except TrackerError TickReport)
  /-- To a change of the registry. -/
  | registry (r : Except RegistryError Unit)
  | removed (r : Except RegistryError Entity)
  /-- The names of the commands that were stopped. -/
  | stopped (r : Except RegistryError (List CommandId))
  | ticked (r : Except RegistryError World.CommandReport)

/-- Without anything that a listener has to do with. -/
def Request.silenced : Request κ → Request κ
  | track p => track p.silenced
  | create e => create e.silenced
  | r => r

/-- Without anything that a listener has to do with. -/
def Answer.silenced : Answer → Answer
  | tracker r => tracker r
  | untracked r => untracked (r.map (Option.map Position.silenced))
  | moved r => moved (r.map TickReport.silenced)
  | registry r => registry r
  | removed r => removed (r.map Entity.silenced)
  | stopped r => stopped r
  | ticked r => ticked (r.map World.CommandReport.silenced)

/-- Only attacks and mining runs are scheduled. -/
def Request.IsBuiltIn : Request κ → Prop
  | addCommand c => c.BuiltIn
  | _ => True

namespace World

/-- Makes a change to the tracked positions. -/
def changeTracker (w : World κ ε) (change : Tracker → Except TrackerError Tracker) :
    Except TrackerError Unit × World κ ε :=
  match change w.tracker with
  | .error e => (.error e, w)
  | .ok tracker => (.ok (), { w with tracker := tracker })

/-- Makes a change to the registry. -/
def changeRegistry (w : World κ ε) (change : Registry κ → Except RegistryError (Registry κ)) :
    Except RegistryError Unit × World κ ε :=
  match change w.registry with
  | .error e => (.error e, w)
  | .ok registry => (.ok (), { w with registry := registry })

/-- Ends tracking a position. -/
def untrack (w : World κ ε) (id : PositionId) : Except TrackerError (Option Position) × World κ ε :=
  match w.tracker.untrack id with
  | .error e => (.error e, w)
  | .ok (p, tracker) => (.ok p, { w with tracker := tracker })

/-- Serves a request. -/
def serve (host : Host κ ε) (w : World κ ε) : Request κ → Answer × World κ ε
  | .track p =>
    let (r, w) := w.changeTracker (·.track p)
    (.tracker r, w)
  | .untrack id =>
    let (r, w) := w.untrack id
    (.untracked r, w)
  | .setRule id rule =>
    let (r, w) := w.changeTracker (·.setRule id rule)
    (.tracker r, w)
  | .teleport id coords =>
    let (r, w) := w.changeTracker (·.teleport id coords)
    (.tracker r, w)
  | .stop id =>
    let (r, w) := w.stop host id
    (.moved r, w)
  | .tick elapsed =>
    let (r, w) := w.tick host elapsed
    (.moved r, w)
  | .create e =>
    let (r, w) := w.changeRegistry (·.create e)
    (.registry r, w)
  | .remove now id =>
    let (r, w) := w.remove host now id
    (.removed r, w)
  | .addCommand c =>
    let (r, w) := w.changeRegistry (·.addCommand c)
    (.registry r, w)
  | .stopCommands now id =>
    let (r, w) := w.stopCommands host now id
    (.stopped r, w)
  | .tickCommands now =>
    let (r, w) := w.tickCommands host now
    (.ticked r, w)
  | .transfer src dst material quantity =>
    let (r, w) := w.transfer host src dst material quantity
    (.registry r, w)

section Changes

variable {w : World κ ε}

theorem changeTracker_silenced (hw : w.IsOrderly)
    (change change' : Tracker → Except TrackerError Tracker)
    (h : change' w.tracker.silenced = (change w.tracker).map Tracker.silenced)
    (hkeeps : ∀ t, change w.tracker = .ok t → t.IsOrderly) :
    w.silenced.changeTracker change' =
        ((w.changeTracker change).1, (w.changeTracker change).2.silenced) ∧
      (w.changeTracker change).2.IsOrderly := by
  unfold changeTracker
  rw [tracker_silenced, h]
  cases hchange : change w.tracker with
  | error e => exact ⟨rfl, hw⟩
  | ok t => exact ⟨rfl, hkeeps t hchange, hw.registry, hw.entities, hw.builtIn⟩

theorem untrack_silenced (hw : w.IsOrderly) (id : PositionId) :
    w.silenced.untrack id =
        ((w.untrack id).1.map (Option.map Position.silenced), (w.untrack id).2.silenced) ∧
      (w.untrack id).2.IsOrderly := by
  unfold untrack
  rw [tracker_silenced, Tracker.untrack_silenced]
  cases huntrack : w.tracker.untrack id with
  | error e => exact ⟨rfl, hw⟩
  | ok r => exact ⟨rfl, hw.tracker.untrack huntrack, hw.registry, hw.entities, hw.builtIn⟩

theorem changeRegistry_silenced (hw : w.IsOrderly)
    (change change' : Registry κ → Except RegistryError (Registry κ))
    (h : change' w.registry.silenced = (change w.registry).map Registry.silenced)
    (hkeeps : ∀ r, change w.registry = .ok r → { w with registry := r }.IsOrderly) :
    w.silenced.changeRegistry change' =
        ((w.changeRegistry change).1, (w.changeRegistry change).2.silenced) ∧
      (w.changeRegistry change).2.IsOrderly := by
  unfold changeRegistry
  rw [registry_silenced, h]
  cases hchange : change w.registry with
  | error e => exact ⟨rfl, hw⟩
  | ok r => exact ⟨rfl, hkeeps r hchange⟩

end Changes

/-- What is answered in silence, if what comes of a request is the same in silence. -/
theorem answer_silenced {α : Type} (f : α → Answer) (g : α → α)
    (hf : ∀ a, f (g a) = (f a).silenced) {x : α × World κ ε} {x' : α × World κ Unit}
    (h : x' = (g x.1, x.2.silenced) ∧ x.2.IsOrderly) :
    (f x'.1, x'.2) = ((f x.1).silenced, x.2.silenced) ∧ x.2.IsOrderly := by
  obtain ⟨rfl, hkept⟩ := h
  exact ⟨congrArg (·, x.2.silenced) (hf x.1), hkept⟩

/-- What a request comes to does not depend on listeners that only reply: in silence the world
leaves and answers the same. -/
theorem serve_silenced {host : Host κ ε} (mute : Host κ Unit) (hhost : host.OnlyReplies)
    {w : World κ ε} (hw : w.IsOrderly) {r : Request κ} (hr : r.IsBuiltIn) :
    w.silenced.serve mute r.silenced =
        ((w.serve host r).1.silenced, (w.serve host r).2.silenced) ∧
      (w.serve host r).2.IsOrderly := by
  cases r with
  | track p =>
    have htrack := changeTracker_silenced hw (·.track p) (·.track p.silenced)
      (w.tracker.track_silenced p) fun _ h => hw.tracker.track h
    exact answer_silenced .tracker (fun r => r) (fun _ => rfl) htrack
  | untrack id =>
    exact answer_silenced .untracked _ (fun _ => rfl) (untrack_silenced hw id)
  | setRule id rule =>
    have hset := changeTracker_silenced hw (·.setRule id rule) (·.setRule id rule)
      (w.tracker.setRule_silenced id rule) fun _ h => hw.tracker.setRule h
    exact answer_silenced .tracker (fun r => r) (fun _ => rfl) hset
  | teleport id coords =>
    have hteleport := changeTracker_silenced hw (·.teleport id coords) (·.teleport id coords)
      (w.tracker.teleport_silenced id coords) fun _ h => hw.tracker.teleport h
    exact answer_silenced .tracker (fun r => r) (fun _ => rfl) hteleport
  | stop id =>
    exact answer_silenced .moved _ (fun _ => rfl) (stop_silenced mute hhost hw id)
  | tick elapsed =>
    exact answer_silenced .moved _ (fun _ => rfl) (tick_silenced mute hhost hw elapsed)
  | create e =>
    have hcreate := changeRegistry_silenced hw (·.create e) (·.create e.silenced)
      (w.registry.create_silenced e) fun r h => by
        obtain ⟨es, hadd, rfl⟩ := Registry.create_eq_ok h
        exact ⟨hw.tracker, hw.registry, hw.entities.add hadd, hw.builtIn⟩
    exact answer_silenced .registry (fun r => r) (fun _ => rfl) hcreate
  | remove now id =>
    exact answer_silenced .removed _ (fun _ => rfl) (remove_silenced mute hhost hw now id)
  | addCommand c =>
    have hadd := changeRegistry_silenced hw (·.addCommand c) (·.addCommand c)
      (w.registry.addCommand_silenced c) fun r h => by
        obtain ⟨s, hadd, rfl⟩ := Registry.addCommand_eq_ok h
        exact ⟨hw.tracker, hw.registry, hw.entities, hw.builtIn.add hr hadd⟩
    exact answer_silenced .registry (fun r => r) (fun _ => rfl) hadd
  | stopCommands now id =>
    have hstop := stopCommands_silenced mute hhost hw now id
    exact answer_silenced .stopped (fun r => r) (fun _ => rfl) hstop
  | tickCommands now =>
    exact answer_silenced .ticked _ (fun _ => rfl) (tickCommands_silenced mute hhost hw now)
  | transfer src dst material quantity =>
    have htransfer := transfer_silenced mute hhost hw src dst material quantity
    exact answer_silenced .registry (fun r => r) (fun _ => rfl) htransfer

end World

/-! ### Enrolments -/

/-- What can be done to listen to a world, or to listen no more. -/
inductive Enrolment where
  | watchMovement (id : PositionId) (w : MovementWatch)
  | watchProximity (id : PositionId) (w : ProximityWatch)
  /-- Drops all watches of a subscriber on one position. -/
  | dropWatches (id : PositionId) (subscriber : String)
  | subscribe (id : EntityId) (kind : EventKind) (s : Subscription)
  /-- Drops all subscriptions of a subscriber to one entity. -/
  | unsubscribe (id : EntityId) (subscriber : String)

namespace World

/-- The world after an enrolment, which may be refused. -/
def enrol (w : World κ ε) : Enrolment → World κ ε
  | .watchMovement id x => (w.changeTracker (·.watchMovement id x)).2
  | .watchProximity id x => (w.changeTracker (·.watchProximity id x)).2
  | .dropWatches id subscriber =>
    (w.changeTracker fun t => (t.dropWatches id subscriber).map (·.2)).2
  | .subscribe id kind s => (w.changeRegistry (·.subscribe id kind s)).2
  | .unsubscribe id subscriber =>
    (w.changeRegistry fun r => (r.unsubscribe id subscriber).map (·.2)).2

end World

theorem Tracker.dropWatches_eq_ok {t t' : Tracker} {id : PositionId} {subscriber : String} {n : Nat}
    (h : t.dropWatches id subscriber = .ok (n, t')) :
    t.update id (fun slot => .ok { slot with
      position := (slot.position.dropMovement subscriber).dropProximity subscriber }) = .ok t' := by
  unfold dropWatches at h
  cases hslot : t.require id with
  | error e =>
    rw [hslot] at h
    cases h
  | ok slot =>
    simp only [hslot, bind, Except.bind] at h
    split at h
    · cases h
    · next hupdate =>
      cases h
      exact hupdate

namespace Registry

variable {r r' : Registry κ} {id : EntityId}

theorem subscribe_eq_ok {kind : EventKind} {s : Subscription}
    (h : r.subscribe id kind s = .ok r') :
    ∃ events, r' = { r with entities := r.entities.putEvents id events } := by
  simp only [subscribe, bind, Except.bind] at h
  split at h
  · cases h
  · split at h
    · cases h
    · split at h
      · cases h
      · cases h
        exact ⟨_, rfl⟩

theorem unsubscribe_eq_ok {subscriber : String} {n : Nat}
    (h : r.unsubscribe id subscriber = .ok (n, r')) :
    r' = r ∨ ∃ events, r' = { r with entities := r.entities.putEvents id events } := by
  simp only [unsubscribe, bind, Except.bind] at h
  split at h
  · cases h
  · split at h
    · cases h
    · split at h
      · cases h
        exact .inl rfl
      · cases h
        exact .inr ⟨_, rfl⟩

end Registry

namespace World

variable {w : World κ ε}

/-- A change of the watches on one position does not show in silence. -/
theorem rewatch_silenced (hw : w.IsOrderly) {change : Tracker → Except TrackerError Tracker}
    (id : PositionId) (f : Tracked → Tracked)
    (h : ∀ t, change w.tracker = .ok t → w.tracker.update id (fun slot => .ok (f slot)) = .ok t)
    (hsilent : ∀ slot, (f slot).silenced = slot.silenced) :
    (w.changeTracker change).2.silenced = w.silenced ∧ (w.changeTracker change).2.IsOrderly := by
  unfold changeTracker
  cases hchange : change w.tracker with
  | error e => exact ⟨rfl, hw⟩
  | ok t =>
    have hkept : t.IsOrderly := hw.tracker.update (fun slot slot' hfiled hslot' => by
      cases hslot'
      have hposition := congrArg (·.position) (hsilent slot)
      exact ⟨(congrArg Position.id hposition).trans hfiled.id,
        (congrArg (·.rule.validate) hposition).trans hfiled.rule⟩) (h t hchange)
    obtain ⟨slot, slot', hslot, hf, rfl⟩ := Tracker.update_eq_ok (h t hchange)
    cases hf
    have hsame : { w.tracker with slots := w.tracker.slots.modify id fun _ => f slot }.silenced =
        w.tracker.silenced := Tracker.silenced_of_rewatch fun old hold => by
      rw [hslot] at hold
      cases hold
      exact hsilent slot
    exact ⟨congrArg (World.mk · w.registry.silenced ()) hsame, hkept, hw.registry, hw.entities,
      hw.builtIn⟩

/-- A change of the listeners of one entity does not show in silence. -/
theorem relisten_silenced (hw : w.IsOrderly)
    {change : Registry κ → Except RegistryError (Registry κ)} (id : EntityId)
    (h : ∀ r, change w.registry = .ok r → r = w.registry ∨ ∃ events,
      r = { w.registry with entities := w.registry.entities.putEvents id events }) :
    (w.changeRegistry change).2.silenced = w.silenced ∧ (w.changeRegistry change).2.IsOrderly := by
  unfold changeRegistry
  cases hchange : change w.registry with
  | error e => exact ⟨rfl, hw⟩
  | ok r =>
    obtain rfl | ⟨events, rfl⟩ := h r hchange
    · exact ⟨rfl, hw⟩
    · refine ⟨?_, hw.tracker, hw.registry, hw.entities.putEvents events, hw.builtIn⟩
      simp only [silenced, Registry.silenced, Entities.silenced_putEvents]

/-- An enrolment does not show in silence. -/
theorem enrol_silenced (hw : w.IsOrderly) (x : Enrolment) :
    (w.enrol x).silenced = w.silenced ∧ (w.enrol x).IsOrderly := by
  cases x with
  | watchMovement id x | watchProximity id x =>
    exact rewatch_silenced hw id _ (fun _ h => h) fun _ => rfl
  | dropWatches id subscriber =>
    refine rewatch_silenced hw id (fun slot => { slot with
      position := (slot.position.dropMovement subscriber).dropProximity subscriber })
      (fun t h => ?_) fun _ => rfl
    obtain ⟨⟨n, t'⟩, hdrop, rfl⟩ := Except.map_eq_ok h
    exact Tracker.dropWatches_eq_ok hdrop
  | subscribe id kind s =>
    exact relisten_silenced hw id fun r h => .inr (Registry.subscribe_eq_ok h)
  | unsubscribe id subscriber =>
    refine relisten_silenced hw id fun r h => ?_
    obtain ⟨⟨n, r'⟩, hunsubscribe, rfl⟩ := Except.map_eq_ok h
    exact Registry.unsubscribe_eq_ok hunsubscribe

end World

end Orrery
