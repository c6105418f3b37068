import Orrery.Proofs.Maneuver
import Orrery.Proofs.Write

/-!
# Moorings

Every entity refers to a position, which should be tracked for as long as the entity is there.
Positions are shared: the loot of a wreck is where the wreck is.  So commands, which create loot on
the side, never refer to another position than a ship does, and the position of an entity that is
removed is released only if no other one refers to it (`World.Moored.commit`).

Whether an operation is allowed depends here on the world in which it is performed, since an entity
must not be created at a position that is not tracked (`Operation.Moors`).  So `World.Allows` and
`World.AllowsAll` follow the world along a run.  Beside the registry anything may be done to the
tracked positions that does not end tracking (`Operation.moors_drift`).
-/

namespace Orrery

/-! ### What is tracked -/

namespace Tracker

variable {t t' : Tracker} {id : PositionId}

theorem contains_eq (t : Tracker) (id : PositionId) :
    t.contains id = (!t.poisoned && (t.slots.get? id).isSome) := by
  rw [contains, Bool.eq_iff_iff, Bool.and_eq_true, Bool.and_eq_true, Table.contains_iff]

/-- What changes slots in their places leaves everything tracked. -/
theorem contains_of_isSome (hpoisoned : t'.poisoned = t.poisoned)
    (hslots : (t.slots.get? id).isSome → (t'.slots.get? id).isSome)
    (h : t.contains id = true) : t'.contains id = true := by
  rw [contains_eq, Bool.and_eq_true] at h ⊢
  exact ⟨hpoisoned ▸ h.1, hslots h.2⟩

theorem contains_modify (t : Tracker) (id : PositionId) (f : Tracked → Tracked) (j : PositionId) :
    { t with slots := t.slots.modify id f }.contains j = t.contains j := by
  rw [contains_eq, contains_eq, Table.get?_modify]
  split
  · rw [Option.isSome_map]
  · rfl

theorem contains_update {f : Tracked → Except TrackerError Tracked} (h : t.update id f = .ok t')
    (j : PositionId) : t'.contains j = t.contains j := by
  obtain ⟨-, -, -, -, rfl⟩ := update_eq_ok h
  exact contains_modify ..

theorem contains_halt (t : Tracker) (id j : PositionId) :
    (t.halt id).contains j = t.contains j := by
  unfold halt
  split
  · next hset => exact contains_update hset j
  · rfl

theorem contains_haltAll (t : Tracker) (ids : List PositionId) (j : PositionId) :
    (t.haltAll ids).contains j = t.contains j := by
  induction ids generalizing t with
  | nil => rfl
  | cons id ids ih => exact (ih (t.halt id)).trans (contains_halt t id j)

theorem contains_revoke (t : Tracker) (rs : List Revocation) (j : PositionId) :
    { t with slots := rs.foldl revoke t.slots }.contains j = t.contains j := by
  induction rs generalizing t with
  | nil => rfl
  | cons r rs ih => exact (ih { t with slots := revoke t.slots r }).trans (contains_modify ..)

/-- A position that is released is not tracked any more, but all others are. -/
theorem release_spec (h : t.poisoned = false) (id : PositionId) :
    (t.release id).contains id = false ∧
      ∀ j, j ≠ id → (t.release id).contains j = t.contains j ∧
        (t.release id).slots.get? j = t.slots.get? j := by
  have hrelease : t.release id = { t with slots := t.slots.erase id } := by
    unfold release untrack
    rw [open?_eq_ok h]
    rfl
  rw [hrelease]
  constructor
  · rw [contains_eq, Table.get?_erase, if_pos rfl, Option.isSome_none, Bool.and_false]
  · intro j hj
    rw [contains_eq, contains_eq, Table.get?_erase, if_neg hj]
    exact ⟨rfl, rfl⟩

end Tracker

/-- A position may be untracked on purpose, and a restoration tracks other positions instead. -/
def Maneuver.KeepsTracking : Maneuver → Prop
  | untrack _ | restore _ => False
  | _ => True

namespace Tracker

variable {t t' : Tracker} {j : PositionId}

/-- Nothing else that is done to a tracker ends tracking. -/
theorem contains_commit {m : Maneuver} (hm : m.KeepsTracking) {report : TickReport}
    {calls : List Call} (h : t.contains j = true) (hcommit : m.commit t = .ok (t', report, calls)) :
    t'.contains j = true := by
  have hopen : t.poisoned = false := by
    rw [contains_eq, Bool.and_eq_true, Bool.not_eq_true'] at h
    exact h.1
  cases m with
  | untrack id | restore slots => exact hm.elim
  | track p =>
    obtain ⟨-, -, rfl⟩ := track_eq_ok (Maneuver.quietly_eq_ok hcommit).1
    refine contains_of_isSome (t := t) rfl (fun hsome => ?_) h
    rw [Table.get?_insert]
    split
    · rfl
    · exact hsome
  | setRule id rule | teleport id coords | watchMovement id w | watchProximity id w =>
    exact (contains_update (Maneuver.quietly_eq_ok hcommit).1 j).trans h
  | halt id =>
    cases (Maneuver.quietly_eq_ok hcommit).1
    exact (contains_halt t id j).trans h
  | stop id =>
    obtain ⟨-, -, ⟨-, rfl, -, -⟩ | ⟨-, rfl, -, -⟩⟩ := stop_eq_ok hcommit
    · exact h
    · exact (contains_modify ..).trans h
  | dropWatches id subscriber =>
    obtain ⟨⟨n, t''⟩, hdrop, rfl⟩ := Except.map_eq_ok (Maneuver.quietly_eq_ok hcommit).1
    exact (contains_update (dropWatches_eq_ok hdrop) j).trans h
  | tick elapsed =>
    have hadvance := advance_eq_ok hopen elapsed
    rw [show t.advance elapsed = _ from hcommit] at hadvance
    cases hadvance
    refine contains_of_isSome (t := t) rfl (fun hsome => ?_) h
    rw [Tick.get?_run, Option.isSome_map]
    exact hsome
  | prune rs =>
    obtain ⟨⟨n, t''⟩, hprune, rfl⟩ := Except.map_eq_ok (Maneuver.quietly_eq_ok hcommit).1
    obtain rfl := prune_eq_ok hopen hprune
    exact (contains_revoke t rs j).trans h

theorem contains_after {ms : List Maneuver} (hms : ∀ m ∈ ms, m.KeepsTracking)
    (h : t.contains j = true) : (t.after ms).contains j = true :=
  after_induction (P := fun t => t.contains j = true)
    (fun _ _ _ _ _ hm ht hcommit => contains_commit hm ht hcommit) h hms

end Tracker

/-! ### Hooks -/

/-- Every entity refers to a position that is tracked. -/
def Entities.MooredTo (es : Entities) (t : Tracker) : Prop :=
  ∀ id e, es.get? id = some e → t.contains e.position = true

namespace Entities.MooredTo

variable {es es' : Entities} {t t' : Tracker}

theorem mono (h : es.MooredTo t) (ht : ∀ id, t.contains id = true → t'.contains id = true) :
    es.MooredTo t' := fun id e he => ht _ (h id e he)

/-- Loot refers to the position of a ship. -/
theorem retains (h : es.MooredTo t) (hes : es.Retains es') : es'.MooredTo t := by
  intro id e' he'
  cases he : es.get? id with
  | some e =>
    have hcore := hes.kept id e he
    rw [he'] at hcore
    rw [Entity.position_of_core (Option.some.inj hcore)]
    exact h id e he
  | none =>
    obtain ⟨loot, j, wreck, rfl, hwreck, hposition⟩ := hes.new id e' he he'
    have hmoored := h j _ hwreck
    rwa [Entity.position, hposition]

end Entities.MooredTo

variable {κ ε : Type}

/-- What commands find is moored. -/
def Setting.Moored (s : Setting κ ε) : Prop := s.entities.MooredTo s.tracker

namespace Command

variable (host : CommandHost κ ε) {c : Command κ}

theorem BuiltIn.moored_run (hc : c.BuiltIn) (stage : Stage) {s : Setting κ ε} (hs : s.Moored) :
    (c.run host stage s).2.2.Moored := by
  have hentities : (c.run host stage s).2.2.entities.MooredTo s.tracker :=
    Entities.MooredTo.retains hs (hc.run_spares host stage s).2
  unfold Setting.Moored
  rw [hc.tracker_run host stage s (c.run host stage s).1 s.scene]
  exact hentities.mono fun j hj => (Tracker.contains_haltAll s.tracker _ j).trans hj

theorem BuiltIn.moored_tick (hc : c.BuiltIn) {s : Setting κ ε} (hs : s.Moored) :
    (c.tick host s).2.2.Moored :=
  (tick_keeps (P := fun (c : Command κ) (s : Setting κ ε) => c.BuiltIn ∧ s.Moored) host
    (fun stage c s hcs => ⟨by rw [hcs.1.run_eq_self host stage s]; exact hcs.1,
      hcs.1.moored_run host stage hcs.2⟩)
    (fun _ _ _ hcs => hcs) ⟨hc, hs⟩).2

end Command

namespace Session

variable (host : CommandHost κ ε) {x : Session κ ε}

theorem moored_tick (hx : x.schedule.BuiltIn) (hs : x.setting.Moored) :
    (x.tick host).2.setting.Moored :=
  (tick_keeps host (fun _ s hc hs => ⟨hc.tick host s, hc.moored_tick host hs⟩)
    (fun _ _ hc hs => hc.moored_run host .stop hs) (fun _ _ hs => hs) hx hs).2

theorem moored_meetRequests (hx : x.schedule.BuiltIn) (hs : x.setting.Moored) :
    (x.meetRequests host).2.setting.Moored :=
  (Sweep.meetRequests_keeps (w := { session := x })
    (fun _ _ hc hs => hc.moored_run host .stop hs) (fun _ _ hs => hs) hx hs).2

end Session

/-! ### Operations -/

/-- Entities are created where a position is tracked, only attacks and mining runs are scheduled,
and positions stay tracked. -/
def Operation.Moors (w : World κ ε) : Operation κ ε → Prop
  | create e => ∀ r, w.registry.create e = .ok r → w.tracker.contains e.position = true
  | schedule c => c.BuiltIn
  | drift tracker _ => ∀ id, w.tracker.contains id = true → tracker.contains id = true
  | _ => True

/-- Whatever else is done to the tracked positions may happen beside the registry. -/
theorem Operation.moors_drift {ms : List Maneuver} (hms : ∀ m ∈ ms, m.KeepsTracking)
    (w : World κ ε) (outside : ε) : Operation.Moors w (.drift (w.tracker.after ms) outside) :=
  fun _ h => Tracker.contains_after hms h

/-- The registry can be used, has attacks and mining runs only, and all of its entities refer to
positions that are tracked. -/
structure World.Moored (w : World κ ε) : Prop where
  intact : w.registry.poisoned = false
  builtIn : w.registry.schedule.BuiltIn
  entities : w.registry.entities.MooredTo w.tracker

namespace Registry

/-- Handing material over takes place between entities that are there. -/
theorem retains_moveMaterial (es : Entities) (src dst : EntityId) (material : String)
    (quantity : UInt32) : es.Retains (moveMaterial es src dst material quantity).2 :=
  moveMaterial_keeps (P := es.Retains)
    (fun es' id hold h => h.trans (Entities.Retains.putHold es' id hold))
    (Entities.Retains.refl es) src dst material quantity

end Registry

namespace World.Moored

variable {w : World κ ε}

theorem listen (h : w.Moored) (id : EntityId) (events : EventTable) :
    (w.listen id events).Moored := by
  refine ⟨h.intact, h.builtIn, fun j e he => ?_⟩
  have hget : (w.registry.entities.adjust id (·.withEvents events)).get? j = some e := he
  rw [Entities.get?_adjust] at hget
  split at hget
  · obtain ⟨old, hold, rfl⟩ := Option.map_eq_some_iff.mp hget
    have hposition : (old.withEvents events).position = old.position := by cases old <;> rfl
    rw [hposition]
    exact h.entities j old hold
  · exact h.entities j e hget

/-- The position of an entity that is removed stays tracked if another one refers to it. -/
theorem erase (h : w.Moored) (id : EntityId) : (w.erase id).Moored := by
  refine ⟨h.intact, h.builtIn, fun j e he => ?_⟩
  have hget : (w.registry.entities.erase id).get? j = some e := he
  have hmoored : w.tracker.contains e.position = true := by
    rw [Entities.get?_erase] at hget
    split at hget
    · cases hget
    · exact h.entities j e hget
  have hintact : w.tracker.poisoned = false := by
    rw [Tracker.contains_eq, Bool.and_eq_true, Bool.not_eq_true'] at hmoored
    exact hmoored.1
  unfold World.erase
  simp only []
  split
  · exact hmoored
  · next gone hgone =>
    split
    · exact hmoored
    · next hunused =>
      -- the position that is released is another one
      have hne : e.position ≠ gone.position := by
        intro heq
        refine hunused (List.any_eq_true.mpr ⟨e, ?_, decide_eq_true heq⟩)
        exact List.mem_map.mpr ⟨(j, e), Table.get?_eq_some_iff.mp hget, rfl⟩
      rw [((Tracker.release_spec hintact gone.position).2 e.position hne).1]
      exact hmoored

/-- Every commit leaves all entities where a position is tracked. -/
theorem commit (host : CommandHost κ ε) (h : w.Moored) {op : Operation κ ε} (hop : op.Moors w) :
    (op.commit host w).2.Moored := by
  obtain ⟨hintact, hbuiltIn, hmoored⟩ := h
  have heffect := op.effect_commit host w
  have hallowed : ∀ e, op = .create e → ∀ es, w.registry.entities.add e = .ok es →
      w.tracker.contains e.position = true := by
    rintro e rfl es hadd
    refine hop { w.registry with entities := es } ?_
    rw [Registry.create, Registry.check_of_intact hintact, hadd]
    rfl
  generalize op.commit host w = r at heffect
  cases heffect with
  | refused => exact ⟨hintact, hbuiltIn, hmoored⟩
  | @create e es hadd =>
    refine ⟨hintact, hbuiltIn, fun j e' he' => ?_⟩
    have hget := (Entities.get?_of_add hadd).2 j
    rw [show es.get? j = some e' from he'] at hget
    split at hget
    · cases hget
      exact hallowed e rfl es hadd
    · exact hmoored j e' hget.symm
  | schedule hadd => exact ⟨hintact, hbuiltIn.add hop hadd, hmoored⟩
  | tick now =>
    exact ⟨hintact, Session.builtIn_tick host (x := w.session now) hbuiltIn,
      Session.moored_tick host (x := w.session now) hbuiltIn hmoored⟩
  | stopCommands now id =>
    exact ⟨hintact, Session.builtIn_meetRequests host (x := w.stopping now id) hbuiltIn,
      Session.moored_meetRequests host (x := w.stopping now id) hbuiltIn hmoored⟩
  | remove now id =>
    have hstopped : (w.resume ((w.stopping now id).meetRequests host).2).Moored :=
      ⟨hintact, Session.builtIn_meetRequests host (x := w.stopping now id) hbuiltIn,
        Session.moored_meetRequests host (x := w.stopping now id) hbuiltIn hmoored⟩
    exact hstopped.erase id
  | transfer src dst material quantity =>
    exact ⟨hintact, hbuiltIn, hmoored.retains (Registry.retains_moveMaterial ..)⟩
  | listen id events => exact World.Moored.listen ⟨hintact, hbuiltIn, hmoored⟩ id events
  | drift tracker outside => exact ⟨hintact, hbuiltIn, hmoored.mono hop⟩

end World.Moored

/-! ### Runs -/

/-- Operations each of which is allowed in the world in which it commits. -/
def World.Allows (host : CommandHost κ ε) (allowed : World κ ε → Operation κ ε → Prop) :
    World κ ε → List (Operation κ ε) → Prop
  | _, [] => True
  | w, op :: ops => allowed w op ∧ Allows host allowed (op.commit host w).2 ops

/-- Operations each of which is allowed in the world in which it is performed. -/
def World.AllowsAll (host : Host κ ε) (allowed : World κ ε → Operation κ ε → Prop) :
    World κ ε → List (Operation κ ε) → Prop
  | _, [] => True
  | w, op :: ops => allowed w op ∧ AllowsAll host allowed (op.perform host w) ops

/-- Listeners of entities do to the world what operations do that are allowed then. -/
def Host.Follows (host : Host κ ε) (allowed : World κ ε → Operation κ ε → Prop) : Prop :=
  ∀ listener event w, ∃ ops, w.Allows host.toCommandHost allowed ops ∧
    (host.hearEntity listener event w).2 = w.after host.toCommandHost ops

namespace World

variable {P : World κ ε → Prop} {allowed : World κ ε → Operation κ ε → Prop}

theorem after_keeps {host : CommandHost κ ε}
    (hcommit : ∀ w op, allowed w op → P w → P (op.commit host w).2) {w : World κ ε} (hw : P w)
    {ops : List (Operation κ ε)} (hops : w.Allows host allowed ops) : P (w.after host ops) := by
  induction ops generalizing w with
  | nil => exact hw
  | cons op ops ih => exact ih (hcommit w op hops.1 hw) hops.2

variable {host : Host κ ε}

/-- What listeners keep, and what does not depend on who listens, survives announcements. -/
theorem deliver_keeps (hhear : ∀ listener event w, P w → P (host.hearEntity listener event w).2)
    (hlisten : ∀ w id events, P w → P (w.listen id events)) (announcements : List Announcement)
    {w : World κ ε} (hw : P w) : P (w.deliver host announcements).2 := by
  have htold := announced_keeps hhear announcements hw
  unfold deliver
  rcases hasked : askAll (announce host) announcements w with ⟨reports, w'⟩
  rw [hasked] at htold
  simp only []
  split
  · exact htold
  · split
    · exact htold
    -- pruning replaces listeners, one table after the other
    · have hpruned : w'.Leads host.toCommandHost (fun op => ∃ id events, op = .listen id events)
          (w'.withRegistry { w'.registry with
            entities := (w'.registry.entities.prune (revocations announcements reports)).2 }) :=
        leads_prune (fun id events => ⟨id, events, rfl⟩) w' _ 0
      obtain ⟨ops, hops, heq⟩ := hpruned
      have hkept : P (w'.after host.toCommandHost ops) := by
        refine after_induction host.toCommandHost (fun w op hop hw => ?_) htold hops
        obtain ⟨id, events, rfl⟩ := hop
        exact hlisten w id events hw
      rw [← heq] at hkept
      exact hkept

/-- An operation commits, and then announcements are made, if it comes to that. -/
theorem perform_eq_deliver (host : Host κ ε) (op : Operation κ ε) (w : World κ ε) :
    op.perform host w = (op.commit host.toCommandHost w).2 ∨
      ∃ announcements, op.perform host w =
        ((op.commit host.toCommandHost w).2.deliver host announcements).2 := by
  cases op with
  | create | schedule | listen | drift => exact .inl rfl
  | tick now =>
    simp only [Operation.perform, Operation.commit, tickCommands]
    cases w.registry.check with
    | error e => exact .inl rfl
    | ok => exact .inr ⟨_, rfl⟩
  | stopCommands now id =>
    simp only [Operation.perform, Operation.commit, stopCommands]
    cases w.registry.check with
    | error e => exact .inl rfl
    | ok => exact .inr ⟨_, rfl⟩
  | remove now id =>
    simp only [Operation.perform, Operation.commit, remove]
    cases w.registry.get id with
    | error e => exact .inl rfl
    | ok e =>
      refine .inr ⟨((w.stopping now id).meetRequests host.toCommandHost).2.setting.announcements,
        ?_⟩
      simp only []
      split <;> rfl
  | transfer src dst material quantity =>
    simp only [Operation.perform, Operation.commit, transfer]
    split
    · exact .inl rfl
    · exact .inr ⟨_, rfl⟩

theorem Allows.append {host : CommandHost κ ε} {w : World κ ε} {ops ops' : List (Operation κ ε)}
    (h : w.Allows host allowed ops) (h' : (w.after host ops).Allows host allowed ops') :
    w.Allows host allowed (ops ++ ops') := by
  induction ops generalizing w with
  | nil => exact h'
  | cons op ops ih => exact ⟨h.1, ih h.2 h'⟩

/-- An operation commits, and whatever its listeners do after that is a run of operations that are
allowed when they commit. -/
theorem perform_follows (hhost : host.Follows allowed)
    (hlisten : ∀ w id events, allowed w (.listen id events)) {op : Operation κ ε} {w : World κ ε}
    (hop : allowed w op) : ∃ ops, w.Allows host.toCommandHost allowed (op :: ops) ∧
      op.perform host w = w.after host.toCommandHost (op :: ops) := by
  let P := fun v : World κ ε => ∃ ops, w.Allows host.toCommandHost allowed (op :: ops) ∧
    v = w.after host.toCommandHost (op :: ops)
  have hcommit : P (op.commit host.toCommandHost w).2 := ⟨[], ⟨hop, trivial⟩, rfl⟩
  have hextend : ∀ {v v' : World κ ε}, P v →
      (∃ ops, v.Allows host.toCommandHost allowed ops ∧ v' = v.after host.toCommandHost ops) →
      P v' := by
    rintro v v' ⟨ops, hops, rfl⟩ ⟨ops', hops', rfl⟩
    exact ⟨ops ++ ops', Allows.append hops hops',
      (after_append host.toCommandHost w (op :: ops) ops').symm⟩
  rcases perform_eq_deliver host op w with heq | ⟨announcements, heq⟩
  · rw [heq]
    exact hcommit
  · rw [heq]
    exact deliver_keeps (P := P) (fun listener event v hv => hextend hv (hhost listener event v))
      (fun v id events hv => hextend hv ⟨[.listen id events], ⟨hlisten v id events, trivial⟩, rfl⟩)
      announcements hcommit

/-- What every allowed commit keeps, operations keep, whatever their listeners do. -/
theorem performAll_keeps (hhost : host.Follows allowed)
    (hlisten : ∀ w id events, P w → P (w.listen id events))
    (hcommit : ∀ w op, allowed w op → P w → P (op.commit host.toCommandHost w).2) {w : World κ ε}
    (hw : P w) {ops : List (Operation κ ε)} (hops : w.AllowsAll host allowed ops) :
    P (w.performAll host ops) := by
  have hhear : ∀ listener event w, P w → P (host.hearEntity listener event w).2 := by
    intro listener event w hw
    obtain ⟨ops, hops, heq⟩ := hhost listener event w
    exact heq ▸ after_keeps hcommit hw hops
  induction ops generalizing w with
  | nil => exact hw
  | cons op ops ih =>
    have hdone := hcommit w op hops.1 hw
    have hperformed : P (op.perform host w) := by
      rcases perform_eq_deliver host op w with heq | ⟨announcements, heq⟩
      · rwa [heq]
      · rw [heq]
        exact deliver_keeps hhear hlisten announcements hdone
    exact ih hperformed hops.2

end World

end Orrery
