import Orrery.Proofs.Handover
import Orrery.Proofs.Mooring

/-!
# Removals

Attacks and mining runs that are stopped take their marks off the ships that drive them
(`Ship.relieved`), and that is all: they ask for no further stops (`World.stopping_spec`).  So it
can be said exactly what the removal of an entity comes to (`World.Removal`).  Together with the
moorings this settles how long positions are tracked: as long as an entity refers to them.
-/

namespace Orrery

variable {κ ε : Type}

/-! ### Stops -/

/-- Takes the mark of an activity off a ship. -/
def Activity.unmark : Activity → Ship → Ship
  | attacking, s => { s with attacking := none }
  | mining, s => { s with mining := none }

theorem Option.filter_eq_self {α : Type} {p : α → Bool} {o : Option α}
    (h : ∀ a, o = some a → p a = true) : o.filter p = o := by
  cases o with
  | none => rfl
  | some a => exact if_pos (h a rfl)

/-- The ship of a name without the marks of commands that have been stopped. -/
def Ship.relieved (stopped : List (Command κ)) (id : EntityId) (s : Ship) : Ship :=
  { s with
    attacking := s.attacking.filter fun target =>
      !stopped.any (·.task.drives? == some (.attacking, id, target))
    mining := s.mining.filter fun target =>
      !stopped.any (·.task.drives? == some (.mining, id, target)) }

namespace Ship

variable {stopped : List (Command κ)} {id : EntityId} {s : Ship}

theorem relieved_eq_self
    (hattacking : ∀ target, s.attacking = some target →
      ∀ c ∈ stopped, c.task.drives? ≠ some (.attacking, id, target))
    (hmining : ∀ target, s.mining = some target →
      ∀ c ∈ stopped, c.task.drives? ≠ some (.mining, id, target)) : s.relieved stopped id = s := by
  have hsame : ∀ (k : Activity) (o : Option EntityId),
      (∀ target, o = some target → ∀ c ∈ stopped, c.task.drives? ≠ some (k, id, target)) →
      o.filter (fun target => !stopped.any (·.task.drives? == some (k, id, target))) = o :=
    fun k o ho => Option.filter_eq_self fun target htarget => by
      simpa using ho target htarget
  unfold relieved
  rw [hsame .attacking s.attacking hattacking, hsame .mining s.mining hmining]

theorem relieved_cons (c : Command κ) (cs : List (Command κ)) (id : EntityId) (s : Ship) :
    s.relieved (c :: cs) id = (s.relieved [c] id).relieved cs id := by
  simp [relieved, Option.filter_filter]

end Ship

namespace Entity

theorem mapShip_of_eq {e : Entity} {f : Ship → Ship} (h : ∀ s, e = ship s → f s = s) :
    e.mapShip f = e := by
  cases e with
  | ship s => exact congrArg ship (h s rfl)
  | station | loot | deposit => rfl

theorem position_mapShip {e : Entity} {f : Ship → Ship} (h : ∀ s, (f s).position = s.position) :
    (e.mapShip f).position = e.position := by
  cases e with
  | ship s => exact h s
  | station | loot | deposit => rfl

end Entity

namespace Command

variable (host : CommandHost κ ε) {c : Command κ}

/-- A stop takes the mark off the actor of the command, if it is that of the command. -/
theorem relieved_singleton {k : Activity} {actor target : EntityId}
    (h : c.task.drives? = some (k, actor, target)) (id : EntityId) (s : Ship) :
    s.relieved [c] id =
      if id = actor ∧ k.target? s.outline = some target then k.unmark s else s := by
  have hfilter : ∀ (k' : Activity) (o : Option EntityId),
      o.filter (fun t => !([c].any (·.task.drives? == some (k', id, t)))) =
        if k = k' ∧ id = actor ∧ o = some target then none else o := by
    intro k' o
    split
    · next hmark =>
      obtain ⟨rfl, rfl, rfl⟩ := hmark
      simp [h]
    · next hmark =>
      -- the mark is that of another command, or of none
      refine Option.filter_eq_self fun t ht => ?_
      subst ht
      simp only [List.any_cons, List.any_nil, Bool.or_false, h, Bool.not_eq_true',
        beq_eq_false_iff_ne]
      rintro ⟨⟩
      exact hmark ⟨rfl, rfl, rfl⟩
  have htarget : k.target? s.outline = if k = .attacking then s.attacking else s.mining := by
    cases k <;> rfl
  unfold Ship.relieved
  rw [hfilter, hfilter, htarget]
  cases k with
  | attacking => by_cases hs : id = actor ∧ s.attacking = some target <;> simp [hs, Activity.unmark]
  | mining => by_cases hs : id = actor ∧ s.mining = some target <;> simp [hs, Activity.unmark]

/-- What a stop does to the entities. -/
theorem entities_halt {k : Activity} {actor target : EntityId}
    (h : c.task.drives? = some (k, actor, target)) (s : Setting κ ε) :
    (c.halt host s).entities =
      if k.mark? s.entities.outline? actor = some target then
        s.entities.adjustShip actor k.unmark
      else s.entities := by
  have hany : ∀ (o : Option Outline) (f : Outline → Option EntityId),
      o.any (f · == some target) = true ↔ o.bind f = some target := by
    intro o f
    cases o <;> simp
  obtain ⟨progress, task⟩ := c
  cases task with
  | custom => cases h
  | attack a =>
    cases h
    have hstop := a.stop_run s.scene
    have hleft : (halt host ⟨progress, .attack a⟩ s).entities = _ := congrArg Scene.entities hstop
    rw [hleft, apply_ite Scene.entities]
    exact if_congr (hany _ Outline.attacking?) rfl rfl
  | mining m =>
    cases h
    have hleft : (halt host ⟨progress, .mining m⟩ s).entities = _ :=
      congrArg Scene.entities (m.stop_run s.scene)
    rw [hleft, apply_ite Scene.entities]
    exact if_congr (hany _ Outline.mining?) rfl rfl

/-- A command that is stopped takes its mark off its actor, and changes nothing else among the
entities. -/
theorem BuiltIn.get?_halt (hc : c.BuiltIn) (s : Setting κ ε) (id : EntityId) :
    (c.halt host s).entities.get? id =
      (s.entities.get? id).map (·.mapShip (Ship.relieved [c] id)) := by
  obtain ⟨k, actor, target, hdrives⟩ := hc
  have hrelieved := relieved_singleton hdrives id
  rw [entities_halt host hdrives]
  -- whether the actor is marked shows in its outline
  by_cases hid : id = actor
  · subst hid
    have hmark : k.mark? s.entities.outline? id =
        (s.entities.get? id).bind fun e => e.outline?.bind k.target? := by
      rw [Activity.mark?, Entities.outline?, Option.bind_assoc]
    rw [hmark]
    cases hget : s.entities.get? id with
    | none => simp [hget]
    | some e =>
      cases e with
      | ship x =>
        have hx : (Entity.ship x).outline?.bind k.target? = k.target? x.outline := rfl
        by_cases hmarked : k.target? x.outline = some target <;>
          simp [hx, hmarked, hget, hrelieved, Entity.mapShip, Entities.adjustShip,
            Entities.get?_adjust]
      | station | loot | deposit =>
        split <;> simp [hget, Entity.mapShip, Entities.adjustShip, Entities.get?_adjust]
  · have hsame : (s.entities.get? id).map (·.mapShip (Ship.relieved [c] id)) =
        s.entities.get? id := by
      cases s.entities.get? id with
      | none => rfl
      | some e =>
        refine congrArg some (Entity.mapShip_of_eq fun x _ => ?_)
        rw [hrelieved, if_neg fun h => hid h.1]
    rw [hsame]
    split
    · rw [Entities.adjustShip, Entities.get?_adjust, if_neg hid]
    · rfl

/-- A stop moves nothing, and asks for no further stops. -/
theorem BuiltIn.halt_spares (hc : c.BuiltIn) (s : Setting κ ε) :
    (c.halt host s).entities.table.keys = s.entities.table.keys ∧
      (c.halt host s).tracker = s.tracker ∧ (c.halt host s).stopRequests = s.stopRequests := by
  obtain ⟨k, actor, target, hdrives⟩ := hc
  refine ⟨?_, ?_⟩
  · rw [entities_halt host hdrives]
    split
    · exact Table.keys_modify ..
    · rfl
  · obtain ⟨progress, task⟩ := c
    cases task with
    | custom => cases hdrives
    | attack a =>
      obtain ⟨-, outcome, left, hafter, -, hrequests, -⟩ :=
        halt_attack host (c := ⟨progress, .attack a⟩) rfl s
      refine ⟨?_, by rw [hafter.stopRequests]; simp [Deed.requests, hrequests]⟩
      have hstop := a.stop_run s.scene
      refine (congrArg Scene.tracker hstop).trans ?_
      split <;> rfl
    | mining m =>
      obtain ⟨-, outcome, left, hafter, hquiet⟩ :=
        halt_mining host (c := ⟨progress, .mining m⟩) rfl s
      refine ⟨?_, by rw [hafter.stopRequests]; simp [Deed.requests, hquiet.2.1]⟩
      refine (congrArg Scene.tracker (m.stop_run s.scene)).trans ?_
      split <;> rfl

/-- Commands are stopped one after the other. -/
def haltAll (cs : List (Command κ)) (s : Setting κ ε) : Setting κ ε :=
  cs.foldl (fun s c => c.halt host s) s

theorem haltAll_spec {cs : List (Command κ)} (hcs : ∀ c ∈ cs, c.BuiltIn) (s : Setting κ ε) :
    (∀ id, (haltAll host cs s).entities.get? id =
      (s.entities.get? id).map (·.mapShip (Ship.relieved cs id))) ∧
    (haltAll host cs s).entities.table.keys = s.entities.table.keys ∧
    (haltAll host cs s).tracker = s.tracker ∧
    (haltAll host cs s).stopRequests = s.stopRequests := by
  induction cs generalizing s with
  | nil =>
    refine ⟨fun id => ?_, rfl, rfl, rfl⟩
    have hnil : ∀ e : Entity, e.mapShip (Ship.relieved ([] : List (Command κ)) id) = e := fun e =>
      Entity.mapShip_of_eq fun s _ => Ship.relieved_eq_self (by simp) (by simp)
    show s.entities.get? id = _
    cases s.entities.get? id with
    | none => rfl
    | some e => exact congrArg some (hnil e).symm
  | cons c cs ih =>
    obtain ⟨hc, hrest⟩ := List.forall_mem_cons.mp hcs
    obtain ⟨hkeys, htracker, hrequests⟩ := hc.halt_spares host s
    obtain ⟨ih1, ih2, ih3, ih4⟩ := ih hrest (c.halt host s)
    -- what one stop spares, the rest of them spare
    refine ⟨fun id => ?_, ih2.trans hkeys, ih3.trans htracker, ih4.trans hrequests⟩
    refine (ih1 id).trans ?_
    rw [hc.get?_halt host s id, Option.map_map]
    refine congrArg (Option.map · _) (funext fun e => ?_)
    cases e with
    | ship x => exact congrArg Entity.ship (Ship.relieved_cons c cs id x).symm
    | station | loot | deposit => rfl

end Command

theorem Schedule.BuiltIn.acting {s : Schedule κ} (hs : s.BuiltIn) (id : EntityId) :
    ∀ c ∈ s.commands.filter (·.concerns id), c.BuiltIn :=
  fun c hc => hs c (List.mem_of_mem_filter hc)

/-- To stop all attacks and mining runs that act on an entity is to stop them one after the other,
and the others stay. -/
theorem World.stopping_spec (host : CommandHost κ ε) {w : World κ ε}
    (hw : w.registry.schedule.BuiltIn) (now : Float) (id : EntityId) :
    let acting := w.registry.schedule.commands.filter (·.concerns id)
    ((w.stopping now id).meetRequests host).1 = acting.map Command.id ∧
    ((w.stopping now id).meetRequests host).2.schedule.commands =
      w.registry.schedule.commands.filter (!·.concerns id) ∧
    ((w.stopping now id).meetRequests host).2.setting =
      Command.haltAll host acting (w.session now).setting := by
  intro acting
  obtain ⟨h1, h2, h3, -⟩ := Sweep.stopActing_spec host id 0 { session := w.session now }
  simp only [List.drop_zero, List.take_zero, List.nil_append] at h1 h2 h3
  have hstart : ({ session := w.stopping now id } : Sweep κ ε).withRequests [] =
    { session := w.session now } := rfl
  have hacting : ∀ c ∈ acting, c.BuiltIn := hw.acting id
  -- `stop` hooks ask for nothing, so no other request comes up on the way
  have hdone : (Sweep.stopActing host id 0
      { session := w.session now }).session.setting.stopRequests = [] := by
    rw [h3]
    exact (Command.haltAll_spec host hacting (w.session now).setting).2.2.2
  have hmeet : Sweep.meetRequests host { session := w.stopping now id } =
      Sweep.stopActing host id 0 { session := w.session now } := by
    have hrequests : (w.stopping now id).setting.stopRequests = [id] := rfl
    rw [Sweep.meetRequests_cons host hrequests, hstart, Sweep.meetRequests_nil host hdone]
  simp only [Session.meetRequests, hmeet]
  exact ⟨h1, h2, h3⟩

/-! ### Removals -/

/-- What the removal of entity `e` of name `id` comes to, before any listeners are told. -/
structure World.Removal (w : World κ ε) (id : EntityId) (e : Entity) (w' : World κ ε) : Prop where
  /-- The entity is gone. -/
  absent : w'.registry.entities.get? id = none
  /-- No command is left that acts on it. -/
  idle : ∀ c ∈ w'.registry.schedule.commands, c.concerns id = false
  /-- All other commands are left as they were, in order. -/
  commands : w'.registry.schedule.commands =
    w.registry.schedule.commands.filter (!·.concerns id)
  /-- All other entities are left, in order. -/
  order : w'.registry.entities.table.keys =
    w.registry.entities.table.keys.filter (· ≠ id)
  /-- They are as they were, except that the marks of commands that were stopped are taken off. -/
  others : ∀ j, j ≠ id → w'.registry.entities.get? j = (w.registry.entities.get? j).map
    (·.mapShip (Ship.relieved (w.registry.schedule.commands.filter (·.concerns id)) j))
  /-- The position is no longer tracked if and only if no entity that is left refers to it. -/
  untracked : w'.tracker.contains e.position = false ↔
    ∀ j other, w'.registry.entities.get? j = some other → other.position ≠ e.position
  /-- All other positions are tracked as they were. -/
  positions : ∀ p, p ≠ e.position → w'.tracker.contains p = w.tracker.contains p ∧
    w'.tracker.slots.get? p = w.tracker.slots.get? p
  /-- So is this one, if it is still tracked. -/
  shared : w'.tracker.contains e.position = true → w'.tracker = w.tracker

namespace World

theorem erase_spec {w : World κ ε} {id : EntityId} {e : Entity}
    (he : w.registry.entities.get? id = some e) (htracked : w.tracker.contains e.position = true) :
    ((w.erase id).tracker.contains e.position = false ↔
      ∀ j other, (w.erase id).registry.entities.get? j = some other →
        other.position ≠ e.position) ∧
    (∀ p, p ≠ e.position → (w.erase id).tracker.contains p = w.tracker.contains p ∧
      (w.erase id).tracker.slots.get? p = w.tracker.slots.get? p) ∧
    ((w.erase id).tracker.contains e.position = true → (w.erase id).tracker = w.tracker) := by
  have hintact : w.tracker.poisoned = false := by
    rw [Tracker.contains_eq, Bool.and_eq_true, Bool.not_eq_true'] at htracked
    exact htracked.1
  obtain ⟨hreleased, hothers⟩ := Tracker.release_spec hintact e.position
  have hany : (w.registry.entities.erase id).all.any (·.position = e.position) = true ↔
      ∃ j other, (w.erase id).registry.entities.get? j = some other ∧
        other.position = e.position := by
    rw [List.any_eq_true]
    constructor
    · rintro ⟨other, hother, hposition⟩
      obtain ⟨⟨j, other⟩, hmem, rfl⟩ := List.mem_map.mp hother
      exact ⟨j, other, Table.get?_eq_some_iff.mpr hmem, by simpa using hposition⟩
    · rintro ⟨j, other, hget, hposition⟩
      exact ⟨other, List.mem_map.mpr ⟨(j, other), Table.get?_eq_some_iff.mp hget, rfl⟩,
        by simpa using hposition⟩
  have htracker : (w.erase id).tracker =
      if (w.registry.entities.erase id).all.any (·.position = e.position) then w.tracker
      else w.tracker.release e.position := by
    simp only [erase, he]
  rw [htracker]
  split
  · next hused =>
    obtain ⟨j, other, hget, hposition⟩ := hany.mp hused
    refine ⟨?_, fun _ _ => ⟨rfl, rfl⟩, fun _ => rfl⟩
    rw [htracked]
    exact iff_of_false (by decide) fun h => h j other hget hposition
  · next hunused =>
    refine ⟨iff_of_true hreleased fun j other hget hposition => ?_, hothers, ?_⟩
    · exact hunused (hany.mpr ⟨j, other, hget, hposition⟩)
    · rw [hreleased]
      exact fun h => Bool.noConfusion h

/-- The removal of an entity whose position is tracked. -/
theorem removal_commit (host : CommandHost κ ε) {w : World κ ε} (hw : w.Moored) (now : Float)
    {id : EntityId} {e : Entity} (he : w.registry.entities.get? id = some e) :
    w.Removal id e ((Operation.remove now id).commit host w).2 := by
  obtain ⟨-, hcommands, hsetting⟩ := stopping_spec host hw.builtIn now id
  obtain ⟨hget, hkeys, htracker, -⟩ := Command.haltAll_spec host
    (hw.builtIn.acting id) (w.session now).setting
  have hknown : w.registry.get id = .ok e := by
    rw [Registry.get, Registry.check_of_intact hw.intact, ← Entities.require_eq_ok.mpr he]
    rfl
  have hcommit : ((Operation.remove now id).commit host w).2 =
      (w.resume ((w.stopping now id).meetRequests host).2).erase id := by
    simp only [Operation.commit, hknown]
  rw [hcommit]
  rw [← hsetting] at hget hkeys htracker
  generalize ((w.stopping now id).meetRequests host).2 = y at hcommands hget hkeys htracker
  -- the entity is still there when the commands have been stopped, at the same position
  have hstill : (w.resume y).registry.entities.get? id = some (e.mapShip (Ship.relieved
      (w.registry.schedule.commands.filter (·.concerns id)) id)) := by
    refine (hget id).trans ?_
    show (w.registry.entities.get? id).map _ = _
    rw [he]
    rfl
  have hposition : (e.mapShip (Ship.relieved
      (w.registry.schedule.commands.filter (·.concerns id)) id)).position = e.position :=
    Entity.position_mapShip fun _ => rfl
  have htracked : (w.resume y).tracker.contains e.position = true := by
    show y.setting.tracker.contains e.position = true
    rw [htracker]
    exact hw.entities id e he
  obtain ⟨huntracked, hpositions, hshared⟩ := erase_spec hstill (hposition.symm ▸ htracked)
  rw [hposition] at huntracked hpositions hshared
  have hresumed : (w.resume y).tracker = w.tracker := htracker
  rw [hresumed] at hpositions hshared
  refine ⟨?_, ?_, hcommands, ?_, fun j hj => ?_, huntracked, hpositions, hshared⟩
  · exact (Entities.get?_erase ..).trans (if_pos rfl)
  · intro c hc
    have hmem : c ∈ y.schedule.commands := hc
    rw [hcommands] at hmem
    simpa using (List.mem_filter.mp hmem).2
  · show (y.setting.entities.table.erase id).keys = _
    rw [Table.keys_erase, hkeys]
    rfl
  · refine (Entities.get?_erase ..).trans ?_
    rw [if_neg hj]
    exact hget j

/-- There is nothing to remove under an unknown name. -/
theorem remove_of_unknown (host : Host κ ε) {w : World κ ε} {id : EntityId}
    (h : w.registry.entities.get? id = none) (now : Float) :
    ∃ fault, w.remove host now id = (.error fault, w) := by
  obtain ⟨fault, hget⟩ : ∃ fault, w.registry.get id = .error fault := by
    unfold Registry.get Registry.check Entities.require
    rw [h]
    cases w.registry.poisoned with
    | true => exact ⟨_, rfl⟩
    | false => exact ⟨_, rfl⟩
  exact ⟨fault, by simp only [remove, hget]⟩

/-- After the removal the listeners are told.  If these only reply, the removal succeeds, and the
subscriptions that they revoke are dropped. -/
theorem remove_of_known (host : Host κ ε) {w : World κ ε} (hw : w.Moored) (now : Float)
    {id : EntityId} {e : Entity} (he : w.registry.entities.get? id = some e) :
    let w' := ((Operation.remove now id).commit host.toCommandHost w).2
    (∃ announcements, (w.remove host now id).2 = (w'.deliver host announcements).2) ∧
    (host.OnlyReplies → ∃ rs outside, w.remove host now id =
      (.ok (e.mapShip (Ship.relieved (w.registry.schedule.commands.filter (·.concerns id)) id)),
        { w'.withEntities (w'.registry.entities.prune rs).2 with outside := outside })) := by
  intro w'
  have hknown : w.registry.get id = .ok e := by
    rw [Registry.get, Registry.check_of_intact hw.intact, ← Entities.require_eq_ok.mpr he]
    rfl
  have hcommit : w' = (w.resume ((w.stopping now id).meetRequests host.toCommandHost).2).erase
      id := by
    simp only [w', Operation.commit, hknown]
  constructor
  · refine ⟨((w.stopping now id).meetRequests host.toCommandHost).2.setting.announcements, ?_⟩
    rw [hcommit]
    simp only [remove, hknown]
    split <;> rfl
  · intro hhost
    -- stopping commands removes nothing
    obtain ⟨-, -, hsetting⟩ := stopping_spec host.toCommandHost hw.builtIn now id
    obtain ⟨hget, -⟩ := Command.haltAll_spec host.toCommandHost
      (hw.builtIn.acting id) (w.session now).setting
    rw [← hsetting] at hget
    have hstill : (w.resume ((w.stopping now id).meetRequests
        host.toCommandHost).2).registry.entities.require id = .ok (e.mapShip (Ship.relieved
          (w.registry.schedule.commands.filter (·.concerns id)) id)) := by
      refine Entities.require_eq_ok.mpr ((hget id).trans ?_)
      show (w.registry.entities.get? id).map _ = _
      rw [he]
      rfl
    obtain ⟨delivery, rs, outside, hdelivery⟩ := deliver_of_onlyReplies hhost
      ((w.stopping now id).meetRequests host.toCommandHost).2.setting.announcements
      (w := w') (by rw [hcommit]; exact hw.intact)
    refine ⟨rs, outside, ?_⟩
    simp only [remove, hknown, hstill]
    rw [hcommit] at hdelivery ⊢
    rw [hdelivery]

/-- Whatever is done to a registry that was empty at first, as long as entities are created where a
position is tracked and no position is untracked directly: every entity refers to a position that is
tracked.  Everything else that is done to the tracked positions may happen in between, as it ends no
tracking.  The removal of an unknown entity changes nothing.  That of any other one stops the
commands that act on it, and leaves everything else as it was; and its position is no longer tracked
if and only if no entity that is left refers to it.  Then the listeners are told; those that only
reply change no more than who listens. -/
theorem positions_tracked_while_needed (host : Host κ ε) (hhost : host.Follows Operation.Moors)
    (tracker : Tracker) (outside : ε) (ops : List (Operation κ ε))
    (hops : World.AllowsAll host Operation.Moors { tracker := tracker, outside := outside } ops) :
    let w := World.performAll host { tracker := tracker, outside := outside } ops
    (∀ id e, w.registry.entities.get? id = some e → w.tracker.contains e.position = true) ∧
    (∀ ms : List Maneuver, (∀ m ∈ ms, m.KeepsTracking) →
      ∀ outside', Operation.Moors w (.drift (w.tracker.after ms) outside')) ∧
    ∀ now id,
      (w.registry.entities.get? id = none → ∃ fault, w.remove host now id = (.error fault, w)) ∧
      ∀ e, w.registry.entities.get? id = some e → ∃ w', w.Removal id e w' ∧
        (∃ announcements, (w.remove host now id).2 = (w'.deliver host announcements).2) ∧
        (host.OnlyReplies → ∃ rs outside, w.remove host now id =
          (.ok (e.mapShip (Ship.relieved (w.registry.schedule.commands.filter (·.concerns id)) id)),
            { w'.withEntities (w'.registry.entities.prune rs).2 with outside := outside })) := by
  intro w
  have hstart : ({ tracker := tracker, outside := outside } : World κ ε).Moored :=
    ⟨rfl, by simp [Schedule.BuiltIn], nofun⟩
  have hw : w.Moored := performAll_keeps hhost (fun _ id events hv => hv.listen id events)
    (fun _ _ hop hv => hv.commit host.toCommandHost hop) hstart hops
  refine ⟨hw.entities, fun ms hms outside' => Operation.moors_drift hms w outside', fun now id =>
    ⟨fun hnone => remove_of_unknown host hnone now, ?_⟩⟩
  intro e he
  exact ⟨_, removal_commit host.toCommandHost hw now he, remove_of_known host hw now he⟩

/-- In particular so if one ship is sent against another one. -/
theorem positions_tracked_while_needed_skirmish :
    let ops : List (Operation Unit Unit) :=
      [.create (.ship Skirmish.hunter), .create (.ship Skirmish.prey),
        .schedule (.attack Skirmish.attack), .tick 0]
    let w := World.performAll Host.still { tracker := Skirmish.tracker, outside := () } ops
    World.AllowsAll Host.still Operation.Moors
      { tracker := Skirmish.tracker, outside := () } ops ∧
    ∀ id e, w.registry.entities.get? id = some e → w.tracker.contains e.position = true := by
  intro ops w
  have hops : World.AllowsAll Host.still Operation.Moors
      { tracker := Skirmish.tracker, outside := () } ops :=
    ⟨fun _ _ => rfl, fun _ _ => rfl, ⟨_, _, _, rfl⟩, trivial, trivial⟩
  have hstill : Host.still.Follows Operation.Moors := fun _ _ _ => ⟨[], trivial, rfl⟩
  exact ⟨hops, (positions_tracked_while_needed Host.still hstill Skirmish.tracker () ops hops).1⟩

end World

end Orrery
