import Orrery.Proofs.Mirror
import Orrery.Proofs.Write

/-!
# Views of scenes

A `View` leaves out what some onlooker does not see of a scene: entities that it does not look at,
or the listeners of those that it does, or how positions move.  The hooks of attacks and mining runs
look at the entities of their footprint and at distances, and at nothing else.  So they come to the
same in every view in which the footprint is seen (`Attack.undisturbed_hook`,
`Mining.undisturbed_hook`), and so do whole ticks (`View.reflection`).
-/

namespace Orrery

/-! ### Views -/

/-- A ship with other listeners. -/
def Ship.mapEvents (f : EventTable → EventTable) (s : Ship) : Ship :=
  { s with events := f s.events }

/-- An entity with other listeners, if it can have any. -/
def Entity.mapEvents (f : EventTable → EventTable) : Entity → Entity
  | ship s => ship (s.mapEvents f)
  | station s => station { s with events := f s.events }
  | loot l => loot l
  | deposit d => deposit d

/-- A way of looking at scenes that leaves something out.  What happens to an entity that is seen
can be followed in the view. -/
structure View where
  /-- The entities that are seen. -/
  sees : EntityId → Prop
  /-- What is seen of listeners. -/
  events : EventTable → EventTable
  entities : Entities → Entities
  tracker : Tracker → Tracker
  announcements : List Announcement → List Announcement
  get? : ∀ {id}, sees id → ∀ es : Entities,
    (entities es).get? id = (es.get? id).map (Entity.mapEvents events)
  adjust : ∀ {id}, sees id → ∀ {f f' : Entity → Entity},
    (∀ e, f' (e.mapEvents events) = (f e).mapEvents events) → ∀ es : Entities,
      (entities es).adjust id f' = entities (es.adjust id f)
  add : ∀ {e : Entity}, sees e.id → ∀ es : Entities,
    (entities es).add (e.mapEvents events) = (es.add e).map entities
  /-- All distances are seen. -/
  distance : ∀ t : Tracker, (tracker t).distanceBetween = t.distanceBetween
  halt : ∀ (t : Tracker) id, (tracker t).halt id = tracker (t.halt id)
  announcement : ∀ {event : EntityEvent}, sees event.entity → ∀ es : Entities,
    announcements (es.announcement? event).toList = ((entities es).announcement? event).toList
  append : ∀ as bs, announcements (as ++ bs) = announcements as ++ announcements bs

namespace View

variable (v : View)

/-- What is seen of a scene. -/
def scene (s : Scene) : Scene :=
  { s with
    entities := v.entities s.entities
    tracker := v.tracker s.tracker
    announcements := v.announcements s.announcements }

/-- All of some entities are seen. -/
def Covers (ids : List EntityId) : Prop := ∀ id ∈ ids, v.sees id

theorem announcements_nil : v.announcements [] = [] := by
  have h := v.append [] []
  rw [List.append_nil] at h
  exact List.self_eq_append_right.mp h

variable {v} {id : EntityId}

theorem ship (h : v.sees id) (es : Entities) :
    (v.entities es).ship id = (es.ship id).map (Ship.mapEvents v.events) := by
  unfold Entities.ship Entities.require
  rw [v.get? h]
  cases es.get? id with
  | none => rfl
  | some e => cases e <;> rfl

theorem deposit (h : v.sees id) (es : Entities) :
    (v.entities es).deposit id = es.deposit id := by
  unfold Entities.deposit Entities.require
  rw [v.get? h]
  cases es.get? id with
  | none => rfl
  | some e => cases e <;> rfl

theorem adjustShip (h : v.sees id) {f f' : Ship → Ship}
    (hf : ∀ s, f' (s.mapEvents v.events) = (f s).mapEvents v.events) (es : Entities) :
    (v.entities es).adjustShip id f' = v.entities (es.adjustShip id f) :=
  v.adjust h (fun e => by
    cases e with
    | ship s => exact congrArg Entity.ship (hf s)
    | station | loot | deposit => rfl) es

theorem adjustDeposit (h : v.sees id) (f : Deposit → Deposit) (es : Entities) :
    (v.entities es).adjustDeposit id f = v.entities (es.adjustDeposit id f) :=
  v.adjust h (fun e => by cases e <;> rfl) es

end View

/-- A hit does not depend on who listens. -/
theorem Ship.absorb_mapEvents (f : EventTable → EventTable) (s : Ship) (damage : UInt32) :
    (s.mapEvents f).absorb damage =
      ((s.absorb damage).1.mapEvents f, (s.absorb damage).2) := by
  unfold absorb
  rw [show (s.mapEvents f).shield = s.shield from rfl]
  split <;> rfl

/-! ### Actions in a view -/

namespace Act

/-- In the view the second action does what the first one does. -/
abbrev Mirrored {α β : Type} (v : View) (f : α → β) (x : Act α) (y : Act β) : Prop :=
  Mirrors (fun _ => True) v.scene (fun _ => True) f x y

/-- What is done in the view is the same. -/
abbrev Undisturbed (v : View) (x : Act Unit) : Prop := Mirrored v id x x

variable {v : View}

theorem mirrored_read {α β : Type} {f : α → β} {look : Entities → Except RegistryError α}
    {look' : Entities → Except RegistryError β}
    (h : ∀ es, look' (v.entities es) = (look es).map f) : Mirrored v f (read look) (read look') := by
  refine ⟨fun _ _ => trivial, fun _ _ _ _ => trivial, fun s _ => ?_⟩
  rw [run_read, run_read, show (v.scene s).entities = v.entities s.entities from rfl, h]
  cases look s.entities <;> rfl

theorem mirrored_ship {ship : EntityId} (h : v.sees ship) :
    Mirrored v (Ship.mapEvents v.events) (read (·.ship ship)) (read (·.ship ship)) :=
  mirrored_read (View.ship h)

theorem mirrored_deposit {deposit : EntityId} (h : v.sees deposit) :
    Mirrored v (fun d => d) (read (·.deposit deposit)) (read (·.deposit deposit)) :=
  mirrored_read fun es => by
    rw [View.deposit h]
    cases es.deposit deposit <;> rfl

theorem mirrored_modify {f f' : Scene → Scene} (h : ∀ s, f' (v.scene s) = v.scene (f s)) :
    Mirrored v id (modify f) (modify f') := Mirrors.modify (fun _ _ => trivial) h

theorem mirrored_change {f f' : Entities → Entities}
    (h : ∀ es, f' (v.entities es) = v.entities (f es)) : Mirrored v id (change f) (change f') :=
  mirrored_modify fun s => by
    simp only [View.scene, h]

theorem mirrored_adjustShip {ship : EntityId} (h : v.sees ship) {f f' : Ship → Ship}
    (hf : ∀ s, f' (s.mapEvents v.events) = (f s).mapEvents v.events) :
    Mirrored v id (change (·.adjustShip ship f)) (change (·.adjustShip ship f')) :=
  mirrored_change (View.adjustShip h hf)

theorem undisturbed_announce {event : EntityEvent} (h : v.sees event.entity) :
    Undisturbed v (modify (·.announce event)) :=
  mirrored_modify fun s => by
    simp only [Scene.announce, View.scene, v.append, v.announcement h]

theorem undisturbed_attempt {x : Act Unit} (h : Undisturbed v x) :
    Mirrored v id (attempt x) (attempt x) :=
  ⟨fun _ _ => trivial, fun _ _ _ _ => trivial, fun s hs => by
    rw [run_attempt, run_attempt, h.run_eq hs]
    rfl⟩

theorem undisturbed_settle (r : Except CommandError Unit) : Undisturbed v (settle r) :=
  ⟨fun _ _ => trivial, fun _ _ _ _ => trivial, fun s _ => by
    rw [run_settle, run_settle]
    cases r <;> rfl⟩

theorem undisturbed_pure : Undisturbed v (pure ()) := Mirrors.pure trivial

end Act

/-! ### Attacks -/

namespace Attack

open Act

variable {v : View} {a : Attack} (h : v.Covers a.footprint)

include h

theorem sees_attacker : v.sees a.attacker := h _ a.attacker_mem_footprint

theorem sees_defender : v.sees a.defender := h _ a.defender_mem_footprint

theorem sees_lootId : v.sees a.lootId := h _ a.lootId_mem_footprint

theorem isPossible_scene (s : Scene) : a.isPossible (v.scene s) = a.isPossible s := by
  unfold isPossible
  simp only [View.scene, View.ship (sees_attacker h), View.ship (sees_defender h), v.distance]
  cases s.entities.ship a.attacker with
  | error e => rfl
  | ok attacker => cases s.entities.ship a.defender <;> rfl

theorem isWon_scene (s : Scene) : a.isWon (v.scene s) = a.isWon s := by
  unfold isWon
  simp only [View.scene, View.ship (sees_defender h)]
  cases s.entities.ship a.defender <;> rfl

theorem isOver_scene (s : Scene) : a.isOver (v.scene s) = a.isOver s := by
  unfold isOver
  rw [isPossible_scene h]
  simp only [View.scene, View.ship (sees_defender h)]
  cases s.entities.ship a.defender <;> rfl

theorem undisturbed_setup : Undisturbed v a.setup :=
  (mirrored_ship (sees_defender h)).bind fun _ _ =>
    (mirrored_ship (sees_attacker h)).bind fun _ _ =>
      mirrored_adjustShip (sees_attacker h) fun _ => rfl

theorem undisturbed_before : Undisturbed v a.before :=
  (mirrored_ship (sees_attacker h)).bind fun _ _ =>
    (mirrored_ship (sees_defender h)).bind fun _ _ => undisturbed_pure

theorem undisturbed_execute : Undisturbed v a.execute := by
  refine (mirrored_ship (sees_attacker h)).bind fun x _ =>
    (mirrored_ship (sees_defender h)).bind fun d _ => ?_
  -- who listens has no part in how hard the hit is, nor in what it does
  rw [show (x.mapEvents v.events).damage = x.damage from rfl, Ship.absorb_mapEvents]
  rcases d.absorb x.damage with ⟨hit, destroyed⟩
  refine Mirrors.bind (mirrored_adjustShip (sees_defender h) fun _ => ?_) fun _ _ =>
    (undisturbed_announce (sees_attacker h)).bind fun _ _ => undisturbed_announce (sees_defender h)
  cases destroyed <;> rfl

theorem undisturbed_disengage : Undisturbed v a.disengage :=
  mirrored_adjustShip (sees_attacker h) fun _ => rfl

theorem undisturbed_announceEnd : Undisturbed v a.announceEnd := by
  refine (undisturbed_announce (sees_attacker h)).bind fun _ _ =>
    (undisturbed_announce (sees_defender h)).bind fun _ _ => Mirrors.get.bind fun s _ => ?_
  rw [isWon_scene h]
  split
  · exact undisturbed_announce (sees_defender h)
  · exact undisturbed_pure

theorem undisturbed_stop : Undisturbed v a.stop := by
  refine Mirrors.get.bind fun s _ => ?_
  simp only [View.scene, View.ship (sees_attacker h)]
  cases s.entities.ship a.attacker with
  | error e => exact undisturbed_pure
  | ok x =>
    simp only [Except.map]
    rw [show (x.mapEvents v.events).attacking = x.attacking from rfl]
    split
    · exact (undisturbed_disengage h).bind fun _ _ => undisturbed_announceEnd h
    · exact undisturbed_pure

/-! #### Clearing up -/

theorem lootIdUsable_entities (es : Entities) :
    a.lootIdUsable (v.entities es) = a.lootIdUsable es := by
  unfold lootIdUsable
  rw [v.get? (sees_lootId h)]
  cases es.get? a.lootId with
  | none => rfl
  | some e => cases e <;> rfl

theorem mirrored_strip (wreck : Ship) :
    Mirrored v id (a.strip wreck) (a.strip (wreck.mapEvents v.events)) := by
  refine Mirrors.get.bind fun s _ => ?_
  rw [show (v.scene s).entities = v.entities s.entities from rfl, lootIdUsable_entities h]
  split
  · exact Mirrors.bind (mirrored_adjustShip (sees_defender h) fun _ => rfl) fun _ _ =>
      Mirrors.pure trivial
  · exact Mirrors.pure trivial

theorem mirrored_settleUp (wreck : Ship) :
    Mirrored v id (a.settleUp wreck) (a.settleUp (wreck.mapEvents v.events)) := by
  have hhalt : Mirrored v id (modify (·.halt wreck.position)) (modify (·.halt wreck.position)) :=
    mirrored_modify fun s => by
      simp only [Scene.halt, View.scene, v.halt]
  have hask : Undisturbed v (modify (·.requestStop a.defender)) := mirrored_modify fun _ => rfl
  have hcredit : ∀ user counter, Undisturbed v (modify (·.credit user counter)) :=
    fun _ _ => mirrored_modify fun _ => rfl
  -- the attacker may be gone, and then there is only one user to credit
  refine hhalt.bind fun _ _ => hask.bind fun _ _ => Mirrors.get.bind fun s _ => ?_
  simp only [View.scene, View.ship (sees_attacker h)]
  cases s.entities.ship a.attacker with
  | error e => exact hcredit _ _
  | ok x => exact (hcredit _ _).bind fun _ _ => hcredit _ _

theorem undisturbed_addToLoot (loot : Loot) (salvage : List Stack) :
    Undisturbed v (a.addToLoot loot salvage) := by
  unfold addToLoot
  simp only []
  rcases Hold.addAll _ salvage with ⟨hold, fault⟩
  refine Mirrors.bind (mirrored_change (v.adjust (sees_lootId h) fun _ => rfl)) fun _ _ => ?_
  cases fault with
  | none => exact undisturbed_pure
  | some f => exact Mirrors.throw _

theorem mirrored_createLoot (wreck : Ship) (salvage : List Stack) :
    Mirrored v id (a.createLoot wreck salvage)
      (a.createLoot (wreck.mapEvents v.events) salvage) := by
  unfold createLoot
  simp only [show (wreck.mapEvents v.events).hold = wreck.hold from rfl,
    show (wreck.mapEvents v.events).system = wreck.system from rfl,
    show (wreck.mapEvents v.events).position = wreck.position from rfl]
  rcases Hold.addAll _ salvage with ⟨hold, _ | f⟩
  · have hadd : Mirrored v v.entities
        (read (·.add (.loot ⟨a.lootId, wreck.system, wreck.position, hold⟩)))
        (read (·.add (.loot ⟨a.lootId, wreck.system, wreck.position, hold⟩))) :=
      mirrored_read (v.add (e := .loot ⟨a.lootId, wreck.system, wreck.position, hold⟩)
        (sees_lootId h))
    exact hadd.bind fun _ _ => mirrored_change fun _ => rfl
  · exact Mirrors.throw _

theorem mirrored_leaveLoot (wreck : Ship) (salvage : List Stack) :
    Mirrored v id (a.leaveLoot wreck salvage)
      (a.leaveLoot (wreck.mapEvents v.events) salvage) := by
  unfold leaveLoot
  split
  · refine Mirrors.get.bind fun s _ => ?_
    rw [show (v.scene s).entities = v.entities s.entities from rfl, v.get? (sees_lootId h)]
    cases s.entities.get? a.lootId with
    | none => exact mirrored_createLoot h wreck salvage
    | some e =>
      cases e with
      | loot l => exact undisturbed_addToLoot h l salvage
      | ship | station | deposit => exact mirrored_createLoot h wreck salvage
  · exact undisturbed_pure

theorem undisturbed_clearUp : Undisturbed v a.clearUp :=
  (mirrored_ship (sees_defender h)).bind fun wreck _ =>
    (mirrored_strip h wreck).bind fun salvage _ =>
      (mirrored_settleUp h wreck).bind fun _ _ => mirrored_leaveLoot h wreck salvage

theorem undisturbed_teardown : Undisturbed v a.teardown := by
  refine (undisturbed_disengage h).bind fun _ _ => Mirrors.get.bind fun s _ => ?_
  -- whether there is a wreck to be cleared up is seen in the view
  rw [isWon_scene h]
  refine (undisturbed_attempt ?_).bind fun cleared _ => (undisturbed_announceEnd h).bind fun _ _ =>
    undisturbed_settle cleared
  split
  · exact undisturbed_clearUp h
  · exact undisturbed_pure

theorem undisturbed_hook (stage : Stage) : Undisturbed v (a.hook stage) := by
  cases stage with
  | setup => exact undisturbed_setup h
  | before => exact undisturbed_before h
  | execute => exact undisturbed_execute h
  | after => exact undisturbed_pure
  | teardown => exact undisturbed_teardown h
  | stop => exact undisturbed_stop h

end Attack

/-! ### Mining runs -/

namespace Mining

open Act

variable {v : View} {m : Mining} (h : v.Covers m.footprint)

include h

theorem sees_miner : v.sees m.miner := h _ m.miner_mem_footprint

theorem sees_deposit : v.sees m.deposit := h _ m.deposit_mem_footprint

theorem obstacle?_scene (s : Scene) : m.obstacle? (v.scene s) = m.obstacle? s := by
  unfold obstacle?
  simp only [View.scene, View.ship (sees_miner h), View.deposit (sees_deposit h), v.distance]
  cases s.entities.ship m.miner <;> rfl

theorem undisturbed_setup : Undisturbed v m.setup :=
  (mirrored_deposit (sees_deposit h)).bind fun _ _ =>
    (mirrored_ship (sees_miner h)).bind fun _ _ =>
      mirrored_adjustShip (sees_miner h) fun _ => rfl

theorem undisturbed_finish (reason : String) : Undisturbed v (m.finish reason) :=
  Mirrors.bind (mirrored_adjustShip (sees_miner h) fun _ => rfl) fun _ _ =>
    undisturbed_announce (sees_miner h)

theorem undisturbed_execute : Undisturbed v m.execute := by
  refine (mirrored_ship (sees_miner h)).bind fun x _ =>
    (mirrored_deposit (sees_deposit h)).bind fun d _ => ?_
  dsimp only [Ship.mapEvents]
  split
  · exact undisturbed_pure
  · refine Mirrors.bind (mirrored_change (View.adjustDeposit (sees_deposit h) _)) fun _ _ =>
      (mirrored_ship (sees_miner h)).bind fun y _ => ?_
    rw [show (y.mapEvents v.events).hold = y.hold from rfl]
    cases y.hold.add d.material _ with
    | error f => exact Mirrors.throw _
    | ok hold =>
      exact Mirrors.bind (mirrored_adjustShip (sees_miner h) fun _ => rfl) fun _ _ =>
        undisturbed_announce (sees_miner h)

theorem undisturbed_teardown : Undisturbed v m.teardown :=
  Mirrors.get.bind fun s _ => by
    rw [obstacle?_scene h]
    exact undisturbed_finish h _

theorem undisturbed_stop : Undisturbed v m.stop := by
  refine Mirrors.get.bind fun s _ => ?_
  simp only [View.scene, View.ship (sees_miner h)]
  cases s.entities.ship m.miner with
  | error e => exact undisturbed_pure
  | ok x =>
    simp only [Except.map]
    rw [show (x.mapEvents v.events).mining = x.mining from rfl]
    split
    · exact undisturbed_finish h _
    · exact undisturbed_pure

theorem undisturbed_hook (stage : Stage) : Undisturbed v (m.hook stage) := by
  cases stage with
  | setup => exact undisturbed_setup h
  | before | after => exact undisturbed_pure
  | execute => exact undisturbed_execute h
  | teardown => exact undisturbed_teardown h
  | stop => exact undisturbed_stop h

end Mining

/-! ### Commands -/

variable {κ ε : Type}

/-- What is seen of a deed. -/
def Deed.seen (v : View) : Deed κ → Deed κ
  | turn c found => turn c (v.scene found)
  | hook c stage outcome found left => hook c stage outcome (v.scene found) (v.scene left)

/-- What is seen of a setting, with nobody around. -/
def Setting.seen (v : View) (s : Setting κ ε) : Setting κ Unit where
  now := s.now
  entities := v.entities s.entities
  tracker := v.tracker s.tracker
  outside := ()
  announcements := v.announcements s.announcements
  stopRequests := s.stopRequests
  chronicle := s.chronicle.map (Deed.seen v)

theorem Setting.scene_seen (v : View) (s : Setting κ ε) : (s.seen v).scene = v.scene s.scene := by
  simp only [scene, seen, View.scene, v.announcements_nil]

theorem Setting.note_seen (v : View) (s : Setting κ ε) (d : Deed κ) :
    (s.seen v).note (d.seen v) = (s.note d).seen v := by
  simp only [note, seen, List.map_append, List.map_cons, List.map_nil]

theorem Setting.resume_seen (v : View) (s : Setting κ ε) (credit : Credit → ε → ε)
    (credit' : Credit → Unit → Unit) (left : Scene) :
    (s.seen v).resume credit' (v.scene left) () = (s.resume credit left s.outside).seen v := by
  simp only [resume, seen, View.scene, v.append]

namespace Command

variable (host : CommandHost κ ε) {c : Command κ}

theorem run_eq_of_acts {acts : Stage → Act Unit} (h : c.task.acts? = some acts) (stage : Stage)
    (s : Setting κ ε) :
    c.run host stage s =
      (((acts stage).run.run s.scene).1, c,
        (s.resume host.credit ((acts stage).run.run s.scene).2 s.outside).note
          (.hook c stage ((acts stage).run.run s.scene).1 s.scene
            ((acts stage).run.run s.scene).2)) := by
  obtain ⟨progress, task⟩ := c
  cases task with
  | attack a | mining m =>
    cases h
    rfl
  | custom => cases h

variable (mute : CommandHost κ Unit) {v : View}

theorem BuiltIn.exists_undisturbed (hc : c.BuiltIn) (hv : v.Covers c.footprint) :
    ∃ acts, c.task.acts? = some acts ∧ ∀ stage, Act.Undisturbed v (acts stage) := by
  obtain ⟨progress, task⟩ := c
  obtain ⟨k, actor, target, hdrives⟩ := hc
  cases task with
  | attack a => exact ⟨a.hook, rfl, Attack.undisturbed_hook hv⟩
  | mining m => exact ⟨m.hook, rfl, Mining.undisturbed_hook hv⟩
  | custom => cases hdrives

theorem BuiltIn.run_seen (hc : c.BuiltIn) (hv : v.Covers c.footprint) (stage : Stage)
    (s : Setting κ ε) : c.run mute stage (s.seen v) =
      ((c.run host stage s).1, (c.run host stage s).2.1, (c.run host stage s).2.2.seen v) := by
  obtain ⟨acts, hacts, hsame⟩ := hc.exists_undisturbed hv
  rw [run_eq_of_acts host hacts, run_eq_of_acts mute hacts, Setting.scene_seen,
    (hsame stage).run_eq trivial, Setting.resume_seen v s host.credit, ← Setting.note_seen]
  rfl

theorem BuiltIn.mayExecute_seen (hc : c.BuiltIn) (hv : v.Covers c.footprint) (s : Setting κ ε) :
    c.mayExecute mute (s.seen v) = c.mayExecute host s := by
  obtain ⟨progress, task⟩ := c
  obtain ⟨k, actor, target, hdrives⟩ := hc
  unfold mayExecute
  rw [Setting.scene_seen]
  cases task with
  | attack a => exact congrArg (progress.allows s.now && ·) (Attack.isPossible_scene hv s.scene)
  | mining m =>
    exact congrArg (fun o : Option MiningObstacle => progress.allows s.now && o.isNone)
      (Mining.obstacle?_scene hv s.scene)
  | custom => cases hdrives

theorem BuiltIn.isOver_seen (hc : c.BuiltIn) (hv : v.Covers c.footprint) (s : Setting κ ε) :
    c.isOver mute (s.seen v) = c.isOver host s := by
  obtain ⟨progress, task⟩ := c
  obtain ⟨k, actor, target, hdrives⟩ := hc
  unfold isOver
  rw [Setting.scene_seen]
  cases task with
  | attack a => exact Attack.isOver_scene hv s.scene
  | mining m => exact congrArg Option.isSome (Mining.obstacle?_scene hv s.scene)
  | custom => cases hdrives

end Command

/-- In a view, attacks and mining runs whose footprint is seen do what they do anyway. -/
theorem View.reflection (v : View) (host : CommandHost κ ε) (mute : CommandHost κ Unit) :
    Reflection host mute (fun c => c.BuiltIn ∧ v.Covers c.footprint) (Setting.seen v) where
  now _ := rfl
  turn c s := by
    rw [← Setting.note_seen, Setting.scene_seen]
    rfl
  progress _ _ hc := hc
  keeps stage c s hc := by
    rw [hc.1.run_eq_self]
    exact hc
  run stage c s hc := hc.1.run_seen host mute hc.2 stage s
  mayExecute c s hc := hc.1.mayExecute_seen host mute hc.2 s
  isOver c s hc := hc.1.isOver_seen host mute hc.2 s

end Orrery
