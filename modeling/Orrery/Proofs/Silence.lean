import Orrery.Proofs.Table
import Orrery.Simulation.Snapshot

/-!
# Silence

Listeners are not part of what is saved.  A position is silenced by dropping its watches, an entity
by emptying its event table, and the tracker and the collection of entities by silencing everything
in them.

No operation looks at who listens.  So it makes no difference whether something is silenced before
an operation or after it, and an operation that only concerns listeners makes no difference at all.
The lemmas `…_silenced` say so of every operation, and with them an operation can be followed in
silence.
-/

namespace Orrery

/-! ### Positions -/

/-- Without its watches. -/
def Position.silenced (p : Position) : Position :=
  { p with movementWatches := [], proximityWatches := [] }

/-- Without its watches. -/
def Tracked.silenced (t : Tracked) : Tracked := { t with position := t.position.silenced }

namespace Position

theorem setRule_silenced (p : Position) (rule : Rule Float) :
    p.silenced.setRule rule = (p.setRule rule).map silenced := by
  unfold setRule
  cases rule.validate <;> rfl

theorem teleport_silenced (p : Position) (coords : Point) :
    p.silenced.teleport coords = (p.teleport coords).map silenced := by
  unfold teleport
  cases coords.isFinite <;> rfl

theorem advance_silenced (p : Position) (elapsed : Float) (targets : Lookup) :
    p.silenced.advance elapsed targets =
      (p.advance elapsed targets).map fun r => (r.1.silenced, r.2) := by
  unfold advance
  rw [show p.silenced.rule = p.rule from rfl, show p.silenced.state = p.state from rfl]
  cases p.rule.advance p.state elapsed targets with
  | error e => rfl
  | ok a =>
    simp only []
    split <;> rfl

end Position

namespace Tracked

theorem stride_silenced (t : Tracked) (elapsed : Float) (start : Lookup) :
    t.silenced.stride elapsed start =
      { t.stride elapsed start with
        slot := (t.stride elapsed start).slot.silenced, notices := [] } := by
  obtain ⟨position, status⟩ := t
  cases status with
  | stopped => rfl
  | active =>
    simp only [stride, silenced, Position.advance_silenced]
    cases position.advance elapsed start with
    | error e => rfl
    | ok r =>
      obtain ⟨p, changed⟩ := r
      cases changed <;> rfl

theorem settle_silenced (t : Tracked) (notices : List Notice) (current : Lookup) :
    t.silenced.settle [] current =
      { t.settle notices current with
        slot := (t.settle notices current).slot.silenced, notices := [] } := by
  obtain ⟨position, status⟩ := t
  have hsilenced : position.silenced.dueProximity current =
      ([], (position.dueProximity current).2.silenced) := rfl
  have hterminated : (position.dueProximity current).2.silenced.hasTerminated =
      (position.dueProximity current).2.hasTerminated := rfl
  simp only [settle, silenced, hsilenced, hterminated]
  cases status <;> cases (position.dueProximity current).2.hasTerminated <;> rfl

end Tracked

/-! ### The tracker -/

namespace Tracker

/-- Without any watches. -/
def silenced (t : Tracker) : Tracker := { t with slots := t.slots.map fun _ => Tracked.silenced }

theorem coordinatesIn_silenced (slots : Table PositionId Tracked) :
    coordinatesIn (slots.map fun _ => Tracked.silenced) = coordinatesIn slots := by
  funext id
  rw [coordinatesIn, Table.get?_map, Option.map_map]
  rfl

theorem coordinatesOf_silenced (t : Tracker) : t.silenced.coordinatesOf = t.coordinatesOf := by
  funext id
  unfold coordinatesOf silenced
  rw [coordinatesIn_silenced]

theorem distanceBetween_silenced (t : Tracker) (a b : PositionId) :
    t.silenced.distanceBetween a b = t.distanceBetween a b := by
  unfold distanceBetween
  rw [coordinatesOf_silenced]

theorem open?_silenced (t : Tracker) :
    t.silenced.open? = t.open?.map fun slots => slots.map fun _ => Tracked.silenced := by
  unfold open? silenced
  cases t.poisoned <;> rfl

theorem require_silenced (t : Tracker) (id : PositionId) :
    t.silenced.require id = (t.require id).map Tracked.silenced := by
  unfold require
  rw [open?_silenced]
  cases t.open? with
  | error e => rfl
  | ok slots =>
    simp only [Except.map, bind, Except.bind, Table.get?_map]
    cases slots.get? id <;> rfl

theorem update_silenced (t : Tracker) (id : PositionId)
    {f f' : Tracked → Except TrackerError Tracked}
    (h : ∀ slot, f' slot.silenced = (f slot).map Tracked.silenced) :
    t.silenced.update id f' = (t.update id f).map silenced := by
  unfold update
  rw [require_silenced]
  cases t.require id with
  | error e => rfl
  | ok slot =>
    simp only [Except.map, bind, Except.bind, h]
    cases f slot with
    | error e => rfl
    | ok slot' =>
      simp only [pure, Except.pure, silenced, Table.replace_map]

/-- A change of watches does not show in silence. -/
theorem silenced_of_rewatch {t : Tracker} {id : PositionId} {f : Tracked → Tracked}
    (h : ∀ slot, t.slots.get? id = some slot → (f slot).silenced = slot.silenced) :
    { t with slots := t.slots.modify id f }.silenced = t.silenced := by
  unfold silenced
  rw [Table.map_modify_eq t.slots Tracked.silenced h]

theorem track_silenced (t : Tracker) (p : Position) :
    t.silenced.track p.silenced = (t.track p).map silenced := by
  unfold track
  rw [open?_silenced, show p.silenced.rule = p.rule from rfl, show p.silenced.id = p.id from rfl]
  cases p.rule.validate with
  | error f => rfl
  | ok u =>
    cases t.open? with
    | error e => rfl
    | ok slots =>
      simp only [Except.map, bind, Except.bind, Table.contains_map]
      cases slots.contains p.id with
      | true => rfl
      | false =>
        have hinsert := Table.insert_map slots Tracked.silenced p.id { position := p }
        simp only [Bool.false_eq_true, ↓reduceIte, pure, Except.pure, silenced, ← hinsert]
        rfl

theorem untrack_silenced (t : Tracker) (id : PositionId) :
    t.silenced.untrack id =
      (t.untrack id).map fun r => (r.1.map Position.silenced, r.2.silenced) := by
  unfold untrack
  rw [open?_silenced]
  cases t.open? with
  | error e => rfl
  | ok slots =>
    simp only [Except.map, bind, Except.bind, pure, Except.pure, Table.get?_map, Table.erase_map,
      Option.map_map, silenced]
    rfl

theorem setRule_silenced (t : Tracker) (id : PositionId) (rule : Rule Float) :
    t.silenced.setRule id rule = (t.setRule id rule).map silenced := by
  refine update_silenced t id fun slot => ?_
  rw [show slot.silenced.position = slot.position.silenced from rfl, Position.setRule_silenced]
  cases slot.position.setRule rule <;> rfl

theorem teleport_silenced (t : Tracker) (id : PositionId) (coords : Point) :
    t.silenced.teleport id coords = (t.teleport id coords).map silenced := by
  refine update_silenced t id fun slot => ?_
  rw [show slot.silenced.position = slot.position.silenced from rfl, Position.teleport_silenced]
  cases slot.position.teleport coords <;> rfl

theorem halt_silenced (t : Tracker) (id : PositionId) :
    t.silenced.halt id = (t.halt id).silenced := by
  unfold halt
  rw [setRule_silenced]
  cases t.setRule id .rest <;> rfl

theorem release_silenced (t : Tracker) (id : PositionId) :
    t.silenced.release id = (t.release id).silenced := by
  unfold release
  rw [untrack_silenced]
  cases t.untrack id <;> rfl

namespace Tick

/-- Without any watches and without anything to report to them. -/
def silenced (x : Tick) : Tick where
  slots := x.slots.map fun _ => Tracked.silenced
  report := x.report
  pending := x.pending.map (Option.map fun _ => [])
  calls := []

theorem stride_silenced (elapsed : Float) (start : Lookup) (x : Tick) (id : PositionId) :
    x.silenced.stride elapsed start id = (x.stride elapsed start id).silenced := by
  unfold stride
  rw [show x.silenced.slots = x.slots.map fun _ => Tracked.silenced from rfl, Table.get?_map]
  cases x.slots.get? id with
  | none => rfl
  | some slot =>
    simp only [Option.map_some, Tracked.stride_silenced, silenced, List.map_append, List.map_cons,
      List.map_nil, Table.replace_map]
    cases (slot.stride elapsed start).failure <;> rfl

theorem settle_silenced (current : Lookup) (x : Tick) (item : PositionId × Option (List Notice)) :
    x.silenced.settle current (item.1, item.2.map fun _ => []) =
      (x.settle current item).silenced := by
  obtain ⟨id, pending⟩ := item
  unfold settle
  rw [show x.silenced.slots = x.slots.map fun _ => Tracked.silenced from rfl, Table.get?_map]
  cases pending with
  | none => rfl
  | some notices =>
    cases x.slots.get? id with
    | none => rfl
    | some slot =>
      simp only [Option.map_some, Tracked.settle_silenced slot notices, silenced, List.map_nil,
        List.append_nil, Table.replace_map]

theorem run_silenced (slots : Table PositionId Tracked) (elapsed : Float) :
    run (slots.map fun _ => Tracked.silenced) elapsed = (run slots elapsed).silenced := by
  unfold run
  have hfirst : (slots.map fun _ => Tracked.silenced).keys.foldl
      (stride elapsed (coordinatesIn (slots.map fun _ => Tracked.silenced)))
      { slots := slots.map fun _ => Tracked.silenced } =
        (slots.keys.foldl (stride elapsed (coordinatesIn slots)) { slots := slots }).silenced := by
    rw [coordinatesIn_silenced, Table.keys_map]
    show slots.keys.foldl _ (silenced { slots := slots }) = _
    exact List.foldl_hom silenced fun x id => stride_silenced elapsed _ x id
  rw [hfirst]
  generalize slots.keys.foldl (stride elapsed (coordinatesIn slots)) { slots := slots } = x
  simp only [silenced, coordinatesIn_silenced, Table.keys_map, List.zip_map_right, List.foldl_map]
  exact List.foldl_hom silenced fun x item => settle_silenced _ x item

end Tick

theorem advance_silenced (t : Tracker) (elapsed : Float) :
    t.silenced.advance elapsed = (t.advance elapsed).map fun r => (r.1.silenced, r.2.1, []) := by
  unfold advance
  rw [open?_silenced]
  cases t.open? with
  | error e => rfl
  | ok slots =>
    simp only [Except.map, bind, Except.bind, Tick.run_silenced]
    rfl

theorem stop_silenced (t : Tracker) (id : PositionId) :
    t.silenced.stop id = (t.stop id).map fun r => (r.1.silenced, r.2.1, []) := by
  unfold stop
  rw [require_silenced]
  cases t.require id with
  | error e => rfl
  | ok slot =>
    obtain ⟨position, status⟩ := slot
    cases status with
    | stopped => rfl
    | active =>
      have hslots : (t.slots.map fun _ => Tracked.silenced).modify id
          (fun slot => { slot with status := .stopped }) =
            (t.slots.modify id fun slot => { slot with status := .stopped }).map
              fun _ => Tracked.silenced := Table.modify_map _ _ fun _ => rfl
      simp only [Except.map, bind, Except.bind, pure, Except.pure, silenced, hslots]
      rfl

end Tracker

/-! ### Entities -/

/-- Without its listeners, if it can have any. -/
def Entity.silenced (e : Entity) : Entity := e.withEvents {}

namespace Entity

variable (e : Entity)

@[simp] theorem id_silenced : e.silenced.id = e.id := by cases e <;> rfl

@[simp] theorem system_silenced : e.silenced.system = e.system := by cases e <;> rfl

@[simp] theorem position_silenced : e.silenced.position = e.position := by cases e <;> rfl

@[simp] theorem trade?_silenced : e.silenced.trade? = e.trade? := by cases e <;> rfl

theorem withHold_silenced (h : Hold) : e.silenced.withHold h = (e.withHold h).silenced := by
  cases e <;> rfl

end Entity

namespace Entities

/-- Without any listeners. -/
def silenced (es : Entities) : Entities := ⟨es.table.map fun _ => Entity.silenced⟩

variable (es : Entities)

theorem get?_silenced (id : EntityId) : es.silenced.get? id = (es.get? id).map Entity.silenced :=
  Table.get?_map ..

theorem all_silenced : es.silenced.all = es.all.map Entity.silenced := Table.values_map ..

theorem require_silenced (id : EntityId) :
    es.silenced.require id = (es.require id).map Entity.silenced := by
  unfold require
  rw [get?_silenced]
  cases es.get? id <;> rfl

theorem hold_silenced (id : EntityId) : es.silenced.hold id = es.hold id := by
  unfold hold
  rw [require_silenced]
  cases es.require id with
  | error e => rfl
  | ok e => cases e <;> rfl

/-- In silence there is nobody to tell. -/
theorem announcement?_silenced (event : EntityEvent) :
    es.silenced.announcement? event = none := by
  unfold announcement?
  rw [get?_silenced]
  cases es.get? event.entity with
  | none => rfl
  | some e => cases e <;> rfl

theorem adjust_silenced (id : EntityId) {f f' : Entity → Entity}
    (h : ∀ e, f' e.silenced = (f e).silenced) :
    es.silenced.adjust id f' = (es.adjust id f).silenced :=
  congrArg Entities.mk (Table.modify_map es.table Entity.silenced h)

theorem putHold_silenced (id : EntityId) (h : Hold) :
    es.silenced.putHold id h = (es.putHold id h).silenced :=
  es.adjust_silenced id fun e => e.withHold_silenced h

/-- A change of listeners does not show in silence. -/
theorem silenced_putEvents (id : EntityId) (events : EventTable) :
    (es.putEvents id events).silenced = es.silenced := by
  have hsame : ∀ e : Entity, e.silenced = (e.withEvents events).silenced := fun e => by
    cases e <;> rfl
  exact congrArg Entities.mk
    (Table.map_modify_eq es.table Entity.silenced fun e _ => (hsame e).symm)

theorem add_silenced (e : Entity) :
    es.silenced.add e.silenced = (es.add e).map silenced := by
  have hcontains : es.silenced.contains e.id = es.contains e.id := Table.contains_map ..
  unfold add
  rw [Entity.id_silenced, hcontains]
  cases es.contains e.id with
  | true => rfl
  | false => exact congrArg (Except.ok ∘ Entities.mk) (Table.insert_map es.table _ e.id e)

theorem erase_silenced (id : EntityId) : es.silenced.erase id = (es.erase id).silenced :=
  congrArg Entities.mk (Table.erase_map ..)

end Entities

/-! ### Snapshots -/

/-- Without any listeners. -/
def Snapshot.silenced (s : Snapshot) : Snapshot :=
  { s with positions := s.positions.map (·.silenced), entities := s.entities.map (·.silenced) }

end Orrery
