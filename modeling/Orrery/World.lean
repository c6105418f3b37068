import Orrery.Registry

/-!
# The world

A world is a tracker and a registry together with whatever state `ε` their surroundings have.  The
surroundings take part through a `Host`: it supplies the behaviour of custom commands and answers
for the listeners, and while it answers it may use the whole world.

Every operation that leads to notifications comes in phases.  First the tracker or the registry
changes, as one unit; then the listeners are told, one after the other; then the subscriptions of
revoked subscribers are dropped.  What listeners do in the second phase is seen by the third.
-/

namespace Orrery

/-- The tracked positions, the registry, and the state of their surroundings. -/
structure World (κ ε : Type) where
  tracker : Tracker := {}
  registry : Registry κ := {}
  outside : ε

/-- The surroundings of a world. -/
structure Host (κ ε : Type) extends CommandHost κ ε where
  hearPosition : ListenerId → PositionEvent → World κ ε → Reply × World κ ε
  hearEntity : ListenerId → EntityEvent → World κ ε → Reply × World κ ε

/-- What became of some announcements. -/
structure Delivery where
  /-- Listeners that handled their event. -/
  delivered : Nat := 0
  failed : Nat := 0
  /-- Subscriptions dropped because their subscriber was revoked. -/
  revoked : Nat := 0
deriving DecidableEq

/-- What became of announcements with the given reports, before any subscription is dropped. -/
def Delivery.ofReports (reports : List DispatchReport) : Delivery :=
  reports.foldl
    (fun d r => { d with delivered := d.delivered + r.delivered, failed := d.failed + r.failed }) {}

/-- A subscriber whose subscriptions to one kind of event of an entity are to be dropped. -/
structure EntityRevocation where
  entity : EntityId
  kind : EventKind
  subscriber : String
deriving DecidableEq

namespace Entities

/-- Drops the subscriptions that some revocations concern, one after the other; also tells how many
were dropped. -/
def prune (es : Entities) (rs : List EntityRevocation) : Nat × Entities :=
  rs.foldl (fun (count, es) r =>
    match (es.get? r.entity).bind Entity.events? with
    | none => (count, es)
    | some events =>
      let (dropped, events) := events.dropKind r.kind r.subscriber
      (count + dropped, es.putEvents r.entity events)) (0, es)

end Entities

namespace World

variable {κ ε : Type}

/-! ### Positions -/

/-- Tells the listeners of positions, and drops the watches of those that were revoked. -/
def notify (host : Host κ ε) (report : TickReport) (calls : List Call) (w : World κ ε) :
    Except TrackerError TickReport × World κ ε :=
  let (replies, w) := askAll (fun c : Call => host.hearPosition c.notice.listener c.event) calls w
  match w.tracker.prune (Revocation.ofReplies calls replies) with
  | .error e => (.error e, w)
  | .ok (dropped, tracker) => (.ok (report.answered replies dropped), { w with tracker := tracker })

/-- Carries out a change of the tracked positions and tells the listeners. -/
def move (host : Host κ ε)
    (change : Tracker → Except TrackerError (Tracker × TickReport × List Call)) (w : World κ ε) :
    Except TrackerError TickReport × World κ ε :=
  match change w.tracker with
  | .error e => (.error e, w)
  | .ok (tracker, report, calls) => notify host report calls { w with tracker := tracker }

/-- Advances every active position by `elapsed` seconds. -/
def tick (host : Host κ ε) (elapsed : Float) (w : World κ ε) :
    Except TrackerError TickReport × World κ ε :=
  move host (·.advance elapsed) w

/-- Stops a position. -/
def stop (host : Host κ ε) (id : PositionId) (w : World κ ε) :
    Except TrackerError TickReport × World κ ε :=
  move host (·.stop id) w

/-! ### Announcements -/

/-- Makes one announcement. -/
def announce (host : Host κ ε) (a : Announcement) (w : World κ ε) : DispatchReport × World κ ε :=
  dispatch host.hearEntity a.subscriptions a.event w

/-- The revocations that the reports on some announcements ask for. -/
def revocations (announcements : List Announcement) (reports : List DispatchReport) :
    List EntityRevocation :=
  (announcements.zip reports).flatMap fun (a, r) =>
    r.revoked.map fun subscriber => ⟨a.event.entity, a.event.kind, subscriber⟩

/-- Makes announcements in order, and drops the subscriptions of those that were revoked. -/
def deliver (host : Host κ ε) (announcements : List Announcement) (w : World κ ε) :
    Except RegistryError Delivery × World κ ε :=
  let (reports, w) := askAll (announce host) announcements w
  let delivery := Delivery.ofReports reports
  match revocations announcements reports with
  | [] => (.ok delivery, w)
  | rs =>
    match w.registry.check with
    | .error e => (.error e, w)
    | .ok () =>
      let (dropped, entities) := w.registry.entities.prune rs
      (.ok { delivery with revoked := dropped },
        { w with registry := { w.registry with entities := entities } })

/-! ### Commands -/

/-- The world as commands find it at time `now`. -/
def session (w : World κ ε) (now : Float) : Session κ ε where
  schedule := w.registry.schedule
  setting :=
    { now := now, entities := w.registry.entities, tracker := w.tracker, outside := w.outside }

/-- The world as commands left it. -/
def resume (w : World κ ε) (x : Session κ ε) : World κ ε where
  tracker := x.setting.tracker
  registry := { w.registry with entities := x.setting.entities, schedule := x.schedule }
  outside := x.setting.outside

/-- The session in which all commands that act on an entity are to be stopped. -/
def stopping (w : World κ ε) (now : Float) (id : EntityId) : Session κ ε :=
  let x := w.session now
  { x with setting := { x.setting with stopRequests := [id] } }

/-- What one tick of the commands did. -/
structure CommandReport where
  /-- What became of the commands. -/
  schedule : ScheduleReport
  /-- What became of their announcements. -/
  delivery : Delivery
deriving DecidableEq

/-- Ticks every command at time `now`. -/
def tickCommands (host : Host κ ε) (now : Float) (w : World κ ε) :
    Except RegistryError CommandReport × World κ ε :=
  match w.registry.check with
  | .error e => (.error e, w)
  | .ok () =>
    let (report, x) := (w.session now).tick host.toCommandHost
    let (delivery, w) := deliver host x.setting.announcements (w.resume x)
    (delivery.map fun d => ⟨report, d⟩, w)

/-- Stops every command that acts on an entity.  Returns their names in order. -/
def stopCommands (host : Host κ ε) (now : Float) (id : EntityId) (w : World κ ε) :
    Except RegistryError (List CommandId) × World κ ε :=
  match w.registry.check with
  | .error e => (.error e, w)
  | .ok () =>
    let (stopped, x) := (w.stopping now id).meetRequests host.toCommandHost
    let (delivery, w) := deliver host x.setting.announcements (w.resume x)
    (delivery.map fun _ => stopped, w)

/-! ### Entities -/

/-- Removes an entity.  The position that it referred to is released unless another entity refers to
it as well. -/
def erase (w : World κ ε) (id : EntityId) : World κ ε :=
  let entities := w.registry.entities.erase id
  let released (tracker : Tracker) : Tracker :=
    match w.registry.entities.get? id with
    | none => tracker
    | some e =>
      if entities.all.any (·.position = e.position) then tracker else tracker.release e.position
  { w with tracker := released w.tracker, registry := { w.registry with entities := entities } }

/-- Removes an entity, after stopping the commands that act on it.  The hooks of these still see the
entity; if one of them removed it, there is nothing left to remove. -/
def remove (host : Host κ ε) (now : Float) (id : EntityId) (w : World κ ε) :
    Except RegistryError Entity × World κ ε :=
  match w.registry.get id with
  | .error e => (.error e, w)
  | .ok _ =>
    let (_, x) := (w.stopping now id).meetRequests host.toCommandHost
    let w := w.resume x
    let removed := w.registry.entities.require id
    let (delivery, w) := deliver host x.setting.announcements (w.erase id)
    match delivery with
    | .error e => (.error e, w)
    | .ok _ => (removed, w)

/-- Hands material over from one entity to another one. -/
def transfer (host : Host κ ε) (src dst : EntityId) (material : String) (quantity : UInt32)
    (w : World κ ε) : Except RegistryError Unit × World κ ε :=
  let (outcome, registry) :=
    w.registry.transfer w.tracker.coordinatesOf src dst material quantity
  let w := { w with registry := registry }
  match outcome with
  | .error e => (.error e, w)
  | .ok announcements =>
    let (delivery, w) := deliver host announcements w
    (delivery.map fun _ => (), w)

end World

end Orrery
