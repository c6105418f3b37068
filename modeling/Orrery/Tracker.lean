import Orrery.Table
import Orrery.Tracker.Error
import Orrery.Tracker.Tracked

/-!
# The tracker

The tracker owns all tracked positions, in the order in which they were registered, and moves them
tick by tick.  Its operations are functions of the tracked positions alone.  Where listeners have
to be told, an operation returns the calls to be made; `Tracker.prune` then drops the watches of
subscribers that were revoked in the answers.

An update that broke off half-way leaves the tracker poisoned.  It then refuses everything.
-/

namespace Orrery

/-- All tracked positions. -/
structure Tracker where
  /-- The tracked positions under their identifiers, in the order of registration. -/
  slots : Table PositionId Tracked := {}
  /-- Whether an update broke off half-way. -/
  poisoned : Bool := false

/-- What one tick, or one stop, did. -/
structure TickReport where
  /-- Active positions advanced without error. -/
  advanced : Nat := 0
  /-- Positions whose coordinates or orientation changed. -/
  moved : Nat := 0
  stopped : List PositionId := []
  failed : List (PositionId × MotionError) := []
  /-- Notices that were handled by their listener. -/
  notified : Nat := 0
  /-- Notices that their listener failed to handle. -/
  callbackFailures : Nat := 0
  /-- Watches dropped because their subscriber was revoked. -/
  revoked : Nat := 0
deriving DecidableEq

/-- A notice about a position, ready to be given to its listener. -/
structure Call where
  /-- The position, as the listener sees it. -/
  position : Position
  notice : Notice

/-- What the listener is told. -/
def Call.event (c : Call) : PositionEvent := c.notice.event c.position

/-- A subscriber whose watches of one kind on one position are to be dropped. -/
structure Revocation where
  id : PositionId
  /-- Whether proximity watches are meant rather than movement watches. -/
  ofProximity : Bool
  subscriber : String
deriving DecidableEq

/-- The revocations that the answers to some calls ask for. -/
def Revocation.ofReplies (calls : List Call) (replies : List Reply) : List Revocation :=
  (calls.zip replies).filterMap fun (c, r) =>
    r.revoked?.map fun subscriber => ⟨c.position.id, c.notice.isProximity, subscriber⟩

namespace Tracker

/-- The tracked positions, unless they cannot be trusted. -/
def open? (t : Tracker) : Except TrackerError (Table PositionId Tracked) :=
  if t.poisoned then .error .poisoned else .ok t.slots

/-- Marks the tracked positions as not to be trusted. -/
def poison (t : Tracker) : Tracker := { t with poisoned := true }

/-! ### Tracking -/

/-- Starts to track a position, which becomes active. -/
def track (t : Tracker) (p : Position) : Except TrackerError Tracker := do
  if let .error f := p.rule.validate then
    throw (.invalidRule (.ofFault f))
  let slots ← t.open?
  if slots.contains p.id then
    throw (.alreadyTracked p.id)
  return { t with slots := slots.insert p.id { position := p } }

/-- Ends tracking a position, and returns it if it was tracked. -/
def untrack (t : Tracker) (id : PositionId) : Except TrackerError (Option Position × Tracker) := do
  let slots ← t.open?
  return ((slots.get? id).map (·.position), { t with slots := slots.erase id })

/-- A tracked position and its status. -/
def require (t : Tracker) (id : PositionId) : Except TrackerError Tracked := do
  let slots ← t.open?
  match slots.get? id with
  | none => throw (.notFound id)
  | some slot => return slot

/-- Whether a position is tracked. -/
def contains (t : Tracker) (id : PositionId) : Bool := !t.poisoned && t.slots.contains id

/-- Number of tracked positions. -/
def size (t : Tracker) : Nat := if t.poisoned then 0 else t.slots.size

/-- Whether nothing is tracked. -/
def isEmpty (t : Tracker) : Bool := t.size == 0

/-- The identifiers of tracked positions, in the order of registration. -/
def ids (t : Tracker) : Except TrackerError (List PositionId) := do
  return (← t.open?).keys

/-- The coordinates in a table of tracked positions. -/
def coordinatesIn (slots : Table PositionId Tracked) : Lookup := fun id =>
  (slots.get? id).map (·.position.coords)

/-- The coordinates of a position, if it is tracked. -/
def coordinatesOf (t : Tracker) (id : PositionId) : Option Point :=
  if t.poisoned then none else coordinatesIn t.slots id

/-- The distance of two positions, if both are tracked. -/
def distanceBetween (t : Tracker) (a b : PositionId) : Option Float := do
  let p ← t.coordinatesOf a
  let q ← t.coordinatesOf b
  return p.distance q

/-! ### Changes to one position -/

/-- Changes one tracked position. -/
def update (t : Tracker) (id : PositionId) (f : Tracked → Except TrackerError Tracked) :
    Except TrackerError Tracker := do
  let slot ← f (← t.require id)
  return { t with slots := t.slots.modify id fun _ => slot }

/-- Assigns a rule, which has to be valid, and makes the position active. -/
def setRule (t : Tracker) (id : PositionId) (rule : Rule Float) : Except TrackerError Tracker :=
  t.update id fun slot =>
    match slot.position.setRule rule with
    | .error e => .error (.invalidRule e)
    | .ok p => .ok { position := p, status := .active }

/-- Jumps to `coords`, which have to be finite.  The position becomes active unless its rule has
terminated; then it is stopped. -/
def teleport (t : Tracker) (id : PositionId) (coords : Point) : Except TrackerError Tracker :=
  t.update id fun slot =>
    match slot.position.teleport coords with
    | .error e => .error (.invalidRule e)
    | .ok p => .ok { position := p, status := if p.hasTerminated then .stopped else .active }

/-- Adds a movement watch. -/
def watchMovement (t : Tracker) (id : PositionId) (w : MovementWatch) :
    Except TrackerError Tracker :=
  t.update id fun slot => .ok { slot with position := slot.position.watchMovement w }

/-- Adds a proximity watch. -/
def watchProximity (t : Tracker) (id : PositionId) (w : ProximityWatch) :
    Except TrackerError Tracker :=
  t.update id fun slot => .ok { slot with position := slot.position.watchProximity w }

/-- Drops all watches of a subscriber on one position; also tells how many there were. -/
def dropWatches (t : Tracker) (id : PositionId) (subscriber : String) :
    Except TrackerError (Nat × Tracker) := do
  let p := (← t.require id).position
  let t ← t.update id fun slot =>
    .ok { slot with position := (slot.position.dropMovement subscriber).dropProximity subscriber }
  return (p.movementCount subscriber + p.proximityCount subscriber, t)

/-- Stops a position in place: its rule becomes rest.  Unknown positions are ignored. -/
def halt (t : Tracker) (id : PositionId) : Tracker :=
  match t.setRule id .rest with
  | .ok t => t
  | .error _ => t

/-- Ends tracking a position that nothing needs any more.  Unknown positions are ignored. -/
def release (t : Tracker) (id : PositionId) : Tracker :=
  match t.untrack id with
  | .ok (_, t) => t
  | .error _ => t

/-! ### Ticks and stops -/

/-- A tick in progress.  It goes through the tracked positions twice, in the order of registration,
and changes each of them in its place. -/
structure Tick where
  slots : Table PositionId Tracked
  /-- What has happened so far. -/
  report : TickReport := {}
  /-- What is to be reported of each position that was gone through in the first pass, in order;
  none for a position whose advance failed. -/
  pending : List (Option (List Notice)) := []
  /-- The calls to be made. -/
  calls : List Call := []

namespace Tick

/-- The first pass comes to a position. -/
def stride (elapsed : Float) (start : Lookup) (x : Tick) (id : PositionId) : Tick :=
  match x.slots.get? id with
  | none => x
  | some slot =>
    let s := slot.stride elapsed start
    { x with
      slots := x.slots.modify id fun _ => s.slot
      report :=
        { x.report with
          advanced := x.report.advanced + s.advanced.toNat
          moved := x.report.moved + s.moved.toNat
          failed := x.report.failed ++ (s.failure.map fun e => (id, e)).toList }
      pending := x.pending ++ [if s.failure.isSome then none else some s.notices] }

/-- The second pass comes to a position, of which the given notices are pending. -/
def settle (current : Lookup) (x : Tick) (item : PositionId × Option (List Notice)) : Tick :=
  match item.2, x.slots.get? item.1 with
  | some notices, some slot =>
    let s := slot.settle notices current
    { x with
      slots := x.slots.modify item.1 fun _ => s.slot
      report := { x.report with stopped := x.report.stopped ++ if s.stops then [item.1] else [] }
      calls := x.calls ++ s.notices.map fun n => ⟨s.slot.position, n⟩ }
  | _, _ => x

/-- Both passes of a tick of `elapsed` seconds.  The first one sees where the positions were before
it, and the second one where they are after it. -/
def run (slots : Table PositionId Tracked) (elapsed : Float) : Tick :=
  let x := slots.keys.foldl (stride elapsed (coordinatesIn slots)) { slots := slots }
  (x.slots.keys.zip x.pending).foldl (settle (coordinatesIn x.slots)) x

end Tick

/-- Advances every active position by `elapsed` seconds.  Returns the tracker, the report so far
and the calls to be made. -/
def advance (t : Tracker) (elapsed : Float) :
    Except TrackerError (Tracker × TickReport × List Call) := do
  let x := Tick.run (← t.open?) elapsed
  return ({ t with slots := x.slots }, x.report, x.calls)

/-- Stops a position.  Returns the tracker, the report so far and the calls to be made; nothing
happens to a position that is stopped already. -/
def stop (t : Tracker) (id : PositionId) :
    Except TrackerError (Tracker × TickReport × List Call) := do
  let slot ← t.require id
  match slot.status with
  | .stopped => return (t, {}, [])
  | .active =>
    let t := { t with slots := t.slots.modify id fun s => { s with status := .stopped } }
    return (t, { stopped := [id] }, slot.stopNotices.map fun n => ⟨slot.position, n⟩)

/-- How many watches a revocation concerns. -/
def revokedCount (slots : Table PositionId Tracked) (r : Revocation) : Nat :=
  match slots.get? r.id with
  | none => 0
  | some slot =>
    if r.ofProximity then slot.position.proximityCount r.subscriber
    else slot.position.movementCount r.subscriber

/-- Drops the watches that a revocation concerns. -/
def revoke (slots : Table PositionId Tracked) (r : Revocation) : Table PositionId Tracked :=
  slots.modify r.id fun slot =>
    { slot with
      position :=
        if r.ofProximity then slot.position.dropProximity r.subscriber
        else slot.position.dropMovement r.subscriber }

/-- Drops the watches that some revocations concern, one after the other; also tells how many were
dropped. -/
def prune (t : Tracker) : List Revocation → Except TrackerError (Nat × Tracker)
  | [] => .ok (0, t)
  | rs => do
    let slots ← t.open?
    let (count, slots) := rs.foldl
      (fun (count, slots) r => (count + revokedCount slots r, revoke slots r)) (0, slots)
    return (count, { t with slots := slots })

/-! ### Saving and restoring -/

/-- All tracked positions and their status, in the order of registration. -/
def snapshot (t : Tracker) : Except TrackerError (List Tracked) := do
  return (← t.open?).values

/-- Adds tracked positions one after the other, unless a rule is invalid or an identity is taken. -/
def addAll (slots : Table PositionId Tracked) :
    List Tracked → Except TrackerError (Table PositionId Tracked)
  | [] => .ok slots
  | slot :: rest => do
    if let .error f := slot.position.rule.validate then
      throw (.invalidRule (.ofFault f))
    if slots.contains slot.position.id then
      throw (.alreadyTracked slot.position.id)
    addAll (slots.insert slot.position.id slot) rest

/-- Replaces all tracked positions.  Nothing changes if a rule is invalid or an identity repeats. -/
def restore (t : Tracker) (slots : List Tracked) : Except TrackerError Tracker := do
  let slots ← addAll {} slots
  let _ ← t.open?
  return { t with slots := slots }

end Tracker

/-- Completes a report with the answers of the listeners and the number of dropped watches. -/
def TickReport.answered (report : TickReport) (replies : List Reply) (revoked : Nat) : TickReport :=
  { report with
    notified := replies.countP Reply.isOk
    callbackFailures := replies.countP Reply.isFailure
    revoked := revoked }

end Orrery
