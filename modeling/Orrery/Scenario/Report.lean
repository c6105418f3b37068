import Orrery.Document.Snapshot
import Orrery.Scenario

/-!
# Reports

The written form of the results of scenarios: states in full, outcomes, and journals.  It differs
from that of saved documents.  It tells what can be derived as well, such as the free space of a
hold, and it keeps numbers that are not finite, as words.
-/

namespace Orrery.Report

open Json (Value)
open Scenario

/-! ### Parts -/

/-- A natural number. -/
def int (n : Nat) : Value := .ofNat n

/-- A number, or a word for one that is not finite. -/
def num (x : Float) : Value :=
  if x.isNaN then .ofString "NaN"
  else if x.isFinite then .ofFloat x
  else .ofString (if x < 0.0 then "-inf" else "inf")

/-- A string. -/
def text (s : String) : Value := .ofString s

/-- Several strings. -/
def texts (ss : List String) : Value := .ofList text ss

/-- A point. -/
def point (p : Point) : Value := .arr [num p.x, num p.y, num p.z]

/-- Something that was done. -/
def ok : Value := text "ok"

/-! ### Errors -/

/-- The name of an error. -/
def code : Failure → String
  | .motion (.invalidParameter ..) => "InvalidParameter"
  | .motion (.targetMissing _) => "TargetMissing"
  | .motion (.nonFinite _) => "NonFinite"
  | .tracker (.alreadyTracked _) => "AlreadyTracked"
  | .tracker (.notFound _) => "NotFound"
  | .tracker (.invalidRule _) => "InvalidMotionRule"
  | .tracker .poisoned => "Poisoned"
  | .registry (.duplicateId _) => "DuplicateId"
  | .registry (.notFound _) => "NotFound"
  | .registry (.wrongKind ..) => "WrongKind"
  | .registry (.transferRejected _) => "TransferRejected"
  | .registry .poisoned => "Poisoned"
  | .command (.failed ..) => "Failed"
  | .command (.registry _) => "Registry"
  | .callback (.failed _) => "Failed"
  | .callback (.revoked _) => "Revoked"
  | .settings (.zeroInterval _) => "ZeroInterval"
  | .settings (.unreadable _) => "Parse"
  | .settings (.spawnFailed _) => "ThreadSpawnFailed"
  | .settings .alreadyRunning => "AlreadyRunning"
  | .snapshot (.unwritable _) => "Encode"
  | .snapshot (.unreadable _) => "Decode"
  | .snapshot (.conflict _) => "Conflict"
  | .snapshot (.tracker _) => "Runner"
  | .snapshot (.registry _) => "Registry"

/-- Whether the words of an error belong to its report.  What a reader of documents says about a
text that it cannot read is left open. -/
def hasWords : Failure → Bool
  | .settings (.unreadable _) => false
  | .snapshot (.unreadable _) => false
  | .snapshot (.unwritable _) => false
  | _ => true

/-- An error. -/
def failure (e : Failure) : Value :=
  .record (("error", text (code e)) :: (if hasWords e then [("message", text e.message)] else []))

/-- Something that may be refused. -/
def result {ε α : Type} (f : ε → Failure) (write : α → Value) : Except ε α → Value
  | .ok a => write a
  | .error e => failure (f e)

/-! ### Motion -/

/-- The fields of a spin. -/
def spinFields (s : Spin Float) : List (String × Value) :=
  [("type", text "rotate"), ("axis", point s.axis), ("speed", num s.speed),
    ("stop_angle", .ofOption num s.stopAngle)]

/-- A rule. -/
def rule : Rule Float → Value
  | .rest => .record [("type", text "stationary")]
  | .cruise c =>
    .record [("type", text "linear"), ("direction", point c.direction), ("speed", num c.speed),
      ("stop_distance", .ofOption num c.stopDistance),
      ("rotation", .ofOption (fun s => .record (spinFields s)) c.spin)]
  | .orbit o =>
    .record [("type", text "elliptical"), ("p", num o.semiLatusRectum), ("e", num o.eccentricity),
      ("speed", num o.speed), ("major", point o.major), ("minor", point o.minor),
      ("origin", text o.origin.text), ("anomaly", num o.trueAnomaly)]
  | .spin s => .record (spinFields s)
  | .pursuit p =>
    .record [("type", text "follow"), ("target", p.target.document), ("offset", point p.offset),
      ("distance", num p.distance), ("speed", num p.speed),
      ("point_to_target", .bool p.pointToTarget)]

/-- A kinematic state. -/
def state (k : Kinematics Float) : Value :=
  .record [("coords", point k.coords), ("orientation", point k.orientation),
    ("distance", num k.distanceMoved), ("angle", num k.angleRotated)]

/-- A movement watch. -/
def movementWatch (w : MovementWatch) : Value :=
  .arr [text w.subscriber, num w.minDistance, point w.anchor]

/-- A proximity watch. -/
def proximityWatch (w : ProximityWatch) : Value :=
  .arr [text w.subscriber, w.target.document, num w.distance]

/-- The fields of a position. -/
def positionFields (p : Position) : List (String × Value) :=
  [("id", p.id.document), ("parent", .ofOption PositionId.document p.parent),
    ("coords", point p.coords), ("orientation", point p.state.orientation),
    ("distance", num p.state.distanceMoved), ("angle", num p.state.angleRotated),
    ("rule", rule p.rule), ("terminated", .bool p.hasTerminated),
    ("movement", .ofList movementWatch p.movementWatches),
    ("proximity", .ofList proximityWatch p.proximityWatches)]

/-- A position. -/
def position (p : Position) : Value := .record (positionFields p)

/-- A tracked position. -/
def tracked (t : Tracked) : Value :=
  .record (positionFields t.position ++ [("status", text t.status.text)])

/-! ### Entities and commands -/

/-- A stack. -/
def stack (s : Stack) : Value := .arr [text s.material, int s.quantity.toNat]

/-- A hold. -/
def hold (h : Hold) : Value :=
  .record [("capacity", int h.capacity.toNat), ("total", int h.total.toNat),
    ("free", int h.free.toNat), ("empty", .bool h.isEmpty), ("stacks", .ofList stack h.contents)]

/-- The fields that only some kinds of entity have. -/
def entityDetails : Entity → List (String × Value)
  | .ship s =>
    [("user", text s.user), ("hp", int s.hp.toNat), ("shield", int s.shield.toNat),
      ("damage", int s.damage.toNat), ("attack_distance", num s.attackDistance),
      ("mining_distance", num s.miningDistance), ("mining_quantity", int s.miningQuantity.toNat),
      ("transfer_distance", num s.transferDistance), ("cargo", hold s.hold),
      ("attacking", .ofOption EntityId.document s.attacking),
      ("mining", .ofOption EntityId.document s.mining),
      ("destroyed_by", .ofOption EntityId.document s.destroyedBy), ("listeners", int s.events.size)]
  | .station s =>
    [("user", text s.user), ("transfer_distance", num s.transferDistance), ("cargo", hold s.hold),
      ("listeners", int s.events.size)]
  | .loot l => [("cargo", hold l.hold)]
  | .deposit d => [("material", text d.material), ("quantity", int d.quantity.toNat)]

/-- An entity. -/
def entity (e : Entity) : Value :=
  .record ([("kind", text e.kind), ("id", e.id.document), ("system", text e.system),
    ("position", e.position.document)] ++ entityDetails e)

/-- The progress of a command. -/
def progress (p : Progress) : Value :=
  .record [("rate", .ofOption num p.rate), ("last", .ofOption num p.lastRun),
    ("setup", .bool p.isSetUp)]

/-- What an event carries. -/
def payload : EventPayload → Value
  | .none => .null
  | .resource material quantity => .arr [text material, int quantity.toNat]
  | .reason s => text s

/-- The fields of an event. -/
def eventFields (e : EntityEvent) : List (String × Value) :=
  [("event", text e.kind.text), ("entity", e.entity.document),
    ("other", .ofOption EntityId.document e.other), ("payload", payload e.payload)]

/-! ### Ticks -/

/-- A position whose advance failed. -/
def failedAdvance (f : PositionId × MotionError) : Value :=
  .arr [f.1.document, failure (.motion f.2)]

/-- What a tick of the positions did. -/
def tick (r : TickReport) : Value :=
  .record [("advanced", int r.advanced), ("moved", int r.moved),
    ("stopped", .ofList PositionId.document r.stopped),
    ("failed", .ofList failedAdvance r.failed), ("notified", int r.notified),
    ("callback_failures", int r.callbackFailures), ("revoked", int r.revoked)]

/-- The names of commands. -/
def commandNames (ids : List CommandId) : Value := texts (ids.map (·.name))

/-- What a tick of the commands did. -/
def commandTick (r : World.CommandReport) : Value :=
  .record [("ran", int r.schedule.ran), ("executed", int r.schedule.executed),
    ("failed", int r.schedule.failed), ("finished", commandNames r.schedule.finished),
    ("stopped", commandNames r.schedule.stopped), ("delivered", int r.delivery.delivered),
    ("delivery_failed", int r.delivery.failed), ("revoked", int r.delivery.revoked)]

/-- What a ticker did. -/
def ticker (r : TickerReport) : Value := .arr [int r.ticks, .bool r.joined, .bool r.halted]

/-- A scheduled command. -/
def scheduled (c : CommandId × Progress) : Value := .arr [text c.1.name, progress c.2]

/-- The state of a world. -/
def dump (d : Dump) : Value :=
  .record [("positions", result .tracker (.ofList tracked) d.positions),
    ("entities", result .registry (.ofList entity) d.entities),
    ("commands", result .registry (.ofList scheduled) d.commands),
    ("records", .ofOption int d.records)]

/-! ### Outcomes and journals -/

mutual

/-- An outcome. -/
def outcome : Outcome → Value
  | .done => ok
  | .nothing => .null
  | .flag b => .bool b
  | .count n => int n
  | .number x => num x
  | .text s => text s
  | .point p => point p
  | .position p => position p
  | .entity e => entity e
  | .hold h => hold h
  | .progress p => progress p
  | .tick r => tick r
  | .commandTick r => commandTick r
  | .shutdown r => .record [("runner", ticker r.positions), ("commands", ticker r.commands)]
  | .dump d => dump d
  | .several os => .arr (outcomes os)
  | .failed e => failure e

/-- Several outcomes. -/
def outcomes : List Outcome → List Value
  | [] => []
  | o :: os => outcome o :: outcomes os

end

/-- An entry of the journal. -/
def entry : Entry → Value
  | .moved l id coords previous =>
    .record [("listener", text l), ("event", text "moved"), ("id", id.document),
      ("coords", point coords), ("previous", point previous)]
  | .proximity l id target distance entered =>
    .record [("listener", text l), ("event", text "proximity"), ("id", id.document),
      ("target", target.document), ("distance", num distance), ("entered", .bool entered)]
  | .stopped l id coords =>
    .record [("listener", text l), ("event", text "stopped"), ("id", id.document),
      ("coords", point coords)]
  | .event l e => .record (("listener", text l) :: eventFields e)
  | .action l label o => .record [("listener", text l), ("then", text label), ("r", outcome o)]
  | .credit c => .record [("attribute", text c.counter), ("user", text c.user), ("by", int 1)]
  | .executed id => .record [("command", text id.name), ("hook", text "execute")]
  | .hook id stage os =>
    .record [("command", text id.name), ("hook", text stage.text), ("acts", .arr (outcomes os))]

/-- What a step shows.  A journal without entries is left out. -/
def shown (s : Shown) : Value :=
  .record ([("r", outcome s.outcome)]
    ++ (if s.journal.isEmpty then [] else [("log", .ofList entry s.journal)])
    ++ (match s.state with
      | none => []
      | some d => [("state", dump d)]))

end Orrery.Report
