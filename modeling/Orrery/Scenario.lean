import Orrery.Description
import Orrery.Document.Snapshot
import Orrery.Scenario.Script

/-!
# Scenarios

A scenario drives a simulation step by step, with listeners and commands that follow scripts, and
keeps a journal of everything that listeners and scripted commands do.

A listener may act on the world in turn, and so lead to other listeners being told of something.
That comes to an end, since each listener acts only once: `host fuel` is the host in which
listeners act up to `fuel` deep, and there are never more listeners than scripts.
-/

namespace Orrery.Scenario

/-- An entry of the journal. -/
inductive Entry where
  | moved (listener : String) (id : PositionId) (coords previous : Point)
  /-- A listener was told that the distance to a target crossed a threshold. -/
  | proximity (listener : String) (id target : PositionId) (distance : Float) (entered : Bool)
  | stopped (listener : String) (id : PositionId) (coords : Point)
  | event (listener : String) (event : EntityEvent)
  | action (listener label : String) (outcome : Outcome)
  | credit (c : Credit)
  | executed (command : CommandId)
  /-- A hook of a command carried acts out. -/
  | hook (command : CommandId) (stage : Stage) (outcomes : List Outcome)

/-- The entry for what a listener of a position is told. -/
def Entry.ofPositionEvent (listener : String) : PositionEvent → Entry
  | .moved p previous => moved listener p.id p.coords previous
  | .proximity p target distance entered => proximity listener p.id target distance entered
  | .stopped p => stopped listener p.id p.coords

/-- A listener. -/
structure Listener where
  script : Script
  /-- How many events it was told of. -/
  heard : Nat := 0

/-- What is outside of the simulation. -/
structure Surroundings where
  /-- All listeners; the number of each is its place. -/
  listeners : List Listener := []
  journal : List Entry := []

namespace Surroundings

/-- Adds an entry to the journal. -/
def note (s : Surroundings) (e : Entry) : Surroundings := { s with journal := e :: s.journal }

/-- Adds a listener. -/
def enlist (s : Surroundings) (script : Script) : ListenerId × Surroundings :=
  (⟨s.listeners.length⟩, { s with listeners := s.listeners ++ [⟨script, 0⟩] })

/-- Counts an event that a listener is told of. -/
def countEvent (s : Surroundings) (id : ListenerId) : Surroundings :=
  { s with
    listeners := s.listeners.modify id.number fun l => { l with heard := l.heard + 1 } }

end Surroundings

/-- A world whose listeners and custom commands follow scripts. -/
abbrev ScriptedWorld := World Routine Surroundings

/-! ### Commands -/

namespace Routine

/-- A hook of a scripted command. -/
def hook (stage : Stage) (progress : Progress) (r : Routine) (scene : Scene) (s : Surroundings) :
    HookRun Routine Surroundings :=
  match r with
  | minimal name =>
    ⟨.ok (), progress, r, scene, if stage = .execute then s.note (.executed name) else s⟩
  | probe name acts failing finishAfter executions =>
    let (outcomes, result, scene) := HookAct.runAll (acts stage) scene
    let s := scene.credits.foldl (fun s c => s.note (.credit c)) s
    let told : CommandError := .failed name s!"{stage.text} told to"
    { outcome := do
        result
        if failing.contains stage then throw told
      progress := progress
      body := probe name acts failing finishAfter
        (if stage = .execute then executions + 1 else executions)
      scene := { scene with credits := [] }
      outside := s.note (.hook name stage outcomes) }

/-- Whether a scripted command is over. -/
def isOver : Routine → Bool
  | minimal _ => false
  | probe _ _ _ finishAfter executions => finishAfter.any (· ≤ executions)

/-- Scripted commands. -/
def commandHost : CommandHost Routine Surroundings where
  hook := hook
  mayExecute progress _ scene := progress.allows scene.now
  isOver _ r _ := r.isOver
  credit c s := s.note (.credit c)

end Routine

/-! ### Actions -/

namespace Action

/-- Makes a change to the tracker. -/
def changeTracker (change : Tracker → Except TrackerError Tracker) (w : ScriptedWorld) :
    Outcome × ScriptedWorld :=
  match change w.tracker with
  | .ok tracker => (.done, { w with tracker := tracker })
  | .error e => (.failed (.tracker e), w)

/-- Makes a change to the registry. -/
def changeRegistry (change : Registry Routine → Except RegistryError (Registry Routine))
    (w : ScriptedWorld) : Outcome × ScriptedWorld :=
  match change w.registry with
  | .ok registry => (.done, { w with registry := registry })
  | .error e => (.failed (.registry e), w)

/-- Makes a change to the tracker that has a result. -/
def withTracker {α : Type} (outcome : α → Outcome)
    (change : Tracker → Except TrackerError (α × Tracker)) (w : ScriptedWorld) :
    Outcome × ScriptedWorld :=
  match change w.tracker with
  | .ok (a, tracker) => (outcome a, { w with tracker := tracker })
  | .error e => (.failed (.tracker e), w)

/-- Makes a change to the registry that has a result. -/
def withRegistry {α : Type} (outcome : α → Outcome)
    (change : Registry Routine → Except RegistryError (α × Registry Routine)) (w : ScriptedWorld) :
    Outcome × ScriptedWorld :=
  match change w.registry with
  | .ok (a, registry) => (outcome a, { w with registry := registry })
  | .error e => (.failed (.registry e), w)

/-- The outcome of something that the registry may refuse. -/
def ofRegistry {α : Type} (outcome : α → Outcome) (r : Except RegistryError α) : Outcome :=
  .ofExcept .registry outcome r

/-- The outcome of something that the tracker may refuse. -/
def ofTracker {α : Type} (outcome : α → Outcome) (r : Except TrackerError α) : Outcome :=
  .ofExcept .tracker outcome r

/-- Whether an entity has the given kind, owner and system, where these are given. -/
def wanted (kind user system : Option String) (e : Entity) : Bool :=
  kind.all (· == e.kind) && user.all (some · == e.user?) && system.all (· == e.system)

/-- Takes an action.  The time of the clock is `clock`. -/
def run (host : Host Routine Surroundings) (clock : Float) (a : Action) (w : ScriptedWorld) :
    Outcome × ScriptedWorld :=
  match a with
  | track p => changeTracker (·.track p) w
  | untrack id => withTracker (.ofOption .position) (·.untrack id) w
  | position id => (ofTracker (fun t => .position t.position) (w.tracker.require id), w)
  | status id => (ofTracker (fun t => .text t.status.text) (w.tracker.require id), w)
  | isTracked id => (.flag (w.tracker.contains id), w)
  | tracked =>
    let numbers (ids : List PositionId) : Outcome :=
      .several (ids.map fun id => .count id.number.toNat)
    let ids := ofTracker numbers w.tracker.ids
    (.several [.count w.tracker.size, .flag w.tracker.isEmpty, ids], w)
  | setRule id rule => changeTracker (·.setRule id rule) w
  | teleport id coords => changeTracker (·.teleport id coords) w
  | stop id =>
    let (r, w) := w.stop host id
    (ofTracker .tick r, w)
  | tick elapsed =>
    let (r, w) := w.tick host elapsed
    (ofTracker .tick r, w)
  | watchMovement id subscriber minDistance script =>
    let (listener, outside) := w.outside.enlist script
    changeTracker
      (·.watchMovement id
        { subscriber := subscriber, minDistance := minDistance, listener := listener })
      { w with outside := outside }
  | watchProximity id subscriber target distance trigger script =>
    let (listener, outside) := w.outside.enlist script
    changeTracker
      (·.watchProximity id
        { subscriber := subscriber, target := target, distance := distance, trigger := trigger,
          listener := listener })
      { w with outside := outside }
  | dropWatches id subscriber => withTracker .count (·.dropWatches id subscriber) w
  | coordinates id => (.ofOption .point (w.tracker.coordinatesOf id), w)
  | halt id => (.nothing, { w with tracker := w.tracker.halt id })
  | release id => (.nothing, { w with tracker := w.tracker.release id })
  | poisonTracker => (.nothing, { w with tracker := w.tracker.poison })
  | create e => changeRegistry (·.create e) w
  | entity id => (ofRegistry .entity (w.registry.get id), w)
  | find kind user system =>
    let found := w.registry.find (wanted kind user system)
    (ofRegistry (fun es => .texts (es.map (·.id.name))) found, w)
  | entities => (.several [.count w.registry.size, .flag w.registry.isEmpty], w)
  | remove id =>
    let (r, w) := w.remove host clock id
    (ofRegistry .entity r, w)
  | subscribe id kind subscriber script =>
    let (listener, outside) := w.outside.enlist script
    changeRegistry (·.subscribe id kind ⟨subscriber, listener⟩) { w with outside := outside }
  | unsubscribe id subscriber => withRegistry .count (·.unsubscribe id subscriber) w
  | act acts => withRegistry .several (·.access (EntityAct.runAll acts)) w
  | addCommand c => changeRegistry (·.addCommand c) w
  | commandIds => (ofRegistry (fun ids => .texts (ids.map (·.name))) w.registry.commandIds, w)
  | commandState id => (ofRegistry (fun c => .progress c.progress) (w.registry.command id), w)
  | updateCommand id progress => changeRegistry (·.updateCommand id progress) w
  | stopCommands id =>
    let (r, w) := w.stopCommands host clock id
    (ofRegistry (fun ids => .texts (ids.map (·.name))) r, w)
  | tickCommands now =>
    let (r, w) := w.tickCommands host (now.getD clock)
    (ofRegistry .commandTick r, w)
  | transfer src dst material quantity =>
    let (r, w) := w.transfer host src dst material quantity
    (ofRegistry (fun _ => .done) r, w)
  | poisonRegistry => (.nothing, { w with registry := w.registry.poison })
  | dump => (.dump (.of w), w)
  | describe => (.texts [w.tracker.describe, w.registry.describe], w)
  | refused e => (.failed (.motion e), w)

end Action

/-! ### Listeners -/

/-- A listener is told of something: the journal gets an entry, then the listener takes its actions
if this is its first event, and then it replies. -/
def hear (take : Action → ScriptedWorld → Outcome × ScriptedWorld) (id : ListenerId)
    (entry : String → Entry) (w : ScriptedWorld) : Reply × ScriptedWorld :=
  match w.outside.listeners[id.number]? with
  | none => (.ok (), w)
  | some l =>
    let w := { w with outside := (w.outside.countEvent id).note (entry l.script.name) }
    let act (w : ScriptedWorld) (a : String × Action) : ScriptedWorld :=
      let (outcome, w) := take a.2 w
      { w with outside := w.outside.note (.action l.script.name a.1 outcome) }
    (l.script.reply l.heard, if l.heard = 0 then l.script.next.foldl act w else w)

/-- The host of a scenario whose listeners act up to `fuel` deep. -/
def host (clock : Float) : Nat → Host Routine Surroundings
  | 0 =>
    { Routine.commandHost with
      hearPosition := fun id event => hear (fun _ w => (.nothing, w)) id (.ofPositionEvent · event)
      hearEntity := fun id event => hear (fun _ w => (.nothing, w)) id (.event · event) }
  | fuel + 1 =>
    { Routine.commandHost with
      hearPosition := fun id event =>
        hear (Action.run (host clock fuel) clock) id (.ofPositionEvent · event)
      hearEntity := fun id event =>
        hear (Action.run (host clock fuel) clock) id (.event · event) }

/-! ### Steps -/

/-- A scenario in progress. -/
structure Play where
  simulation : Simulation Routine Surroundings
  /-- The text written down last. -/
  saved : String := ""

/-- What a step shows: its outcome, the new entries of the journal, and perhaps the state
afterwards. -/
structure Shown where
  outcome : Outcome
  journal : List Entry
  state : Option Dump

namespace Play

/-- The simulation of a play that is over and starts again. -/
def restarted (p : Play) : Simulation Routine Surroundings :=
  { settings := p.simulation.settings, world := { outside := p.simulation.world.outside } }

/-- Replaces the simulation. -/
def withSimulation (p : Play) (s : Simulation Routine Surroundings) : Play :=
  { p with simulation := s }

/-- Takes a step. -/
def take (host : Host Routine Surroundings) (clock : Float) (step : Step) (p : Play) :
    Outcome × Play :=
  let s := p.simulation
  match step with
  | .world a =>
    let (outcome, w) := a.run host clock s.world
    (outcome, p.withSimulation { s with world := w })
  | .save =>
    match s.save with
    | .ok text => (.text text, { p with saved := text })
    | .error e => (.failed (.snapshot e), p)
  | .snapshot =>
    let counts (x : Snapshot) : Outcome :=
      .several [.count x.positions.length, .count x.entities.length, .count x.commands.length,
        .flag x.isEmpty]
    (.ofExcept .snapshot counts s.snapshot, p)
  | .restore text =>
    let (r, s) := s.load (text.getD p.saved)
    (.ofExcept .snapshot (fun _ => .done) r, p.withSimulation s)
  | .new => (.nothing, p.withSimulation p.restarted)
  | .start =>
    let (r, s) := s.start host 0.0 clock
    (.ofExcept .settings (fun _ => .done) r, p.withSimulation s)
  | .running => (.flag s.isRunning, p)
  | .shutdown =>
    let (report, s) := s.shutdown
    (.shutdown report, p.withSimulation s)
  | .settings =>
    (.several [.count s.settings.positions.toNat, .count s.settings.commands.toNat], p)
  | .describe => (.text s.describe, p)

/-- Takes the new entries out of the journal. -/
def takeJournal (p : Play) : List Entry × Play :=
  let w := p.simulation.world
  (w.outside.journal.reverse,
    p.withSimulation
      { p.simulation with world := { w with outside := { w.outside with journal := [] } } })

/-- Takes a step and shows it.  While the simulation is running the journal is left alone. -/
def perform (host : Host Routine Surroundings) (clock : Float) (trace : Bool) (step : Step)
    (p : Play) : Shown × Play :=
  let (outcome, p) := p.take host clock step
  let (journal, p) := if p.simulation.isRunning then ([], p) else p.takeJournal
  (⟨outcome, journal, if trace then some (.of p.simulation.world) else none⟩, p)

end Play

/-- Plays a scenario from an empty simulation on.  `clock` stands for the time of day. -/
def play (settings : Settings) (clock : Float) (trace : Bool) (steps : List Step) :
    Except SettingsError (List Shown) := do
  let simulation ← Simulation.new settings {}
  let host := host clock (steps.foldl (fun n s => n + s.scripts) 0)
  return (askAll (Play.perform host clock trace) steps { simulation := simulation }).1

end Orrery.Scenario
