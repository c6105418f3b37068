import Orrery.Command.Attack
import Orrery.Command.Mining

/-!
# Commands

A command is a long-running action: an attack, a mining run, or a custom one that the host of the
simulation supplies.  The schedule drives it through hooks (`Stage`), and `Command.run` carries one
hook out.

Custom commands are abstract here.  The name of such a command and the entities that it acts on are
fixed once and for all; its body, its progress and everything in the scene are up to its hooks,
which may also change the state `ε` outside of the simulation.
-/

namespace Orrery

/-- The hooks of a command. -/
inductive Stage where
  /-- Once, before everything else. -/
  | setup
  /-- In every tick, before the execution. -/
  | before
  /-- The command's main business. -/
  | execute
  /-- In every tick, after the execution. -/
  | after
  /-- Once, when the command is over. -/
  | teardown
  /-- Once, when the command is stopped from outside. -/
  | stop
deriving DecidableEq, Repr

/-- The name of a hook. -/
def Stage.text : Stage → String
  | setup => "setup"
  | before => "before"
  | execute => "execute"
  | after => "after"
  | teardown => "teardown"
  | stop => "stop"

/-- What a command does. -/
inductive Task (κ : Type) where
  | attack (a : Attack)
  | mining (m : Mining)
  /-- Something that the host supplies, under a name of its own and acting on certain entities. -/
  | custom (name : CommandId) (concerns : EntityId → Bool) (body : κ)

/-- A command as it is scheduled. -/
structure Command (κ : Type) where
  /-- What the schedule remembers of it. -/
  progress : Progress := {}
  task : Task κ

/-- What happens while commands run. -/
inductive Deed (κ : Type) where
  | turn (c : Command κ) (found : Scene)
  /-- A hook of a command was run: the command as it was before, what the hook came to, the scene
  that it found and the scene that it left. -/
  | hook (c : Command κ) (stage : Stage) (outcome : Except CommandError Unit) (found left : Scene)

/-- What a hook of a custom command leads to. -/
structure HookRun (κ ε : Type) where
  /-- Whether the hook succeeded. -/
  outcome : Except CommandError Unit
  progress : Progress
  body : κ
  scene : Scene
  /-- The state outside of the simulation afterwards. -/
  outside : ε

/-- What the host of a simulation contributes to commands: the behaviour of custom ones, and an
account of the users' credits. -/
structure CommandHost (κ ε : Type) where
  hook : Stage → Progress → κ → Scene → ε → HookRun κ ε
  /-- Whether a custom command is to be executed in this tick. -/
  mayExecute : Progress → κ → Scene → Bool
  isOver : Progress → κ → Scene → Bool
  credit : Credit → ε → ε

/-- Everything that a command can reach while it runs, and what commands have done and asked for so
far. -/
structure Setting (κ ε : Type) where
  /-- The time of the tick, in seconds. -/
  now : Float
  entities : Entities
  tracker : Tracker
  outside : ε
  /-- Announcements asked for, in order. -/
  announcements : List Announcement := []
  /-- Entities on which commands are still to be stopped, in order. -/
  stopRequests : List EntityId := []
  /-- What has happened, in order. -/
  chronicle : List (Deed κ) := []

namespace Setting

variable {κ ε : Type}

/-- The scene of the next hook. -/
def scene (s : Setting κ ε) : Scene := ⟨s.now, s.entities, s.tracker, [], [], [], []⟩

/-- Notes that something happened. -/
def note (s : Setting κ ε) (d : Deed κ) : Setting κ ε :=
  { s with chronicle := s.chronicle ++ [d] }

/-- Takes over what a hook left: its changes are made, its requests are queued, and its credits are
noted. -/
def resume (s : Setting κ ε) (credit : Credit → ε → ε) (left : Scene) (outside : ε) :
    Setting κ ε :=
  { s with
    entities := left.entities
    tracker := left.tracker
    outside := left.credits.foldl (fun o c => credit c o) outside
    announcements := s.announcements ++ left.announcements
    stopRequests := s.stopRequests ++ left.stopRequests }

end Setting

/-- The hooks of an attack. -/
def Attack.hook (a : Attack) : Stage → Act Unit
  | .setup => a.setup
  | .before => a.before
  | .execute => a.execute
  | .after => pure ()
  | .teardown => a.teardown
  | .stop => a.stop

/-- The hooks of a mining run. -/
def Mining.hook (m : Mining) : Stage → Act Unit
  | .setup => m.setup
  | .before => pure ()
  | .execute => m.execute
  | .after => pure ()
  | .teardown => m.teardown
  | .stop => m.stop

namespace Command

variable {κ ε : Type}

/-- A new attack. -/
def attack (a : Attack) (progress : Progress := {}) : Command κ := ⟨progress, .attack a⟩

/-- A new mining run. -/
def mining (m : Mining) (progress : Progress := {}) : Command κ := ⟨progress, .mining m⟩

/-- Identity. -/
def id (c : Command κ) : CommandId :=
  match c.task with
  | .attack a => a.commandId
  | .mining m => m.commandId
  | .custom name _ _ => name

/-- Whether the command acts on an entity, so that it has to stop if the entity goes. -/
def concerns (c : Command κ) (id : EntityId) : Bool :=
  match c.task with
  | .attack a => a.concerns id
  | .mining m => m.concerns id
  | .custom _ concerns _ => concerns id

/-- Whether the command is to be executed in this tick. -/
def mayExecute (host : CommandHost κ ε) (c : Command κ) (s : Setting κ ε) : Bool :=
  match c.task with
  | .attack a => c.progress.allows s.now && a.isPossible s.scene
  | .mining m => c.progress.allows s.now && (m.obstacle? s.scene).isNone
  | .custom _ _ body => host.mayExecute c.progress body s.scene

/-- Whether the command is over. -/
def isOver (host : CommandHost κ ε) (c : Command κ) (s : Setting κ ε) : Bool :=
  match c.task with
  | .attack a => a.isOver s.scene
  | .mining m => (m.obstacle? s.scene).isSome
  | .custom _ _ body => host.isOver c.progress body s.scene

/-- What one hook of the command leads to, in a given scene. -/
def hook (host : CommandHost κ ε) (stage : Stage) (c : Command κ) (scene : Scene) (outside : ε) :
    Except CommandError Unit × Command κ × Scene × ε :=
  match c.task with
  | .attack a =>
    let (outcome, left) := (a.hook stage).run.run scene
    (outcome, c, left, outside)
  | .mining m =>
    let (outcome, left) := (m.hook stage).run.run scene
    (outcome, c, left, outside)
  | .custom name concerns body =>
    let r := host.hook stage c.progress body scene outside
    (r.outcome, ⟨r.progress, .custom name concerns r.body⟩, r.scene, r.outside)

/-- Runs one hook of the command. -/
def run (host : CommandHost κ ε) (stage : Stage) (c : Command κ) (s : Setting κ ε) :
    Except CommandError Unit × Command κ × Setting κ ε :=
  let (outcome, after, left, outside) := c.hook host stage s.scene s.outside
  (outcome, after,
    (s.resume host.credit left outside).note (.hook c stage outcome s.scene left))

end Command

end Orrery
