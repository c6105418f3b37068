import Orrery.Scenario.Act

/-!
# Scripts

A scenario is a list of steps.  Most of them are actions on the world.  Some actions register a
listener, whose behaviour a `Script` fixes in advance: what it replies, and what further actions it
takes when it is told of something for the first time.
-/

namespace Orrery.Scenario

mutual

/-- Something done to a world. -/
inductive Action where
  | track (p : Position)
  | untrack (id : PositionId)
  | position (id : PositionId)
  | status (id : PositionId)
  | isTracked (id : PositionId)
  /-- Counts and lists the tracked positions. -/
  | tracked
  | setRule (id : PositionId) (rule : Rule Float)
  | teleport (id : PositionId) (coords : Point)
  | stop (id : PositionId)
  | tick (elapsed : Float)
  | watchMovement (id : PositionId) (subscriber : String) (minDistance : Float) (script : Script)
  | watchProximity (id : PositionId) (subscriber : String) (target : PositionId) (distance : Float)
      (trigger : ProximityTrigger) (script : Script)
  | dropWatches (id : PositionId) (subscriber : String)
  | coordinates (id : PositionId)
  | halt (id : PositionId)
  /-- Ends tracking a position that nothing needs. -/
  | release (id : PositionId)
  /-- Lets an update of the tracked positions break off half-way. -/
  | poisonTracker
  | create (e : Entity)
  | entity (id : EntityId)
  /-- Finds entities by kind, owner and system. -/
  | find (kind user system : Option String)
  | entities
  | remove (id : EntityId)
  | subscribe (id : EntityId) (kind : EventKind) (subscriber : String) (script : Script)
  /-- Drops the listeners that a subscriber registered on an entity. -/
  | unsubscribe (id : EntityId) (subscriber : String)
  /-- Does several things to the entities as one unit. -/
  | act (acts : List EntityAct)
  | addCommand (c : Command Routine)
  /-- Lists the scheduled commands. -/
  | commandIds
  | commandState (id : CommandId)
  | updateCommand (id : CommandId) (progress : Progress)
  | stopCommands (id : EntityId)
  /-- Ticks the commands at the given time, or else at the time of the clock. -/
  | tickCommands (now : Option Float)
  | transfer (src dst : EntityId) (material : String) (quantity : UInt32)
  /-- Lets an update of the registry break off half-way. -/
  | poisonRegistry
  /-- Reads the whole state. -/
  | dump
  /-- Describes tracker and registry in words. -/
  | describe
  /-- An action whose subject could not be built. -/
  | refused (e : MotionError)

/-- The behaviour of a listener. -/
inductive Script where
  /-- The listener is called `name`, replies `replies` in turn, the last one again and again, and
  on first being told of something takes the actions in `next`, each under a label. -/
  | mk (name : String) (replies : List Reply) (next : List (String × Action))

end

namespace Script

/-- The name of the listener. -/
def name : Script → String
  | mk name _ _ => name

/-- What the listener replies, in turn. -/
def replies : Script → List Reply
  | mk _ replies _ => replies

/-- What the listener does on first being told of something. -/
def next : Script → List (String × Action)
  | mk _ _ next => next

/-- The reply to the event with the given number, from zero on.  The last reply is repeated, and
without any reply everything is fine. -/
def reply (s : Script) (n : Nat) : Reply :=
  (s.replies[n]?.or s.replies.getLast?).getD (.ok ())

end Script

mutual

/-- How many scripts there are in an action, scripts within scripts included. -/
def Action.scripts : Action → Nat
  | .watchMovement _ _ _ s => s.scripts
  | .watchProximity _ _ _ _ _ s => s.scripts
  | .subscribe _ _ _ s => s.scripts
  | _ => 0

/-- How many scripts there are in a script, itself included. -/
def Script.scripts : Script → Nat
  | .mk _ _ next => scriptsIn next + 1

/-- How many scripts there are in labelled actions. -/
def scriptsIn : List (String × Action) → Nat
  | [] => 0
  | (_, a) :: rest => a.scripts + scriptsIn rest

end

/-- A step of a scenario. -/
inductive Step where
  | world (a : Action)
  /-- Writes the world down. -/
  | save
  /-- Counts what a snapshot holds. -/
  | snapshot
  /-- Takes the given text over, or else the one written down last. -/
  | restore (text : Option String)
  /-- Starts all over with an empty simulation. -/
  | new
  | start
  /-- Tells whether the tickers run. -/
  | running
  | shutdown
  /-- Reads the intervals of the tickers. -/
  | settings
  /-- Describes the simulation in words. -/
  | describe

/-- How many scripts there are in a step. -/
def Step.scripts : Step → Nat
  | .world a => a.scripts
  | _ => 0

end Orrery.Scenario
