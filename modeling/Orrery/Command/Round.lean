import Orrery.Command.Sweep

/-!
# Rounds

In a round all scheduled commands are ticked in order.  Requests to stop the commands that act on an
entity are met before the next command is ticked.  A command that is over leaves the schedule at the
end of its turn, and the next one takes its place.
-/

namespace Orrery

/-- What one round did. -/
structure ScheduleReport where
  ran : Nat := 0
  /-- Commands whose execution succeeded. -/
  executed : Nat := 0
  failed : Nat := 0
  /-- Commands that are over. -/
  finished : List CommandId := []
  /-- Commands that were stopped from outside. -/
  stopped : List CommandId := []
deriving DecidableEq

/-- A round in progress. -/
structure Round (κ ε : Type) where
  report : ScheduleReport := {}
  /-- The place of the command whose turn is next. -/
  cursor : Nat := 0
  session : Session κ ε

namespace Round

variable {κ ε : Type}

/-- The commands on the schedule. -/
def commands (r : Round κ ε) : List (Command κ) := r.session.schedule.commands

/-- The session right after the tick of the command at the cursor, with the requests that it has
raised still to be met. -/
def afterTick (r : Round κ ε) (outcome : TickOutcome) (c : Command κ) (s : Setting κ ε) :
    Sweep κ ε :=
  if outcome.removed then
    { cursor := r.cursor, session := ⟨r.session.schedule.eraseAt r.cursor, s⟩ }
  else { cursor := r.cursor + 1, session := ⟨r.session.schedule.put c, s⟩ }

/-- The turn of command `c`, which is at the cursor. -/
def turn (host : CommandHost κ ε) (c : Command κ) (r : Round κ ε) : Round κ ε :=
  let (outcome, after, s) := c.tick host r.session.setting
  let w := Sweep.meetRequests host (r.afterTick outcome after s)
  { report :=
      { ran := r.report.ran + 1
        executed := r.report.executed + outcome.executed.toNat
        failed := r.report.failed + outcome.failed.toNat
        finished := r.report.finished ++ (if outcome.removed then [c.id] else [])
        stopped := r.report.stopped ++ w.stopped }
    cursor := w.cursor
    session := w.session }

/-- After the turn of a command there are fewer commands whose turn is still to come. -/
theorem remaining_turn_lt (host : CommandHost κ ε) (r : Round κ ε)
    (h : r.cursor < r.commands.length) (c : Command κ) :
    (r.turn host c).commands.length - (r.turn host c).cursor < r.commands.length - r.cursor := by
  have hafter : ∀ outcome c' s, (r.afterTick outcome c' s).cursor ≤
      (r.afterTick outcome c' s).commands.length ∧
      (r.afterTick outcome c' s).remaining < r.commands.length - r.cursor := by
    intro outcome c' s
    unfold afterTick Sweep.remaining
    split
    · simp only [Sweep.commands, Schedule.eraseAt, List.length_eraseIdx]
      simp only [commands] at h ⊢
      rw [if_pos h]
      omega
    · simp only [Sweep.commands, Schedule.put, List.length_map]
      simp only [commands] at h ⊢
      omega
  obtain ⟨h1, h2⟩ := hafter (c.tick host r.session.setting).1 (c.tick host r.session.setting).2.1
    (c.tick host r.session.setting).2.2
  exact Nat.lt_of_le_of_lt (Sweep.remaining_meetRequests_le host _ h1).2 h2

/-- The turns of all commands from the cursor on. -/
def run (host : CommandHost κ ε) (r : Round κ ε) : Round κ ε :=
  if h : r.cursor < r.commands.length then run host (r.turn host r.commands[r.cursor])
  else r
termination_by r.commands.length - r.cursor
decreasing_by exact remaining_turn_lt host r h _

end Round

/-- Ticks all commands of a session in order. -/
def Session.tick {κ ε : Type} (host : CommandHost κ ε) (x : Session κ ε) :
    ScheduleReport × Session κ ε :=
  let r := Round.run host { session := x }
  (r.report, r.session)

end Orrery
