/-!
# Tickers

A ticker calls its action at fixed intervals, in the background, until it is shut down.  Here it is
described by what its calls came to, and time does not appear.  A call that fails halts the ticker
for good; a call that crashes takes the ticker down with it.  Neither of them counts as a tick.
-/

namespace Orrery

/-- What one call of a ticker's action came to. -/
inductive CallOutcome where
  | completed
  | failed
  | crashed
deriving DecidableEq, Repr

/-- What a ticker tells of itself when it is shut down. -/
structure TickerReport where
  ticks : Nat := 0
  /-- Whether the ticker had come to an orderly end. -/
  joined : Bool := false
  /-- Whether a failing call halted it. -/
  halted : Bool := false
deriving DecidableEq, Repr

/-- A background loop. -/
structure Ticker where
  name : String
  ticks : Nat := 0
  /-- Whether a failing call halted it. -/
  halted : Bool := false
  crashed : Bool := false
  /-- Whether it was shut down. -/
  closed : Bool := false
deriving DecidableEq, Repr

namespace Ticker

/-- Whether there will be further calls. -/
def isAlive (t : Ticker) : Bool := !t.halted && !t.crashed && !t.closed

/-- Makes one call, if the ticker is alive. -/
def call (t : Ticker) (outcome : CallOutcome) : Ticker :=
  if !t.isAlive then t
  else
    match outcome with
    | .completed => { t with ticks := t.ticks + 1 }
    | .failed => { t with halted := true }
    | .crashed => { t with crashed := true }

/-- Shuts the ticker down.  The first shutdown notices a crash, a further one has nothing left to
wait for. -/
def shutdown (t : Ticker) : TickerReport × Ticker :=
  (⟨t.ticks, t.closed || !t.crashed, t.halted⟩, { t with closed := true })

/-- How many calls a ticker makes with the given outcomes, and what becomes of it. -/
def run (t : Ticker) (outcomes : List CallOutcome) : Nat × Ticker :=
  outcomes.foldl (fun (calls, t) o => (calls + t.isAlive.toNat, t.call o)) (0, t)

end Ticker

end Orrery
