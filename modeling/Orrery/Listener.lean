/-!
# Listeners

A listener is notified of events and answers each one.  Listeners live outside of the simulation,
which only holds their identifiers (`ListenerId`) together with the name of the subscriber that
registered them.
-/

namespace Orrery

/-- Identifies a listener that the surroundings of the simulation hold. -/
structure ListenerId where
  number : Nat
deriving DecidableEq, Repr

/-- How a listener fails. -/
inductive CallbackError where
  /-- The listener could not handle the event. -/
  | failed (reason : String)
  /-- The subscriber may no longer receive notifications of this kind. -/
  | revoked (subscriber : String)
deriving DecidableEq, Repr

/-- The error in words. -/
def CallbackError.message : CallbackError → String
  | failed reason => s!"callback failed: {reason}"
  | revoked subscriber => s!"subscriber '{subscriber}' revoked"

/-- The answer of a listener to one event. -/
abbrev Reply := Except CallbackError Unit

namespace Reply

/-- Whether the listener handled the event. -/
def isOk : Reply → Bool
  | .ok () => true
  | .error _ => false

/-- Whether the listener failed without naming a revoked subscriber. -/
def isFailure : Reply → Bool
  | .error (.failed _) => true
  | _ => false

/-- The subscriber whose notifications end, if the listener named one. -/
def revoked? : Reply → Option String
  | .error (.revoked subscriber) => some subscriber
  | _ => none

end Reply

/-- Puts the questions to `ask` one after the other and collects the answers in order.  Whoever
answers may change the state in between. -/
def askAll {σ ι ρ : Type} (ask : ι → σ → ρ × σ) : List ι → σ → List ρ × σ
  | [], s => ([], s)
  | i :: is, s =>
    let (r, s) := ask i s
    let (rs, s) := askAll ask is s
    (r :: rs, s)

end Orrery
