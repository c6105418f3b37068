import Orrery.Entity.Hold
import Orrery.Ident

/-!
# Errors of the registry and of commands
-/

namespace Orrery

/-- Why an operation on entities or commands was refused. -/
inductive RegistryError where
  /-- There is an entity or a command of this name already. -/
  | duplicateId (id : String)
  /-- There is nothing of this name. -/
  | notFound (id : String)
  /-- The entity is not of the kind that the operation needs. -/
  | wrongKind (id : EntityId) (expected : String)
  /-- Material cannot be handed over. -/
  | transferRejected (reason : String)
  /-- An earlier update broke off half-way, so the registry cannot be trusted. -/
  | poisoned
deriving DecidableEq, Repr

namespace RegistryError

/-- The refusal of a hold. -/
def ofHold (f : HoldFault) : RegistryError := transferRejected f.text

/-- The error in words. -/
def message : RegistryError → String
  | duplicateId id => s!"duplicate id '{id}'"
  | notFound id => s!"'{id}' not found"
  | wrongKind id expected => s!"'{id}' is not a {expected}"
  | transferRejected reason => s!"transfer rejected: {reason}"
  | poisoned => "registry state poisoned"

end RegistryError

/-- Why a hook of a command failed. -/
inductive CommandError where
  /-- The hook failed by itself. -/
  | failed (command : CommandId) (reason : String)
  /-- An operation on entities was refused. -/
  | registry (e : RegistryError)
deriving DecidableEq, Repr

namespace CommandError

/-- The error in words. -/
def message : CommandError → String
  | failed command reason => s!"command '{command}' failed: {reason}"
  | registry e => s!"registry: {e.message}"

/-- The words of the error behind this one, if there is one. -/
def cause? : CommandError → Option String
  | registry e => some e.message
  | _ => none

end CommandError

end Orrery
