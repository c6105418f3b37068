import Orrery.Command

/-!
# The schedule

All scheduled commands in order.  Each is known by its name, and no two have the same one.
-/

namespace Orrery

/-- Scheduled commands in order. -/
@[ext]
structure Schedule (κ : Type) where
  /-- The commands, first scheduled first. -/
  commands : List (Command κ) := []
  /-- No two commands have the same name. -/
  distinct : (commands.map Command.id).Nodup := by exact List.nodup_nil

namespace Schedule

variable {κ : Type}

/-- The names of the commands, in order. -/
def ids (s : Schedule κ) : List CommandId := s.commands.map Command.id

/-- Number of commands. -/
def size (s : Schedule κ) : Nat := s.commands.length

/-- The command of a name. -/
def get? (s : Schedule κ) (id : CommandId) : Option (Command κ) := s.commands.find? (·.id = id)

/-- Whether there is a command of a name. -/
def contains (s : Schedule κ) (id : CommandId) : Bool := s.commands.any (·.id = id)

/-- Puts a command in the place of the one of the same name, if there is one. -/
def put (s : Schedule κ) (c : Command κ) : Schedule κ where
  commands := s.commands.map fun d => if d.id = c.id then c else d
  distinct := by
    have h : (Command.id ∘ fun d : Command κ => if d.id = c.id then c else d) = Command.id := by
      funext d
      by_cases hd : d.id = c.id <;> simp [hd]
    rw [List.map_map, h]
    exact s.distinct

/-- Takes the command at a place off. -/
def eraseAt (s : Schedule κ) (i : Nat) : Schedule κ where
  commands := s.commands.eraseIdx i
  distinct := s.distinct.sublist ((List.eraseIdx_sublist ..).map _)

/-- Schedules a command, unless its name is taken. -/
def add (s : Schedule κ) (c : Command κ) : Except RegistryError (Schedule κ) :=
  if h : s.contains c.id then .error (.duplicateId c.id.name)
  else
    .ok
      { commands := s.commands ++ [c]
        distinct := by
          simp only [contains, List.any_eq_true, decide_eq_true_eq, not_exists, not_and] at h
          rw [List.map_append, List.nodup_append]
          refine ⟨s.distinct, by simp, ?_⟩
          simp only [List.map_cons, List.map_nil, List.mem_map, List.mem_singleton]
          rintro _ ⟨d, hd, rfl⟩ _ rfl
          exact h d hd }

/-- Schedules commands one after the other, unless a name is taken. -/
def addAll (s : Schedule κ) : List (Command κ) → Except RegistryError (Schedule κ)
  | [] => .ok s
  | c :: rest => do addAll (← s.add c) rest

end Schedule

end Orrery
