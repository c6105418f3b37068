import Orrery.Proofs.Operation
import Orrery.Proofs.Schedule
import Orrery.Proofs.Turn

/-!
# What ships are busy with

Attacks and mining runs have much in common: a ship, the `actor`, drives the command, and while that
is set up, the ship is marked with the `target` of it.  An `Activity` tells the two apart, and
`Command.tick_drives` and `Command.halt_drives` say of both at once what a tick and a stop do to the
marks.
-/

namespace Orrery

variable {κ ε : Type}

/-- What a ship can be busy with. -/
inductive Activity where
  /-- Attacking another ship. -/
  | attacking
  /-- Mining a deposit. -/
  | mining
deriving DecidableEq

namespace Activity

/-- The sort of command. -/
def sort : Activity → String
  | attacking => "attack"
  | mining => "mine"

/-- The mark of a ship. -/
def target? : Activity → Outline → Option EntityId
  | attacking => Outline.attacking?
  | mining => Outline.mining?

/-- Another mark. -/
def turn : Activity → Option EntityId → Outline → Outline
  | attacking => Outline.attack
  | mining => Outline.mine

/-- Whether something can be the target, as long as nothing else stands in the way. -/
def accepts : Activity → Outline → Bool
  | attacking, o => o.isLive
  | mining, o => o == .deposit

/-- Names of commands tell both the activity and the actor. -/
theorem forEntity_injective {k k' : Activity} {e f : EntityId}
    (h : CommandId.forEntity k.sort e = CommandId.forEntity k'.sort f) : k = k' ∧ e = f := by
  cases k <;> cases k'
  · exact ⟨rfl, CommandId.forEntity_injective h⟩
  · exact absurd h (CommandId.forEntity_attack_ne_mine e f)
  · exact absurd h.symm (CommandId.forEntity_attack_ne_mine f e)
  · exact ⟨rfl, CommandId.forEntity_injective h⟩

theorem target?_turn_of_isShip {k : Activity} {o : Outline} (h : o.isShip = true)
    (target : Option EntityId) : k.target? (k.turn target o) = target := by
  cases k <;> cases o <;> first | rfl | cases h

theorem target?_turn_none (k : Activity) (o : Outline) : k.target? (k.turn none o) = none := by
  cases k <;> cases o <;> rfl

theorem target?_turn_of_ne {k k' : Activity} (h : k' ≠ k) (target : Option EntityId) (o : Outline) :
    k'.target? (k.turn target o) = k'.target? o := by
  cases k <;> cases k' <;> cases o <;> first | rfl | exact absurd rfl h

theorem target?_destroy (k : Activity) (id : EntityId) (o : Outline) :
    k.target? (o.destroy id) = k.target? o := by
  cases k <;> cases o <;> rfl

theorem isShip_turn (k : Activity) (target : Option EntityId) (o : Outline) :
    (k.turn target o).isShip = o.isShip := by
  cases k <;> cases o <;> rfl

theorem isLive_turn (k : Activity) (target : Option EntityId) (o : Outline) :
    (k.turn target o).isLive = o.isLive := by
  cases k <;> cases o <;> rfl

theorem accepts_turn (k k' : Activity) (target : Option EntityId) (o : Outline) :
    k'.accepts (k.turn target o) = k'.accepts o := by
  cases k <;> cases k' <;> cases o <;> rfl

/-- The mark of a ship among others. -/
def mark? (k : Activity) (o : EntityId → Option Outline) (id : EntityId) : Option EntityId :=
  (o id).bind k.target?

theorem mark?_reviseIf_of_ne {k k' : Activity} {actor id : EntityId} (h : ¬ (k' = k ∧ id = actor))
    (cond : Bool) (target : Option EntityId) (o : EntityId → Option Outline) :
    k'.mark? (reviseIf cond actor (k.turn target) o) id = k'.mark? o id := by
  unfold mark? reviseIf
  split
  · next hid =>
    have hk : k' ≠ k := fun hk => h ⟨hk, hid.2⟩
    cases o id with
    | none => rfl
    | some x => exact target?_turn_of_ne hk target x
  · rfl

theorem mark?_reviseIf_none (k : Activity) (actor : EntityId) (o : EntityId → Option Outline) :
    k.mark? (reviseIf true actor (k.turn none) o) actor = none := by
  unfold mark?
  rw [reviseIf_true_self]
  cases o actor with
  | none => rfl
  | some x => exact target?_turn_none k x

theorem mark?_reviseIf_of_isShip {k : Activity} {actor : EntityId} {o : EntityId → Option Outline}
    (h : (o actor).any Outline.isShip = true) (target : Option EntityId) :
    k.mark? (reviseIf true actor (k.turn target) o) actor = target := by
  obtain ⟨x, hx, hship⟩ := (Option.any_eq_true ..).mp h
  unfold mark?
  rw [reviseIf_true_self, hx]
  exact target?_turn_of_isShip hship target

theorem mark?_destroy (k : Activity) (cond : Bool) (victim id : EntityId)
    (o : EntityId → Option Outline) (j : EntityId) :
    k.mark? (reviseIf cond victim (·.destroy id) o) j = k.mark? o j := by
  unfold mark? reviseIf
  split
  · cases o j with
    | none => rfl
    | some x => exact target?_destroy k id x
  · rfl

end Activity

/-! ### Commands -/

/-- What a task has its actor do, to which target. -/
def Task.drives? : Task κ → Option (Activity × EntityId × EntityId)
  | attack a => some (.attacking, a.attacker, a.defender)
  | mining m => some (.mining, m.miner, m.deposit)
  | custom .. => none

/-- Whether the command is an attack or a mining run. -/
def Command.BuiltIn (c : Command κ) : Prop :=
  ∃ k actor target, c.task.drives? = some (k, actor, target)

/-- All commands are attacks or mining runs. -/
def Schedule.BuiltIn (s : Schedule κ) : Prop := ∀ c ∈ s.commands, c.BuiltIn

theorem Schedule.BuiltIn.add {s s' : Schedule κ} {c : Command κ} (hs : s.BuiltIn) (hc : c.BuiltIn)
    (h : s.add c = .ok s') : s'.BuiltIn := by
  intro d hd
  rcases Schedule.mem_of_add h hd with hd | rfl
  · exact hs d hd
  · exact hc

theorem Schedule.BuiltIn.put {s : Schedule κ} (hs : s.BuiltIn) {c : Command κ} (hc : c.BuiltIn) :
    (s.put c).BuiltIn := by
  intro d hd
  obtain ⟨e, he, rfl⟩ := List.mem_map.mp hd
  split
  · exact hc
  · exact hs e he

namespace Command

variable {c : Command κ} {k : Activity} {actor target : EntityId}

theorem id_of_drives (h : c.task.drives? = some (k, actor, target)) :
    c.id = .forEntity k.sort actor := by
  obtain ⟨progress, task⟩ := c
  cases task with
  | custom => cases h
  | attack | mining =>
    cases h
    rfl

theorem concerns_of_drives (h : c.task.drives? = some (k, actor, target)) (id : EntityId) :
    c.concerns id = (id == actor || id == target) := by
  obtain ⟨progress, task⟩ := c
  cases task with
  | custom => cases h
  | attack | mining =>
    cases h
    rfl

/-- Whether the actor is alive and the target is there, and alive if it is attacked. -/
def IsSound (c : Command κ) (o : EntityId → Option Outline) : Prop :=
  ∀ k actor target, c.task.drives? = some (k, actor, target) →
    (o actor).any Outline.isLive = true ∧ (o target).any k.accepts = true

/-- A tick of a command that goes on leaves it sound.  It may mark the actor. -/
structure GoesOn (c : Command κ) (k : Activity) (actor target : EntityId) (s : Setting κ ε)
    (c' : Command κ) (s' : Setting κ ε) : Prop where
  /-- It is set up if it was before. -/
  isSetUp : c.progress.isSetUp = true → c'.progress.isSetUp = true
  /-- If it was set up just now the actor has been marked. -/
  outlines : s'.entities.outline? = reviseIf (!c.progress.isSetUp && c'.progress.isSetUp) actor
    (k.turn target) s.entities.outline?
  /-- The actor is alive. -/
  actor : (s.entities.outline? actor).any Outline.isLive = true
  /-- The target is there. -/
  target : (s.entities.outline? target).any k.accepts = true

/-- A tick of a command that is over takes the mark off the actor.  If the target was destroyed, all
commands that act on it are to be stopped. -/
structure Ends (k : Activity) (actor target : EntityId) (s s' : Setting κ ε) (killed : Bool) :
    Prop where
  /-- What is left of actor and target. -/
  outlines : ∃ engaged, s'.entities.outline? = reviseIf true actor (k.turn none)
    (reviseIf killed target (·.destroy actor)
      (reviseIf engaged actor (k.turn target) s.entities.outline?))
  /-- The request to stop what acts on the target. -/
  stopRequests : killed = true → target ∈ s'.stopRequests

theorem BuiltIn.exists_acts (h : c.BuiltIn) : ∃ acts, c.task.acts? = some acts := by
  obtain ⟨k, actor, target, hdrives⟩ := h
  cases htask : c.task with
  | attack a => exact ⟨a.hook, rfl⟩
  | mining m => exact ⟨m.hook, rfl⟩
  | custom =>
    rw [htask] at hdrives
    cases hdrives

variable (host : CommandHost κ ε)

theorem tick_drives (h : c.task.drives? = some (k, actor, target)) (s : Setting κ ε) :
    (c.tick host s).2.1.task = c.task ∧
    (((c.tick host s).1.removed = false ∧
        GoesOn c k actor target s (c.tick host s).2.1 (c.tick host s).2.2) ∨
      ((c.tick host s).1.removed = true ∧
        ∃ killed, Ends k actor target s (c.tick host s).2.2 killed)) := by
  cases htask : c.task with
  | custom =>
    rw [htask] at h
    cases h
  | attack a =>
    rw [htask] at h
    cases h
    obtain ⟨hsame, ⟨hremoved, hon⟩ | ⟨hremoved, killed, hend⟩⟩ := tick_attack host htask s
    · exact ⟨hsame, .inl ⟨hremoved, hon.isSetUp, hon.outlines, hon.attacker, hon.defender⟩⟩
    · refine ⟨hsame, .inr ⟨hremoved, killed, hend.outlines, ?_⟩⟩
      obtain ⟨hooks, last, outcome, found, left, hafter, -, -, hasks⟩ := hend.deeds
      -- a ship that has just been destroyed is a wreck, so the attack is won
      rintro rfl
      have hleft : a.defender ∈ left.stopRequests := by
        rw [hasks.stopRequests]
        simp
      rw [hafter.stopRequests]
      refine List.mem_append_right _ (List.mem_flatMap.mpr
        ⟨.hook last .teardown outcome found left, ?_, hleft⟩)
      exact List.mem_append_right _ (List.mem_singleton_self _)
  | mining m =>
    rw [htask] at h
    cases h
    obtain ⟨hsame, ⟨hremoved, hon⟩ | ⟨hremoved, hend⟩⟩ := tick_mining host htask s
    · refine ⟨hsame, .inl ⟨hremoved, hon.isSetUp, hon.outlines, hon.miner, ?_⟩⟩
      rw [hon.deposit]
      rfl
    · obtain ⟨engaged, hout⟩ := hend.outlines
      refine ⟨hsame, .inr ⟨hremoved, false, ⟨engaged, ?_⟩, by simp⟩⟩
      rw [reviseIf_false]
      exact hout

/-- A stop takes the mark off the actor, if it is that of the command. -/
theorem halt_drives (h : c.task.drives? = some (k, actor, target)) (s : Setting κ ε) :
    (c.halt host s).entities.outline? =
      reviseIf (k.mark? s.entities.outline? actor == some target) actor (k.turn none)
        s.entities.outline? := by
  have hany : ∀ (o : Option Outline) (f : Outline → Option EntityId),
      o.any (f · == some target) = (o.bind f == some target) := by
    intro o f
    cases o <;> rfl
  cases htask : c.task with
  | custom =>
    rw [htask] at h
    cases h
  | attack a =>
    rw [htask] at h
    cases h
    rw [(halt_attack host htask s).1, Attack.isEngaged, hany]
    rfl
  | mining m =>
    rw [htask] at h
    cases h
    rw [(halt_mining host htask s).1, Mining.isEngaged, hany]
    rfl

/-- A hook changes nothing about the command itself. -/
theorem BuiltIn.run_eq_self (hc : c.BuiltIn) (stage : Stage) (s : Setting κ ε) :
    (c.run host stage s).2.1 = c := by
  obtain ⟨acts, hacts⟩ := hc.exists_acts
  exact (run_of_acts host hacts stage s).1

theorem BuiltIn.tick (hc : c.BuiltIn) (s : Setting κ ε) : (c.tick host s).2.1.BuiltIn := by
  obtain ⟨k, actor, target, hdrives⟩ := hc
  exact ⟨k, actor, target, by rw [(tick_drives host hdrives s).1, hdrives]⟩

end Command

/-! ### Runs -/

namespace Session

variable (host : CommandHost κ ε) {x : Session κ ε}

theorem builtIn_tick (hx : x.schedule.BuiltIn) : (x.tick host).2.schedule.BuiltIn :=
  (tick_keeps host (P := fun _ => True) (fun _ s hc _ => ⟨hc.tick host s, trivial⟩)
    (fun _ _ _ _ => trivial) (fun _ _ _ => trivial) hx trivial).1

theorem builtIn_meetRequests (hx : x.schedule.BuiltIn) :
    (x.meetRequests host).2.schedule.BuiltIn :=
  (Sweep.meetRequests_keeps (Q := Command.BuiltIn) (P := fun _ => True) (w := { session := x })
    (fun _ _ _ _ => trivial) (fun _ _ _ => trivial) hx trivial).1

end Session

theorem Registry.updateCommand_eq_ok {r r' : Registry κ} {id : CommandId} {progress : Progress}
    (h : r.updateCommand id progress = .ok r') : ∃ c ∈ r.schedule.commands,
      r' = { r with schedule := r.schedule.put { c with progress := progress } } := by
  cases hcommand : r.command id with
  | error e =>
    rw [updateCommand, hcommand] at h
    cases h
  | ok c =>
    rw [updateCommand, hcommand] at h
    cases h
    refine ⟨c, ?_, rfl⟩
    simp only [command, bind, Except.bind] at hcommand
    split at hcommand
    · cases hcommand
    · split at hcommand
      · cases hcommand
      · next hget =>
        cases hcommand
        exact (Schedule.get?_eq_some_iff.mp hget).1

/-- Only attacks and mining runs are scheduled. -/
def Operation.IsBuiltIn : Operation κ ε → Prop
  | schedule c => c.BuiltIn
  | _ => True

theorem Operation.builtIn_commit (host : CommandHost κ ε) {w : World κ ε} {op : Operation κ ε}
    (hop : op.IsBuiltIn) (hw : w.registry.schedule.BuiltIn) :
    (op.commit host w).2.registry.schedule.BuiltIn := by
  have heffect := op.effect_commit host w
  generalize op.commit host w = r at heffect
  cases heffect with
  | refused | create | transfer | listen | drift => exact hw
  | schedule hadd => exact hw.add hop hadd
  | tick now => exact Session.builtIn_tick host (x := w.session now) hw
  | stopCommands now id | remove now id =>
    exact Session.builtIn_meetRequests host (x := w.stopping now id) hw

end Orrery
