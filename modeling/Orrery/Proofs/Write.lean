import Mathlib.Logic.Relation
import Orrery.Proofs.Supply
import Orrery.Proofs.Activity

/-!
# What hooks write

Apart from the hit of an attack, the hooks of attacks and mining runs change entities in six ways
(`Entities.Write`): they mark ships, move material, and leave loot where a ship is.  All of it is
done within the `footprint` of the command.  So whatever these six respect, the hooks respect.
Nothing outside of the footprint changes (`Entities.Written.get?_of_not`).  Every entity keeps its
`core`, which is all but marks, material and vitals (`Entities.Retains`); and the vitals of ships
stay the same (`Entities.Written.vitals?`).  A hit changes nothing but the vitals of one ship.
-/

namespace Orrery

/-! ### Writes -/

/-- One change that hooks make to an entity whose name satisfies `p`. -/
inductive Entities.Write (p : EntityId → Prop) (es : Entities) : Entities → Prop where
  /-- A ship attacks another one, or none. -/
  | attack {id : EntityId} (h : p id) (target : Option EntityId) :
    Write p es (es.adjustShip id ({ · with attacking := target }))
  /-- A ship mines another deposit, or none. -/
  | mine {id : EntityId} (h : p id) (target : Option EntityId) :
    Write p es (es.adjustShip id ({ · with mining := target }))
  /-- A ship carries something else. -/
  | stow {id : EntityId} (h : p id) (hold : Hold) :
    Write p es (es.adjustShip id ({ · with hold := hold }))
  /-- A deposit has less. -/
  | draw {id : EntityId} (h : p id) (quantity : UInt32) :
    Write p es (es.adjustDeposit id fun d => { d with quantity := d.quantity - quantity })
  /-- More is added to loot. -/
  | fill {id : EntityId} (h : p id) {loot : Loot} (hloot : es.get? id = some (.loot loot))
    (hold : Hold) : Write p es (es.put id (.loot { loot with hold := hold }))
  /-- Loot is left behind where a ship is. -/
  | leave {loot : Loot} (h : p loot.id) {wreck : Ship} {j : EntityId}
    (hwreck : es.get? j = some (.ship wreck)) (hposition : loot.position = wreck.position)
    {es' : Entities} (hadd : es.add (.loot loot) = .ok es') : Write p es es'

/-- Some writes, one after the other. -/
abbrev Entities.Written (p : EntityId → Prop) : Entities → Entities → Prop :=
  Relation.ReflTransGen (Entities.Write p)

/-! ### What writes leave alone -/

/-- What is left of an entity without marks, material and vitals. -/
def Entity.core : Entity → Entity
  | ship s =>
    ship { s with
      hp := 0, shield := 0, destroyedBy := none, hold := { capacity := 0 }, attacking := none,
      mining := none }
  | station s => station { s with hold := { capacity := 0 } }
  | loot l => loot { l with hold := { capacity := 0 } }
  | deposit d => deposit { d with quantity := 0 }

namespace Entity

variable {e e' : Entity}

theorem position_of_core (h : e.core = e'.core) : e.position = e'.position := by
  have hcore : ∀ e : Entity, e.core.position = e.position := fun e => by cases e <;> rfl
  rw [← hcore e, h, hcore]

theorem events?_of_core (h : e.core = e'.core) : e.events? = e'.events? := by
  have hcore : ∀ e : Entity, e.core.events? = e.events? := fun e => by cases e <;> rfl
  rw [← hcore e, h, hcore]

theorem exists_ship_of_core {s' : Ship} (h : e.core = (ship s').core) : ∃ s, e = ship s := by
  cases e with
  | ship s => exact ⟨s, rfl⟩
  | station | loot | deposit => cases h

end Entity

/-- Every entity that is there stays and keeps its core; what is new is loot where a ship is. -/
structure Entities.Retains (es es' : Entities) : Prop where
  kept : ∀ id e, es.get? id = some e → (es'.get? id).map Entity.core = some e.core
  new : ∀ id e', es.get? id = none → es'.get? id = some e' →
    ∃ loot j wreck, e' = .loot loot ∧ es.get? j = some (.ship wreck) ∧
      loot.position = wreck.position

namespace Entities.Retains

variable {es es' es'' : Entities}

theorem refl (es : Entities) : es.Retains es where
  kept id e he := by rw [he]; rfl
  new id e' hnone he' := by
    rw [hnone] at he'
    cases he'

theorem trans (h : es.Retains es') (h' : es'.Retains es'') : es.Retains es'' := by
  constructor
  · intro id e he
    obtain ⟨e', he', hcore⟩ := Option.map_eq_some_iff.mp (h.kept id e he)
    rw [h'.kept id e' he', hcore]
  · intro id e'' hnone he''
    cases he' : es'.get? id with
    | some e' =>
      -- loot of the first step has been kept in the second one
      obtain ⟨loot, j, wreck, rfl, hwreck, hposition⟩ := h.new id e' hnone he'
      obtain ⟨x, hx, hcore⟩ := Option.map_eq_some_iff.mp (h'.kept id _ he')
      rw [he''] at hx
      cases hx
      cases e'' with
      | loot l =>
        exact ⟨l, j, wreck, rfl, hwreck, (Entity.position_of_core hcore).trans hposition⟩
      | ship | station | deposit => cases hcore
    | none =>
      obtain ⟨loot, j, wreck', rfl, hwreck', hposition⟩ := h'.new id e'' he' he''
      -- no ship is new, so that one was there before
      cases hwreck : es.get? j with
      | none =>
        obtain ⟨_, _, _, hloot, _⟩ := h.new j _ hwreck hwreck'
        cases hloot
      | some e =>
        have hcore := h.kept j e hwreck
        rw [hwreck'] at hcore
        have hcore' : e.core = (Entity.ship wreck').core := (Option.some.inj hcore).symm
        obtain ⟨wreck, rfl⟩ := Entity.exists_ship_of_core hcore'
        exact ⟨loot, j, wreck, rfl, hwreck,
          hposition.trans (Entity.position_of_core hcore').symm⟩

/-- A change of one entity that leaves its core alone. -/
theorem adjust {id : EntityId} {f : Entity → Entity}
    (h : ∀ e, es.get? id = some e → (f e).core = e.core) : es.Retains (es.adjust id f) := by
  constructor
  · intro j e he
    rw [get?_adjust, he]
    split
    · next hj => exact congrArg some (h e (hj ▸ he))
    · rfl
  · intro j e' hnone he'
    rw [get?_adjust, hnone] at he'
    split at he' <;> cases he'

theorem adjustShip (id : EntityId) {f : Ship → Ship}
    (h : ∀ s, (Entity.ship (f s)).core = (Entity.ship s).core) :
    es.Retains (es.adjustShip id f) :=
  adjust fun e _ => by
    cases e with
    | ship s => exact h s
    | station | loot | deposit => rfl

theorem putHold (es : Entities) (id : EntityId) (hold : Hold) : es.Retains (es.putHold id hold) :=
  adjust fun e _ => by cases e <;> rfl

/-- The ship of a name is there still, with its listeners. -/
theorem exists_ship (h : es.Retains es') {id : EntityId} {s : Ship}
    (hs : es.get? id = some (.ship s)) :
    ∃ s', es'.get? id = some (.ship s') ∧ s'.events = s.events := by
  obtain ⟨e', he', hcore⟩ := Option.map_eq_some_iff.mp (h.kept id _ hs)
  obtain ⟨s', rfl⟩ := Entity.exists_ship_of_core hcore
  exact ⟨s', he', Option.some.inj (Entity.events?_of_core hcore)⟩

/-- The ship of a name was there before, with its listeners. -/
theorem exists_ship_before (h : es.Retains es') {id : EntityId} {s' : Ship}
    (hs' : es'.get? id = some (.ship s')) :
    ∃ s, es.get? id = some (.ship s) ∧ s'.events = s.events := by
  cases hs : es.get? id with
  | none =>
    obtain ⟨_, _, _, hloot, _⟩ := h.new id _ hs hs'
    cases hloot
  | some e =>
    have hcore := h.kept id e hs
    rw [hs'] at hcore
    have hcore' : e.core = (Entity.ship s').core := (Option.some.inj hcore).symm
    obtain ⟨s, rfl⟩ := Entity.exists_ship_of_core hcore'
    exact ⟨s, rfl, (Option.some.inj (Entity.events?_of_core hcore')).symm⟩

end Entities.Retains

/-- How a ship has come through fights. -/
structure Vitals where
  hp : UInt32
  shield : UInt32
  destroyedBy : Option EntityId
deriving DecidableEq

/-- The vitals of a ship. -/
def Ship.vitals (s : Ship) : Vitals := ⟨s.hp, s.shield, s.destroyedBy⟩

/-- The vitals of an entity that has any. -/
def Entity.vitals? : Entity → Option Vitals
  | ship s => some s.vitals
  | station _ | loot _ | deposit _ => none

namespace Entities

variable {es es' : Entities} {p : EntityId → Prop} {id : EntityId}

/-- The vitals of the ship of a name. -/
def vitals? (es : Entities) (id : EntityId) : Option Vitals := (es.get? id).bind Entity.vitals?

theorem vitals?_eq_some_iff {v : Vitals} :
    es.vitals? id = some v ↔ ∃ s, es.ship id = .ok s ∧ s.vitals = v := by
  unfold vitals?
  rw [Option.bind_eq_some_iff]
  constructor
  · rintro ⟨e, he, hv⟩
    cases e with
    | ship s => exact ⟨s, ship_eq_ok.mpr he, Option.some.inj hv⟩
    | station | loot | deposit => cases hv
  · rintro ⟨s, hs, rfl⟩
    exact ⟨_, ship_eq_ok.mp hs, rfl⟩

theorem vitals?_adjust {f : Entity → Entity} (h : ∀ e, (f e).vitals? = e.vitals?) :
    (es.adjust id f).vitals? = es.vitals? := by
  funext j
  unfold vitals?
  rw [get?_adjust]
  split
  · cases es.get? j with
    | none => rfl
    | some e => exact h e
  · rfl

theorem vitals?_adjustShip {f : Ship → Ship} (h : ∀ s, (f s).vitals = s.vitals) :
    (es.adjustShip id f).vitals? = es.vitals? :=
  vitals?_adjust fun e => by
    cases e with
    | ship s => exact congrArg some (h s)
    | station | loot | deposit => rfl

theorem vitals?_of_add {e : Entity} (h : es.add e = .ok es') (j : EntityId) :
    es'.vitals? j = if j = e.id then e.vitals? else es.vitals? j := by
  unfold vitals?
  rw [(get?_of_add h).2]
  split <;> rfl

theorem vitals?_erase (es : Entities) (id j : EntityId) :
    (es.erase id).vitals? j = if j = id then none else es.vitals? j := by
  unfold vitals?
  rw [get?_erase]
  split <;> rfl

namespace Write

theorem get?_of_not (h : es.Write p es') {j : EntityId} (hj : ¬p j) : es'.get? j = es.get? j := by
  have hne : ∀ {id}, p id → j ≠ id := fun hid heq => hj (heq ▸ hid)
  cases h with
  | attack hid | mine hid | stow hid | draw hid | fill hid =>
    exact (get?_adjust ..).trans (if_neg (hne hid))
  | leave hid _ _ hadd => exact ((get?_of_add hadd).2 j).trans (if_neg (hne hid))

theorem retains (h : es.Write p es') : es.Retains es' := by
  cases h with
  | attack | mine | stow => exact Retains.adjustShip _ fun _ => rfl
  | draw => exact Retains.adjust fun e _ => by cases e <;> rfl
  | fill hid hloot hold =>
    refine Retains.adjust fun e he => ?_
    rw [hloot] at he
    cases he
    rfl
  | @leave loot hid wreck j hwreck hposition es' hadd =>
    obtain ⟨hfree, hget⟩ := get?_of_add hadd
    constructor
    · intro j e he
      rw [hget, if_neg, he]
      · rfl
      · rintro rfl
        rw [hfree] at he
        cases he
    · intro j' e' hnone he'
      rw [hget] at he'
      split at he'
      · cases he'
        exact ⟨loot, j, wreck, rfl, hwreck, hposition⟩
      · rw [hnone] at he'
        cases he'

theorem vitals? (h : es.Write p es') : es'.vitals? = es.vitals? := by
  cases h with
  | attack | mine | stow => exact vitals?_adjustShip fun _ => rfl
  | draw => exact vitals?_adjust fun e => by cases e <;> rfl
  | @fill id hid loot hloot hold =>
    funext j
    unfold Entities.vitals?
    rw [put, get?_adjust]
    split
    · next hj => rw [hj, hloot]; rfl
    · rfl
  | leave hid hwreck hposition hadd =>
    funext j
    rw [vitals?_of_add hadd]
    split
    · next hj =>
      rw [hj, Entities.vitals?, (get?_of_add hadd).1]
      rfl
    · rfl

end Write

namespace Written

/-- Nothing changes outside of what is written to. -/
theorem get?_of_not (h : es.Written p es') {j : EntityId} (hj : ¬p j) :
    es'.get? j = es.get? j := by
  induction h with
  | refl => rfl
  | tail _ hwrite ih => exact (hwrite.get?_of_not hj).trans ih

theorem retains (h : es.Written p es') : es.Retains es' := by
  induction h with
  | refl => exact Retains.refl es
  | tail _ hwrite ih => exact ih.trans hwrite.retains

/-- Nothing is written to the vitals of ships. -/
theorem vitals? (h : es.Written p es') : es'.vitals? = es.vitals? := by
  induction h with
  | refl => rfl
  | tail _ hwrite ih => exact hwrite.vitals?.trans ih

end Written

end Entities

/-! ### Attacks -/

/-- Several positions stopped in place. -/
def Tracker.haltAll (t : Tracker) (ids : List PositionId) : Tracker := ids.foldl halt t

namespace Attack

open Relation (ReflTransGen)

variable (a : Attack) (s : Scene)

/-- The entities that the hooks of an attack read or write: both ships and the loot. -/
def footprint : List EntityId := [a.attacker, a.defender, a.lootId]

theorem attacker_mem_footprint : a.attacker ∈ a.footprint := by simp [footprint]

theorem defender_mem_footprint : a.defender ∈ a.footprint := by simp [footprint]

theorem lootId_mem_footprint : a.lootId ∈ a.footprint := by simp [footprint]

theorem written_leaveLoot {wreck wreck' : Ship} (salvage : List Stack)
    (hwreck : s.entities.get? a.defender = some (.ship wreck'))
    (hposition : wreck.position = wreck'.position) :
    s.entities.Written (· ∈ a.footprint) ((a.leaveLoot wreck salvage).run.run s).2.entities := by
  unfold leaveLoot
  split
  · rw [run_bind, run_get]
    simp only []
    split
    · next loot hloot =>
      obtain ⟨r, hrun⟩ := a.addToLoot_cases s loot salvage
      rw [hrun]
      exact .single (.fill a.lootId_mem_footprint hloot _)
    · obtain ⟨hold, es, -, hadd, hrun⟩ | ⟨-, e, hrun⟩ := a.createLoot_cases s wreck salvage
      · rw [hrun]
        exact .single (.leave a.lootId_mem_footprint hwreck hposition hadd)
      · rw [hrun]
  · exact .refl

theorem written_clearUp {wreck : Ship} (h : s.entities.ship a.defender = .ok wreck) :
    s.entities.Written (· ∈ a.footprint) (a.clearUp.run.run s).2.entities := by
  have hstrip : s.entities.Written (· ∈ a.footprint) (a.stripped s.entities wreck) := by
    unfold stripped
    split
    · exact .single (.stow a.defender_mem_footprint _)
    · exact .refl
  -- the wreck is still there when its cargo has been taken off
  obtain ⟨wreck', hwreck', hposition⟩ : ∃ wreck',
      (a.stripped s.entities wreck).get? a.defender = some (.ship wreck') ∧
        wreck.position = wreck'.position := by
    have hget := Entities.ship_eq_ok.mp h
    unfold stripped
    split
    · rw [Entities.adjustShip, Entities.get?_adjust, if_pos rfl, hget]
      exact ⟨_, rfl, rfl⟩
    · exact ⟨wreck, hget, rfl⟩
  unfold clearUp
  simp only [run_bind, run_read, h, strip_run, settleUp_run]
  exact hstrip.trans (a.written_leaveLoot
    { s with
      entities := a.stripped s.entities wreck
      tracker := s.tracker.halt wreck.position
      stopRequests := s.stopRequests ++ [a.defender]
      credits := s.credits ++ a.bounty (a.stripped s.entities wreck) wreck }
    (a.salvage s.entities wreck) hwreck' hposition)

theorem written_teardown :
    s.entities.Written (· ∈ a.footprint) (a.teardown.run.run s).2.entities := by
  have hdisengage : s.entities.Written (· ∈ a.footprint) (a.disengaged s.entities) :=
    .single (.attack a.attacker_mem_footprint _)
  rw [entities_teardown]
  split
  · next hwon =>
    have hwon' : a.isWon { s with entities := a.disengaged s.entities } = true :=
      (a.isWon_of_outline rfl).trans hwon
    obtain ⟨wreck, hwreck⟩ := a.exists_ship_of_isWon hwon'
    exact hdisengage.trans (a.written_clearUp _ hwreck)
  · exact hdisengage

/-- All hooks but the hit write only. -/
theorem written_hook {stage : Stage} (h : stage ≠ .execute) :
    s.entities.Written (· ∈ a.footprint) ((a.hook stage).run.run s).2.entities := by
  cases stage with
  | setup =>
    obtain hrun | ⟨e, hrun⟩ := a.setup_cases s
    · rw [hook, hrun]
      exact .single (.attack a.attacker_mem_footprint _)
    · rw [hook, hrun]
  | before =>
    obtain ⟨r, hrun⟩ := a.before_cases s
    rw [hook, hrun]
  | execute => exact absurd rfl h
  | after => exact .refl
  | teardown => exact a.written_teardown s
  | stop =>
    have hstop := a.stop_run s
    rw [hook, hstop]
    split
    · exact .single (.attack a.attacker_mem_footprint _)
    · exact .refl

/-- The positions that the last hook of an attack halts: that of the wreck, if the attack is won. -/
def halts (found : Scene) : List PositionId :=
  if a.isWon found then ((found.entities.get? a.defender).map Entity.position).toList else []

theorem tracker_teardown :
    (a.teardown.run.run s).2.tracker = s.tracker.haltAll (a.halts s) := by
  rw [teardown_left, announceEnd_run, halts]
  cases hwon : a.isWon s with
  | false => rfl
  | true =>
    obtain ⟨wreck, hwreck⟩ := a.exists_ship_of_isWon hwon
    have hdisengaged : (a.disengaged s.entities).ship a.defender = .ok
        (if a.defender = a.attacker then { wreck with attacking := none } else wreck) := by
      rw [Entities.ship_eq_ok] at hwreck ⊢
      rw [disengaged, Entities.adjustShip, Entities.get?_adjust, hwreck]
      split <;> rfl
    obtain ⟨r, es, hclear, -⟩ :=
      a.clearUp_spec { s with entities := a.disengaged s.entities } hdisengaged
    simp only [↓reduceIte, hclear, Entities.ship_eq_ok.mp hwreck]
    -- nobody is moved by being disengaged
    split <;> rfl

/-- Only the last hook halts anything. -/
theorem tracker_hook (stage : Stage) : ((a.hook stage).run.run s).2.tracker =
    s.tracker.haltAll (if stage = .teardown then a.halts s else []) := by
  cases stage with
  | setup => obtain hrun | ⟨e, hrun⟩ := a.setup_cases s <;> rw [hook, hrun] <;> rfl
  | before =>
    obtain ⟨r, hrun⟩ := a.before_cases s
    rw [hook, hrun]
    rfl
  | execute =>
    obtain ⟨x, d, -, -, hrun⟩ | ⟨e, hrun⟩ := a.execute_cases s <;> rw [hook, hrun] <;> rfl
  | after => rfl
  | stop =>
    rw [hook, a.stop_run]
    split <;> rfl
  | teardown => exact a.tracker_teardown s

theorem core_struck (x d : Ship) : (Entity.ship (a.struck x d)).core = (Entity.ship d).core := by
  unfold struck Ship.absorb
  split <;> split <;> rfl

/-- A hit changes the defender alone, and nothing of its core. -/
theorem retains_struck {x d : Ship} {es : Entities} (hd : es.ship a.defender = .ok d) :
    es.Retains (es.adjustShip a.defender fun _ => a.struck x d) := by
  refine Entities.Retains.adjust fun e he => ?_
  rw [Entities.ship_eq_ok.mp hd] at he
  cases he
  exact a.core_struck x d

end Attack

/-! ### Mining runs -/

namespace Mining

variable (m : Mining) (s : Scene)

/-- The entities that the hooks of a mining run read or write. -/
def footprint : List EntityId := [m.miner, m.deposit]

theorem miner_mem_footprint : m.miner ∈ m.footprint := by simp [footprint]

theorem deposit_mem_footprint : m.deposit ∈ m.footprint := by simp [footprint]

theorem written_hook (stage : Stage) :
    s.entities.Written (· ∈ m.footprint) ((m.hook stage).run.run s).2.entities := by
  cases stage with
  | setup =>
    obtain hrun | ⟨e, hrun⟩ := m.setup_cases s
    · rw [hook, hrun]
      exact .single (.mine m.miner_mem_footprint _)
    · rw [hook, hrun]
  | before | after => exact .refl
  | execute =>
    obtain ⟨r, hrun⟩ | ⟨x, d, hold, -, -, -, hrun⟩ := m.execute_cases s
    · rw [hook, hrun]
    · rw [hook, hrun]
      exact .tail (.single (.draw m.deposit_mem_footprint _)) (.stow m.miner_mem_footprint _)
  | teardown => exact .single (.mine m.miner_mem_footprint _)
  | stop =>
    rw [hook, m.stop_run]
    split
    · exact .single (.mine m.miner_mem_footprint _)
    · exact .refl

theorem tracker_hook (stage : Stage) : ((m.hook stage).run.run s).2.tracker = s.tracker := by
  cases stage with
  | setup => obtain hrun | ⟨e, hrun⟩ := m.setup_cases s <;> rw [hook, hrun]
  | before | after | teardown => rfl
  | execute =>
    obtain ⟨r, hrun⟩ | ⟨x, d, hold, -, -, -, hrun⟩ := m.execute_cases s <;> rw [hook, hrun]
    rfl
  | stop =>
    rw [hook, m.stop_run]
    split <;> rfl

end Mining

/-! ### Commands -/

variable {κ ε : Type}

/-- The positions that it halts. -/
def Deed.halts : Deed κ → List PositionId
  | hook ⟨_, .attack a⟩ .teardown _ found _ => a.halts found
  | _ => []

namespace Command

variable {c : Command κ}

/-- The entities that a command reads or writes, unless the host supplies it. -/
def footprint (c : Command κ) : List EntityId :=
  match c.task with
  | .attack a => a.footprint
  | .mining m => m.footprint
  | .custom .. => []

variable (host : CommandHost κ ε)

/-- The hooks of attacks and mining runs write within the footprint of the command, or land a
hit. -/
theorem BuiltIn.run_writes (hc : c.BuiltIn) (stage : Stage) (s : Setting κ ε) :
    s.entities.Written (· ∈ c.footprint) (c.run host stage s).2.2.entities ∨
      ∃ a x d, c.task = .attack a ∧ s.entities.ship a.defender = .ok d ∧
        (c.run host stage s).2.2.entities =
          s.entities.adjustShip a.defender fun _ => a.struck x d := by
  obtain ⟨acts, hacts⟩ := hc.exists_acts
  obtain ⟨-, hentities, -⟩ := run_of_acts host hacts stage s
  obtain ⟨progress, task⟩ := c
  rw [hentities]
  cases task with
  | custom => cases hacts
  | mining m =>
    cases hacts
    exact .inl (m.written_hook s.scene stage)
  | attack a =>
    cases hacts
    by_cases hstage : stage = .execute
    · subst hstage
      have hhook : ((a.hook .execute).run.run s.scene).2 = (a.execute.run.run s.scene).2 := rfl
      rw [hhook]
      obtain ⟨x, d, -, hd, hrun⟩ | ⟨e, hrun⟩ := a.execute_cases s.scene
      · rw [hrun]
        exact .inr ⟨a, x, d, rfl, hd, rfl⟩
      · rw [hrun]
        exact .inl .refl
    · exact .inl (a.written_hook s.scene hstage)

/-- A hook halts positions, and does nothing else to the tracker. -/
theorem BuiltIn.tracker_run (hc : c.BuiltIn) (stage : Stage) (s : Setting κ ε)
    (outcome : Except CommandError Unit) (left : Scene) :
    (c.run host stage s).2.2.tracker =
      s.tracker.haltAll (Deed.halts (.hook c stage outcome s.scene left)) := by
  obtain ⟨acts, hacts⟩ := hc.exists_acts
  obtain ⟨progress, task⟩ := c
  cases task with
  | attack a =>
    refine (a.tracker_hook s.scene stage).trans ?_
    cases stage <;> rfl
  | mining m => exact m.tracker_hook s.scene stage
  | custom => cases hacts

theorem defender_mem_footprint {a : Attack} (h : c.task = .attack a) :
    a.defender ∈ c.footprint := by
  rw [footprint, h]
  exact a.defender_mem_footprint

/-- Nothing changes outside of the footprint of a command, and every entity keeps its core. -/
theorem BuiltIn.run_spares (hc : c.BuiltIn) (stage : Stage) (s : Setting κ ε) :
    (∀ id, id ∉ c.footprint → (c.run host stage s).2.2.entities.get? id = s.entities.get? id) ∧
      s.entities.Retains (c.run host stage s).2.2.entities := by
  obtain hwritten | ⟨a, x, d, htask, hd, hhit⟩ := hc.run_writes host stage s
  · exact ⟨fun id hid => hwritten.get?_of_not hid, hwritten.retains⟩
  · rw [hhit]
    refine ⟨fun id hid => ?_, a.retains_struck hd⟩
    have hne : id ≠ a.defender := by
      rintro rfl
      exact hid (defender_mem_footprint htask)
    exact (Entities.get?_adjust ..).trans (if_neg hne)

/-- So a tick of it keeps the core of every entity. -/
theorem BuiltIn.retains_tick (hc : c.BuiltIn) (s : Setting κ ε) :
    s.entities.Retains (c.tick host s).2.2.entities := by
  refine (tick_keeps (P := fun (c : Command κ) (s' : Setting κ ε) =>
    c.BuiltIn ∧ s.entities.Retains s'.entities) host (fun stage c s' hcs => ?_)
    (fun _ _ _ hcs => hcs) ⟨hc, Entities.Retains.refl _⟩).2
  rw [hcs.1.run_eq_self host stage s']
  exact ⟨hcs.1, hcs.2.trans (hcs.1.run_spares host stage s').2⟩

end Command

end Orrery
