import Orrery.Proofs.Activity
import Orrery.Proofs.Round
import Orrery.Proofs.Supply

/-!
# Conservation of material

A tick of the commands keeps the supply of every material, apart from what is spilled on the way:
the supply after the tick and whatever the deeds of the tick spilled make up the supply before it.
So material is conserved if and only if every wreck that is cleared up in the tick leaves its cargo
where there is room for it.  Transfers and stops conserve material without further ado.
-/

namespace Orrery

variable {κ ε : Type}

/-! ### What deeds spill -/

namespace Deed

/-- The attack that is won, and the scene in which it is, if clearing up is what is done. -/
def victory? : Deed κ → Option (Attack × Scene)
  | hook ⟨_, .attack a⟩ .teardown _ found _ => if a.isWon found then some (a, found) else none
  | _ => none

/-- The cargo that is lost. -/
def spilled (d : Deed κ) : List Stack :=
  (d.victory?.map fun (a, found) => a.spilled found.entities).getD []

/-- Whether there is room for the cargo of the wreck, if one is cleared up. -/
def HasRoom (d : Deed κ) : Prop :=
  ∀ a found, d.victory? = some (a, found) → a.HasRoom found.entities

theorem spilled_eq_nil_iff (d : Deed κ) : d.spilled = [] ↔ d.HasRoom := by
  unfold spilled HasRoom
  cases hd : d.victory? with
  | none => simp
  | some v =>
    simp only [Option.map_some, Option.getD_some, Attack.spilled_eq_nil_iff]
    constructor
    · rintro h a found ⟨⟩
      exact h
    · intro h
      exact h v.1 v.2 rfl

theorem exists_pos_of_spilled_ne_nil {d : Deed κ} (h : d.spilled ≠ []) :
    ∃ s ∈ d.spilled, 0 < s.quantity.toNat := by
  unfold spilled at h ⊢
  cases hd : d.victory? with
  | none =>
    rw [hd] at h
    exact absurd rfl h
  | some v =>
    rw [hd] at h
    exact v.1.exists_pos_of_spilled_ne_nil h

/-- Nothing is spilled of any material if and only if there is room each time. -/
theorem unitsIn_spilled_eq_zero_iff (deeds : List (Deed κ)) :
    (∀ m, unitsIn m (deeds.flatMap spilled) = 0) ↔ ∀ d ∈ deeds, d.HasRoom := by
  constructor
  · intro h d hd
    by_contra hroom
    rw [← spilled_eq_nil_iff] at hroom
    -- if something is spilled, there is a material of which something is spilled
    obtain ⟨s, hs, hpos⟩ := exists_pos_of_spilled_ne_nil hroom
    have hle := le_unitsIn_of_mem (List.mem_flatMap.mpr ⟨d, hd, hs⟩)
    rw [h s.material] at hle
    omega
  · intro h m
    have hnil : deeds.flatMap spilled = [] :=
      List.flatMap_eq_nil_iff.mpr fun d hd => (spilled_eq_nil_iff d).mpr (h d hd)
    rw [hnil, unitsIn_nil]

end Deed

/-! ### Ticks and stops -/

namespace Setting

/-- The supply of a material, together with what has been spilled of it so far. -/
def account (material : String) (s : Setting κ ε) : Nat :=
  s.entities.units material + unitsIn material (s.chronicle.flatMap Deed.spilled)

end Setting

namespace Command

variable (host : CommandHost κ ε) {c : Command κ}

theorem spilled_attack (progress : Progress) (a : Attack) (stage : Stage)
    (outcome : Except CommandError Unit) (found left : Scene) :
    (Deed.hook ⟨progress, .attack a⟩ stage outcome found left : Deed κ).spilled =
      if stage = .teardown ∧ a.isWon found then a.spilled found.entities else [] := by
  cases stage with
  | teardown =>
    have hvictory : (Deed.hook ⟨progress, .attack a⟩ .teardown outcome found left :
      Deed κ).victory? = if a.isWon found then some (a, found) else none := rfl
    rw [Deed.spilled, hvictory]
    cases a.isWon found with
    | true => rfl
    | false => rfl
  | setup | before | execute | after | stop => rfl

/-- What a hook spills goes off the supply. -/
theorem units_run (hc : c.BuiltIn) (stage : Stage) (s : Setting κ ε) (m : String) :
    ∃ d : Deed κ, (c.run host stage s).2.2.chronicle = s.chronicle ++ [d] ∧
      (c.run host stage s).2.2.entities.units m + unitsIn m d.spilled = s.entities.units m ∧
      (stage ≠ .teardown → d.spilled = []) := by
  obtain ⟨acts, hacts⟩ := hc.exists_acts
  obtain ⟨-, hentities, -, hafter⟩ := run_of_acts host hacts stage s
  refine ⟨_, hafter.chronicle, ?_⟩
  rw [hentities]
  obtain ⟨progress, task⟩ := c
  cases task with
  | attack a =>
    cases hacts
    rw [spilled_attack]
    exact ⟨a.units_hook s.scene stage m, fun hstage => if_neg fun h => hstage h.1⟩
  | mining m' =>
    cases hacts
    exact ⟨m'.units_hook s.scene stage m, fun _ => rfl⟩
  | custom => cases hacts

theorem account_run (hc : c.BuiltIn) (stage : Stage) (s : Setting κ ε) (m : String) :
    (c.run host stage s).2.2.account m = s.account m := by
  obtain ⟨d, hchronicle, hunits, -⟩ := units_run host hc stage s m
  unfold Setting.account
  rw [hchronicle, List.flatMap_append, unitsIn_append]
  simp only [List.flatMap_cons, List.flatMap_nil, List.append_nil]
  omega

/-- A tick keeps the account. -/
theorem account_tick (hc : c.BuiltIn) (s : Setting κ ε) (m : String) :
    (c.tick host s).2.1.BuiltIn ∧ (c.tick host s).2.2.account m = s.account m := by
  refine tick_keeps host (P := fun c' s' => c'.BuiltIn ∧ s'.account m = s.account m) ?_ ?_ ?_
  · intro stage c' s' ⟨hc', hs'⟩
    rw [hc'.run_eq_self, account_run host hc']
    exact ⟨hc', hs'⟩
  · intro c' s' progress h
    exact h
  · refine ⟨hc, ?_⟩
    unfold Setting.account
    rw [(s.after_note_turn c s.scene).chronicle, List.flatMap_append, unitsIn_append]
    rfl

/-- A stop loses nothing. -/
theorem units_halt (hc : c.BuiltIn) (s : Setting κ ε) (m : String) :
    (c.halt host s).entities.units m = s.entities.units m := by
  obtain ⟨d, -, hunits, hnone⟩ := units_run host hc .stop s m
  rw [hnone (by decide), unitsIn_nil, Nat.add_zero] at hunits
  exact hunits

end Command

namespace Session

variable (host : CommandHost κ ε) {x : Session κ ε}

theorem account_tick (hx : x.schedule.BuiltIn) (m : String) :
    (x.tick host).2.schedule.BuiltIn ∧ (x.tick host).2.setting.account m = x.setting.account m :=
  tick_keeps host (P := (·.account m = x.setting.account m))
    (fun c s hc hs => by
      obtain ⟨hc', hs'⟩ := Command.account_tick host hc s m
      exact ⟨hc', hs'.trans hs⟩)
    (fun _ s hc hs => (Command.account_run host hc .stop s m).trans hs) (fun _ _ hs => hs) hx rfl

theorem units_meetRequests (hx : x.schedule.BuiltIn) (m : String) :
    (x.meetRequests host).2.schedule.BuiltIn ∧
      (x.meetRequests host).2.setting.entities.units m = x.setting.entities.units m :=
  Sweep.meetRequests_keeps (P := (·.entities.units m = x.setting.entities.units m))
    (fun _ s hc hs => (Command.units_halt host hc s m).trans hs) (fun _ _ hs => hs) hx rfl

end Session

/-! ### A small world -/

namespace Skirmish

/-- So much ore. -/
def ore (quantity : UInt32) : Table String UInt32 where
  entries := [("ore", quantity)]
  nodup := List.nodup_singleton _

/-- A ship with cargo is about to be destroyed next to loot of its name, and there is more in the
loot than it has room for. -/
def wreckage : World Unit Unit where
  tracker := tracker
  registry :=
    { entities :=
        { table :=
            { entries :=
                [(hunter.id, .ship hunter),
                  (prey.id, .ship { prey with
                    hold := { capacity := 100, amounts := ore 3 } }),
                  (⟨"prey-loot"⟩, .loot ⟨⟨"prey-loot"⟩, "sol", place,
                    { capacity := 3, amounts := ore 10 }⟩)]
              nodup := by decide } }
      schedule := onslaught }
  outside := ()

theorem builtIn_wreckage : wreckage.registry.schedule.BuiltIn := by
  intro c hc
  rw [List.mem_singleton.mp hc]
  exact ⟨_, _, _, rfl⟩

end Skirmish

/-! ### The main result -/

/-- The supply of a material in a world. -/
def World.units (w : World κ ε) (material : String) : Nat := w.registry.entities.units material

namespace Operation

/-- No entity comes or goes, no command is ticked, and no custom command is scheduled. -/
def IsNeutral : Operation κ ε → Prop
  | create _ | remove .. | tick _ => False
  | schedule c => c.BuiltIn
  | _ => True

variable (host : CommandHost κ ε) {w : World κ ε}

/-- What a tick spills goes off the supply. -/
theorem units_tick (hw : w.registry.schedule.BuiltIn) (now : Float) (m : String) :
    ((tick now).commit host w).2.registry.schedule.BuiltIn ∧
    ((tick now).commit host w).2.units m +
        unitsIn m (((tick now).commit host w).1.flatMap Deed.spilled) = w.units m := by
  simp only [commit]
  split
  · exact Session.account_tick host (x := w.session now) hw m
  · exact ⟨hw, rfl⟩

/-- Neutral operations keep the supply. -/
theorem units_commit {op : Operation κ ε} (hop : op.IsNeutral) (hw : w.registry.schedule.BuiltIn)
    (m : String) :
    (op.commit host w).2.registry.schedule.BuiltIn ∧ (op.commit host w).2.units m = w.units m := by
  have heffect := op.effect_commit host w
  generalize op.commit host w = r at heffect
  cases heffect with
  | refused | drift => exact ⟨hw, rfl⟩
  | create | remove | tick => exact hop.elim
  | schedule hadd => exact ⟨hw.add hop hadd, rfl⟩
  | stopCommands now id => exact Session.units_meetRequests host (x := w.stopping now id) hw m
  | transfer src dst material quantity => exact ⟨hw, Registry.units_moveMaterial ..⟩
  | listen id events =>
    refine ⟨hw, Entities.units_adjust_eq fun e _ => ?_⟩
    cases e <;> rfl

/-- Listeners that keep to neutral operations keep the supply. -/
theorem units_perform {host : Host κ ε} (hhost : host.ActsBy IsNeutral) (op : Operation κ ε)
    (hcommit : (op.commit host.toCommandHost w).2.registry.schedule.BuiltIn) (m : String) :
    (op.perform host w).units m = (op.commit host.toCommandHost w).2.units m := by
  refine (perform_of_commit (P := fun v : World κ ε => v.registry.schedule.BuiltIn ∧
    v.units m = (op.commit host.toCommandHost w).2.units m) hhost (fun _ _ => trivial)
    (fun v op' hop' hv => ?_) op ⟨hcommit, rfl⟩).2
  obtain ⟨hbuiltIn, hunits⟩ := units_commit host.toCommandHost hop' hv.1 m
  exact ⟨hbuiltIn, hunits.trans hv.2⟩

end Operation

namespace World

/-- The supply of every material after a tick, together with what the tick spilled, is that before
the tick, and so material is conserved if and only if every wreck that the tick clears up leaves its
cargo where there is room for it.  A transfer conserves material in any case.  When listeners are
told and keep to neutral operations, the supply stays what it is by then. -/
theorem units_conserved_iff (host : Host κ ε) (w : World κ ε) (hw : w.registry.schedule.BuiltIn) :
    (∀ now,
      let deeds := ((Operation.tick now).commit host.toCommandHost w).1
      let w' := ((Operation.tick now).commit host.toCommandHost w).2
      (∀ material, w'.units material + unitsIn material (deeds.flatMap Deed.spilled) =
        w.units material) ∧
      ((∀ material, w'.units material = w.units material) ↔ ∀ d ∈ deeds, d.HasRoom)) ∧
    (∀ src dst material quantity m,
      let w' := ((Operation.transfer src dst material quantity).commit host.toCommandHost w).2
      w'.units m = w.units m) ∧
    (host.ActsBy Operation.IsNeutral → ∀ op : Operation κ ε, op.IsBuiltIn → ∀ material,
      (op.perform host w).units material =
        (op.commit host.toCommandHost w).2.units material) := by
  refine ⟨fun now => ?_, fun src dst material quantity m => ?_, fun hhost op hop m => ?_⟩
  · intro deeds w'
    have hsupply : ∀ m, w'.units m + unitsIn m (deeds.flatMap Deed.spilled) = w.units m :=
      fun m => (Operation.units_tick host.toCommandHost hw now m).2
    refine ⟨hsupply, ?_⟩
    rw [← Deed.unitsIn_spilled_eq_zero_iff]
    constructor
    · intro h m
      have hm := hsupply m
      rw [h m] at hm
      omega
    · intro h m
      have hm := hsupply m
      rw [h m] at hm
      exact hm
  · have hneutral : (Operation.transfer src dst material quantity : Operation κ ε).IsNeutral :=
      trivial
    exact (Operation.units_commit host.toCommandHost hneutral hw m).2
  · exact Operation.units_perform hhost op (Operation.builtIn_commit host.toCommandHost hop hw) m

/-- In particular so if a tick destroys one ship, and there is loot of its name already. -/
theorem units_conserved_iff_skirmish :
    let deeds := ((Operation.tick 0).commit Host.still.toCommandHost Skirmish.wreckage).1
    let w' := ((Operation.tick 0).commit Host.still.toCommandHost Skirmish.wreckage).2
    (∀ material, w'.units material = Skirmish.wreckage.units material) ↔ ∀ d ∈ deeds, d.HasRoom :=
  ((units_conserved_iff Host.still Skirmish.wreckage Skirmish.builtIn_wreckage).1 0).2

/-- Loot that holds ten units but has a capacity of three takes nothing of the three units that are
taken off a wreck: they are gone. -/
theorem units_wreckage :
    Skirmish.wreckage.units "ore" = 13 ∧
      ((Operation.tick 0).perform Host.still Skirmish.wreckage).units "ore" = 10 := by
  have hbefore : Skirmish.wreckage.units "ore" = 13 := by decide +kernel
  obtain ⟨hbuiltIn, hafter⟩ :=
    Operation.units_tick Host.still.toCommandHost Skirmish.builtIn_wreckage 0 "ore"
  -- the round has one turn, which can be evaluated
  have hspilled : unitsIn "ore" (((Operation.tick 0).commit Host.still.toCommandHost
      Skirmish.wreckage).1.flatMap Deed.spilled) = 3 := by
    rw [Operation.commit_tick_singleton (c := .attack Skirmish.attack) Host.still.toCommandHost rfl
      rfl (by decide +kernel)]
    decide +kernel
  rw [Operation.units_perform (Host.actsBy_still _) (.tick 0) hbuiltIn]
  refine ⟨hbefore, ?_⟩
  omega

end World

end Orrery
