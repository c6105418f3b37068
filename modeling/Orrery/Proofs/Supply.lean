import Orrery.Proofs.Attack
import Orrery.Proofs.Hold
import Orrery.Proofs.Mining
import Orrery.Proofs.Operation

/-!
# The supply of a material

The supply of a material is what all holds contain of it and what all deposits yield, as a natural
number (`Entities.units`).  Hooks move units about and so do transfers, and this keeps the supply,
with one exception: what is taken off a wreck but finds no room in the loot is gone
(`Attack.spilled`).  `Attack.HasRoom` says when all of it finds room.
-/

namespace Orrery

/-- Units of a material that an entity holds, or yields if it is a deposit. -/
def Entity.units (material : String) : Entity → Nat
  | ship s => s.hold.units material
  | station s => s.hold.units material
  | loot l => l.hold.units material
  | deposit d => if d.material = material then d.quantity.toNat else 0

theorem Entity.units_of_hold? {e : Entity} {hold : Hold} (h : e.hold? = some hold)
    (material : String) :
    e.units material = hold.units material ∧
      ∀ hold', (e.withHold hold').units material = hold'.units material := by
  cases e with
  | ship | station | loot =>
    cases h
    exact ⟨rfl, fun _ => rfl⟩
  | deposit => cases h

namespace Entities

variable {es es' : Entities} {id : EntityId}

/-- Units of a material that there are in all. -/
def units (es : Entities) (material : String) : Nat := es.table.sum fun _ e => e.units material

theorem units_adjust {e : Entity} (h : es.get? id = some e) (f : Entity → Entity)
    (material : String) :
    (es.adjust id f).units material + e.units material =
      es.units material + (f e).units material :=
  es.table.sum_modify (fun _ e => e.units material) f h

theorem units_adjust_eq {f : Entity → Entity} {material : String}
    (h : ∀ e, es.get? id = some e → (f e).units material = e.units material) :
    (es.adjust id f).units material = es.units material :=
  es.table.sum_modify_eq (fun _ e => e.units material) id f h

/-- A change of a ship that leaves its hold as it is. -/
theorem units_adjustShip_eq {f : Ship → Ship} (h : ∀ s, (f s).hold = s.hold) (material : String) :
    (es.adjustShip id f).units material = es.units material :=
  units_adjust_eq fun e _ => by
    cases e with
    | ship s => exact congrArg (·.units material) (h s)
    | station | loot | deposit => rfl

theorem hold_eq_ok {hold : Hold} :
    es.hold id = .ok hold ↔ ∃ e, es.get? id = some e ∧ e.hold? = some hold := by
  unfold Entities.hold require
  cases hget : es.get? id with
  | none => simp [bind, Except.bind]
  | some e =>
    cases hhold : e.hold? <;> simp [bind, Except.bind, hhold, pure, Except.pure, throw, throwThe,
      MonadExceptOf.throw]

theorem units_putHold {hold : Hold} (h : es.hold id = .ok hold) (hold' : Hold)
    (material : String) :
    (es.putHold id hold').units material + hold.units material =
      es.units material + hold'.units material := by
  obtain ⟨e, hget, hhold⟩ := hold_eq_ok.mp h
  obtain ⟨hunits, hput⟩ := Entity.units_of_hold? hhold material
  have hadjust := units_adjust hget (·.withHold hold') material
  rw [hput, hunits] at hadjust
  exact hadjust

theorem hold_putHold {hold : Hold} (h : es.hold id = .ok hold) (hold' : Hold) :
    (es.putHold id hold').hold id = .ok hold' := by
  obtain ⟨e, hget, hhold⟩ := hold_eq_ok.mp h
  rw [hold_eq_ok, putHold, get?_adjust, if_pos rfl, hget]
  refine ⟨_, rfl, ?_⟩
  cases e with
  | ship | station | loot => rfl
  | deposit => cases hhold

theorem units_of_add {e : Entity} (h : es.add e = .ok es') (material : String) :
    es'.units material = es.units material + e.units material := by
  have hfree := (get?_of_add h).1
  unfold add at h
  split at h
  · cases h
  · cases h
    exact es.table.sum_insert_of_get?_none (fun _ e => e.units material) e hfree

/-- A change of a ship in terms of ships. -/
theorem ship_adjustShip (es : Entities) (id : EntityId) (f : Ship → Ship) {j : EntityId} {s : Ship}
    (h : es.ship j = .ok s) : (es.adjustShip id f).ship j = .ok (if j = id then f s else s) := by
  rw [ship_eq_ok] at h ⊢
  rw [adjustShip, get?_adjust, h]
  split <;> rfl

end Entities

/-! ### Transfers -/

namespace Registry

variable {es es' : Entities} {id : EntityId} {material : String} {quantity : UInt32}

theorem units_changeHold_add (h : changeHold es id (·.add material quantity) = .ok es') :
    (∀ m, es'.units m = es.units m + if material = m then quantity.toNat else 0) ∧
      ∃ es'', changeHold es' id (·.remove material quantity) = .ok es'' := by
  obtain ⟨hold, hold', hhold, hadd, rfl⟩ := changeHold_eq_ok h
  obtain ⟨-, -, hunits, -⟩ := Hold.add_spec hadd
  constructor
  · intro m
    have hput := Entities.units_putHold hhold hold' m
    rw [hunits] at hput
    omega
  · have hle : quantity.toNat ≤ hold'.units material := by
      rw [hunits, if_pos rfl]
      exact Nat.le_add_left ..
    obtain ⟨hold'', hremove⟩ := Hold.exists_remove hle
    refine ⟨(es.putHold id hold').putHold id hold'', ?_⟩
    unfold changeHold
    simp only [Entities.hold_putHold hhold, bind, Except.bind, hremove]
    rfl

theorem units_changeHold_remove (h : changeHold es id (·.remove material quantity) = .ok es')
    (m : String) : es'.units m + (if material = m then quantity.toNat else 0) = es.units m := by
  obtain ⟨hold, hold', hhold, hremove, rfl⟩ := changeHold_eq_ok h
  have hput := Entities.units_putHold hhold hold' m
  rw [← Hold.remove_spec hremove m] at hput
  omega

/-- Handing material over keeps the supply, whether or not it succeeds. -/
theorem units_moveMaterial (es : Entities) (src dst : EntityId) (material : String)
    (quantity : UInt32) (m : String) :
    (moveMaterial es src dst material quantity).2.units m = es.units m := by
  unfold moveMaterial
  split
  · rfl
  · next credited hcredited =>
    -- the destination is credited first; if the source fails then, the credit can be taken back
    obtain ⟨hunits, es'', htaken⟩ := units_changeHold_add hcredited
    have hcredit := hunits m
    split
    · next moved hmoved =>
      have hdebit := units_changeHold_remove hmoved m
      simp only []
      omega
    · rw [htaken]
      have hback := units_changeHold_remove htaken m
      simp only []
      omega

end Registry

/-! ### Salvage -/

namespace Entities

/-- The loot of this name, if it is loot. -/
def loot? (es : Entities) (id : EntityId) : Option Loot :=
  (es.get? id).bind fun e => match e with
    | .loot l => some l
    | _ => none

theorem loot?_adjustShip (es : Entities) (id : EntityId) (f : Ship → Ship) (j : EntityId) :
    (es.adjustShip id f).loot? j = es.loot? j := by
  unfold loot?
  rw [adjustShip, get?_adjust]
  split
  · cases es.get? j with
    | none => rfl
    | some e => cases e <;> rfl
  · rfl

end Entities

namespace Attack

variable (a : Attack)

theorem lootIdUsable_adjustShip (es : Entities) (id : EntityId) (f : Ship → Ship) :
    a.lootIdUsable (es.adjustShip id f) = a.lootIdUsable es := by
  unfold lootIdUsable
  rw [Entities.adjustShip, Entities.get?_adjust]
  by_cases hid : a.lootId = id
  · rw [if_pos hid]
    cases es.get? a.lootId with
    | none => rfl
    | some e => cases e <;> rfl
  · rw [if_neg hid]

/-- The hold of loot, after room has been made for some cargo. -/
def roomy (loot : Loot) (cargo : Hold) : Hold :=
  { loot.hold with
    capacity := Units.plus loot.hold.capacity (Units.total (cargo.contents.map (·.quantity))) }

/-- The hold of new loot, before cargo is put into it. -/
def fresh (cargo : Hold) : Hold where
  capacity := Units.greatest cargo.capacity (Units.total (cargo.contents.map (·.quantity)))

theorem refused_roomy_eq_nil_iff (loot : Loot) (cargo : Hold) :
    (roomy loot cargo).refused cargo.contents = [] ↔ cargo.sum = 0 ∨
      loot.hold.sum ≤ loot.hold.capacity.toNat ∧ loot.hold.sum + cargo.sum ≤ 2 ^ 32 - 1 := by
  have hsum : (roomy loot cargo).sum = loot.hold.sum := rfl
  have hcapacity : (roomy loot cargo).capacity.toNat =
      min (loot.hold.capacity.toNat + min cargo.sum (2 ^ 32 - 1)) (2 ^ 32 - 1) := by
    rw [roomy, Units.toNat_plus, Units.toNat_total, Hold.sum_contents]
  rw [Hold.refused_eq_nil_iff, hsum, hcapacity, Hold.sum_contents]
  omega

theorem refused_fresh_eq_nil_iff (cargo : Hold) :
    (fresh cargo).refused cargo.contents = [] ↔ cargo.sum ≤ 2 ^ 32 - 1 := by
  have hlt := cargo.capacity.toNat_lt
  have hsum : (fresh cargo).sum = 0 := rfl
  have hcapacity : (fresh cargo).capacity.toNat =
      max cargo.capacity.toNat (min cargo.sum (2 ^ 32 - 1)) := by
    rw [fresh, Units.toNat_greatest, Units.toNat_total, Hold.sum_contents]
  rw [Hold.refused_eq_nil_iff, hsum, hcapacity, Hold.sum_contents]
  omega

/-- What of the cargo of a wreck finds no room.  Loot that is there already takes stacks up to the
first one that does not fit, and new loot takes all or nothing. -/
def lost (es : Entities) (cargo : Hold) : List Stack :=
  match es.loot? a.lootId with
  | some loot => (roomy loot cargo).refused cargo.contents
  | none => if (fresh cargo).refused cargo.contents = [] then [] else cargo.contents

/-- The cargo that is taken off the wreck but finds no room in the loot. -/
def spilled (es : Entities) : List Stack :=
  match es.ship a.defender with
  | .ok wreck => if a.lootIdUsable es then a.lost es wreck.hold else []
  | .error _ => []

/-- Whether all cargo that is taken off the wreck finds room in the loot.  New loot has room unless
there are more units than can be counted.  Loot that is there already has room if it does not hold
more than its capacity, and again there are not more units than can be counted. -/
def HasRoom (es : Entities) : Prop :=
  ∀ wreck, es.ship a.defender = .ok wreck → a.lootIdUsable es = true →
    match es.loot? a.lootId with
    | some loot => wreck.hold.sum = 0 ∨
        loot.hold.sum ≤ loot.hold.capacity.toNat ∧ loot.hold.sum + wreck.hold.sum ≤ 2 ^ 32 - 1
    | none => wreck.hold.sum ≤ 2 ^ 32 - 1

theorem lost_adjustShip (es : Entities) (id : EntityId) (f : Ship → Ship) (cargo : Hold) :
    a.lost (es.adjustShip id f) cargo = a.lost es cargo := by
  unfold lost
  rw [Entities.loot?_adjustShip]

theorem lost_eq_nil_iff (es : Entities) (cargo : Hold) :
    a.lost es cargo = [] ↔
      match es.loot? a.lootId with
      | some loot => cargo.sum = 0 ∨
          loot.hold.sum ≤ loot.hold.capacity.toNat ∧ loot.hold.sum + cargo.sum ≤ 2 ^ 32 - 1
      | none => cargo.sum ≤ 2 ^ 32 - 1 := by
  unfold lost
  cases es.loot? a.lootId with
  | some loot => exact refused_roomy_eq_nil_iff loot cargo
  | none =>
    simp only []
    rw [← refused_fresh_eq_nil_iff]
    split
    · next hnil => simp [hnil]
    · next hne =>
      -- new loot that takes nothing has been offered something
      have hcontents : cargo.contents ≠ [] := fun hnil => hne (by rw [hnil]; rfl)
      simp [hne, hcontents]

theorem exists_pos_of_lost_ne_nil {es : Entities} {cargo : Hold} (h : a.lost es cargo ≠ []) :
    ∃ s ∈ a.lost es cargo, 0 < s.quantity.toNat := by
  unfold lost at h ⊢
  cases hloot : es.loot? a.lootId with
  | some loot =>
    rw [hloot] at h
    exact Hold.exists_pos_of_refused_ne_nil h
  | none =>
    rw [hloot] at h
    simp only [] at h ⊢
    split
    · next hnil => exact absurd (if_pos hnil) h
    · next hne =>
      obtain ⟨s, hs, hpos⟩ := Hold.exists_pos_of_refused_ne_nil hne
      exact ⟨s, Hold.refused_subset _ _ hs, hpos⟩

/-- Nothing is spilled if and only if there is room. -/
theorem spilled_eq_nil_iff (es : Entities) : a.spilled es = [] ↔ a.HasRoom es := by
  unfold spilled HasRoom
  cases hship : es.ship a.defender with
  | error e => simp
  | ok wreck =>
    cases a.lootIdUsable es with
    | false => simp
    | true =>
      simp only [↓reduceIte, lost_eq_nil_iff]
      exact ⟨fun h _ heq _ => Except.ok.inj heq ▸ h, fun h => h wreck rfl trivial⟩

theorem exists_pos_of_spilled_ne_nil {es : Entities} (h : a.spilled es ≠ []) :
    ∃ s ∈ a.spilled es, 0 < s.quantity.toNat := by
  unfold spilled at h ⊢
  cases hship : es.ship a.defender with
  | error e =>
    rw [hship] at h
    exact absurd rfl h
  | ok wreck =>
    rw [hship] at h
    cases husable : a.lootIdUsable es with
    | false =>
      rw [husable] at h
      exact absurd rfl h
    | true =>
      rw [husable] at h
      exact a.exists_pos_of_lost_ne_nil h

/-! ### Clearing up -/

variable (s : Scene)

theorem units_addToLoot {loot : Loot} (h : s.entities.get? a.lootId = some (.loot loot))
    (cargo : Hold) (m : String) :
    ((a.addToLoot loot cargo.contents).run.run s).2.entities.units m +
        unitsIn m ((roomy loot cargo).refused cargo.contents) =
      s.entities.units m + cargo.units m := by
  obtain ⟨r, hrun⟩ := a.addToLoot_cases s loot cargo.contents
  have hadded : ((roomy loot cargo).addAll cargo.contents).1.units m +
      unitsIn m ((roomy loot cargo).refused cargo.contents) =
        loot.hold.units m + unitsIn m cargo.contents := (roomy loot cargo).units_addAll _ m
  -- the loot changes by what it takes, and the rest is refused
  have hput := Entities.units_adjust h (fun _ => .loot { loot with
    hold := ((roomy loot cargo).addAll cargo.contents).1 }) m
  have hold : (Entity.loot loot).units m = loot.hold.units m := rfl
  have hnew : (Entity.loot { loot with
      hold := ((roomy loot cargo).addAll cargo.contents).1 }).units m =
    ((roomy loot cargo).addAll cargo.contents).1.units m := rfl
  rw [Hold.unitsIn_contents] at hadded
  rw [hrun]
  show (s.entities.adjust a.lootId fun _ => .loot { loot with
    hold := ((roomy loot cargo).addAll cargo.contents).1 }).units m + _ = _
  omega

theorem units_createLoot {wreck : Ship} (h : s.entities.get? a.lootId = none) (m : String) :
    ((a.createLoot wreck wreck.hold.contents).run.run s).2.entities.units m +
        unitsIn m (if (fresh wreck.hold).refused wreck.hold.contents = [] then []
          else wreck.hold.contents) =
      s.entities.units m + wreck.hold.units m := by
  have hnone := (fresh wreck.hold).addAll_snd_eq_none_iff wreck.hold.contents
  obtain ⟨hold, es, hall, hes, hrun⟩ | ⟨hfault, e, hrun⟩ :=
    a.createLoot_cases s wreck wreck.hold.contents
  · have hfit : (fresh wreck.hold).addAll wreck.hold.contents = (hold, none) := hall
    have hrefused : (fresh wreck.hold).refused wreck.hold.contents = [] :=
      hnone.mp (congrArg Prod.snd hfit)
    have hadded := (fresh wreck.hold).units_addAll wreck.hold.contents m
    have hempty : (fresh wreck.hold).units m = 0 := rfl
    have hnew : (Entity.loot ⟨a.lootId, wreck.system, wreck.position, hold⟩).units m =
      hold.units m := rfl
    rw [hfit, hrefused, hempty, unitsIn_nil, Hold.unitsIn_contents] at hadded
    simp only [] at hadded
    rw [hrun, if_pos hrefused, unitsIn_nil]
    show es.units m + 0 = _
    rw [Entities.units_of_add hes, hnew]
    omega
  · have hne : (fresh wreck.hold).refused wreck.hold.contents ≠ [] := by
      rcases hfault with hfault | htaken
      · exact fun hnil => hfault (hnone.mpr hnil)
      · rw [h] at htaken
        cases htaken
    rw [hrun, if_neg hne, Hold.unitsIn_contents]

/-- What is left behind as loot and what is lost make up the cargo. -/
theorem units_leaveLoot (wreck : Ship) (h : a.lootIdUsable s.entities = true) (m : String) :
    ((a.leaveLoot wreck wreck.hold.contents).run.run s).2.entities.units m +
        unitsIn m (a.lost s.entities wreck.hold) =
      s.entities.units m + wreck.hold.units m := by
  cases hempty : wreck.hold.contents.isEmpty with
  | true =>
    rw [List.isEmpty_iff] at hempty
    rw [← Hold.unitsIn_contents]
    unfold leaveLoot lost
    rw [hempty]
    cases s.entities.loot? a.lootId <;> rfl
  | false =>
    unfold leaveLoot lost
    rw [if_pos (by rw [hempty]; rfl), run_bind, run_get]
    unfold lootIdUsable at h
    unfold Entities.loot?
    cases hget : s.entities.get? a.lootId with
    | none =>
      simp only [hget, Option.bind_none]
      exact a.units_createLoot s hget m
    | some e =>
      cases e with
      | loot loot =>
        simp only [hget, Option.bind_some]
        exact a.units_addToLoot s hget wreck.hold m
      | ship | station | deposit =>
        rw [hget] at h
        cases h

/-- What is taken off the wreck is left behind as loot or spilled. -/
theorem units_clearUp {wreck : Ship} (h : s.entities.ship a.defender = .ok wreck) (m : String) :
    (a.clearUp.run.run s).2.entities.units m + unitsIn m (a.spilled s.entities) =
      s.entities.units m := by
  have hget : s.entities.get? a.defender = some (.ship wreck) := Entities.ship_eq_ok.mp h
  unfold clearUp spilled
  simp only [run_bind, run_read, h, strip_run, settleUp_run]
  unfold salvage stripped
  cases husable : a.lootIdUsable s.entities with
  | false => rfl
  | true =>
    have hstrip : (s.entities.adjustShip a.defender
        ({ · with hold := wreck.hold.emptied })).units m + wreck.hold.units m =
          s.entities.units m :=
      Entities.units_adjust hget (·.mapShip ({ · with hold := wreck.hold.emptied })) m
    have hleave := a.units_leaveLoot
      { s with
        entities := s.entities.adjustShip a.defender ({ · with hold := wreck.hold.emptied })
        tracker := s.tracker.halt wreck.position
        stopRequests := s.stopRequests ++ [a.defender]
        credits := s.credits ++ a.bounty
          (s.entities.adjustShip a.defender ({ · with hold := wreck.hold.emptied })) wreck }
      wreck ((a.lootIdUsable_adjustShip ..).trans husable) m
    rw [lost_adjustShip] at hleave
    simp only [↓reduceIte]
    rw [hleave]
    exact hstrip

/-- Whom the attacker attacks does not matter to what is spilled. -/
theorem spilled_disengaged {es : Entities} {wreck : Ship} (h : es.ship a.defender = .ok wreck) :
    a.spilled (a.disengaged es) = a.spilled es := by
  have hhold : (if a.defender = a.attacker then { wreck with attacking := none } else wreck).hold =
      wreck.hold := by
    split
    · rfl
    · rfl
  unfold spilled disengaged
  rw [Entities.ship_adjustShip es _ _ h, h, lootIdUsable_adjustShip]
  simp only [lost_adjustShip, hhold]

theorem units_disengaged (es : Entities) (m : String) :
    (a.disengaged es).units m = es.units m := by
  refine Entities.units_adjustShip_eq ?_ m
  exact fun _ => rfl

theorem units_teardown (m : String) :
    (a.teardown.run.run s).2.entities.units m +
        unitsIn m (if a.isWon s then a.spilled s.entities else []) = s.entities.units m := by
  rw [entities_teardown]
  cases hwon : a.isWon s with
  | false => exact a.units_disengaged s.entities m
  | true =>
    obtain ⟨wreck, hwreck⟩ := a.exists_ship_of_isWon hwon
    have hclear := a.units_clearUp { s with entities := a.disengaged s.entities }
      (Entities.ship_adjustShip s.entities a.attacker _ hwreck) m
    rw [a.spilled_disengaged hwreck] at hclear
    rw [if_pos rfl, if_pos rfl, hclear]
    exact a.units_disengaged s.entities m

/-- A hit moves no material. -/
theorem units_execute (m : String) :
    (a.execute.run.run s).2.entities.units m = s.entities.units m := by
  obtain ⟨x, d, -, hd, hrun⟩ | ⟨e, hrun⟩ := a.execute_cases s
  · have hhold : (a.struck x d).hold = d.hold := by
      unfold struck Ship.absorb
      split <;> split <;> rfl
    rw [hrun]
    refine Entities.units_adjust_eq fun e he => ?_
    rw [Entities.ship_eq_ok.mp hd] at he
    cases he
    exact congrArg (·.units m) hhold
  · rw [hrun]

/-- No hook of an attack loses anything, apart from what is spilled in the end. -/
theorem units_hook (stage : Stage) (m : String) :
    ((a.hook stage).run.run s).2.entities.units m +
        unitsIn m (if stage = .teardown ∧ a.isWon s then a.spilled s.entities else []) =
      s.entities.units m := by
  cases stage with
  | teardown =>
    have hend := a.units_teardown s m
    simp only [true_and]
    exact hend
  | setup =>
    show (a.setup.run.run s).2.entities.units m + _ = _
    rcases a.setup_cases s with hrun | ⟨e, hrun⟩
    · rw [hrun]
      refine Entities.units_adjustShip_eq ?_ m
      exact fun _ => rfl
    · rw [hrun]
      rfl
  | before =>
    obtain ⟨r, hrun⟩ := a.before_cases s
    show (a.before.run.run s).2.entities.units m + _ = _
    rw [hrun]
    rfl
  | execute => exact a.units_execute s m
  | after => rfl
  | stop =>
    have hrun := a.stop_run s
    show (a.stop.run.run s).2.entities.units m + _ = _
    rw [hrun]
    split
    · exact a.units_disengaged s.entities m
    · rfl

end Attack

/-! ### Mining -/

namespace Mining

variable (m : Mining) (s : Scene)

/-- What is mined goes off the deposit and into the hold of the miner. -/
theorem units_mined {es : Entities} {x : Ship} {d : Deposit} {hold : Hold}
    (hx : es.ship m.miner = .ok x) (hd : es.deposit m.deposit = .ok d)
    (hadd : x.hold.add d.material (haul x d) = .ok hold) (material : String) :
    (m.mined es (haul x d) hold).units material = es.units material := by
  obtain ⟨-, -, hunits, -⟩ := Hold.add_spec hadd
  have hdebit := Entities.units_adjust (Entities.deposit_eq_ok.mp hd)
    (·.mapDeposit fun e => { e with quantity := e.quantity - haul x d }) material
  have hcredit := Entities.units_adjust (Entities.ship_eq_ok.mp (m.ship_debited es (haul x d) hx))
    (·.mapShip ({ · with hold := hold })) material
  have hrest : (d.quantity - haul x d).toNat = d.quantity.toNat - (haul x d).toNat :=
    UInt32.toNat_sub_of_le _ _ (UInt32.le_iff_toNat_le.mpr (haul_le x d).1)
  have hle := (haul_le x d).1
  have hall : (m.mined es (haul x d) hold).units material + x.hold.units material =
      (m.debited es (haul x d)).units material +
        (x.hold.units material + if d.material = material then (haul x d).toNat else 0) := by
    rw [← hunits]
    exact hcredit
  have hdebited : (m.debited es (haul x d)).units material +
      (if d.material = material then d.quantity.toNat else 0) = es.units material +
        if d.material = material then d.quantity.toNat - (haul x d).toNat else 0 := by
    rw [← hrest]
    exact hdebit
  -- the deposit is debited by what the miner is credited with
  by_cases hm : d.material = material
  · rw [if_pos hm] at hall
    rw [if_pos hm, if_pos hm] at hdebited
    omega
  · rw [if_neg hm] at hall
    rw [if_neg hm, if_neg hm] at hdebited
    omega

/-- No hook of a mining run loses anything. -/
theorem units_hook (stage : Stage) (material : String) :
    ((m.hook stage).run.run s).2.entities.units material = s.entities.units material := by
  have hengaged : (m.engaged s.entities).units material = s.entities.units material := by
    refine Entities.units_adjustShip_eq ?_ material
    exact fun _ => rfl
  have hreleased : (m.released s.entities).units material = s.entities.units material := by
    refine Entities.units_adjustShip_eq ?_ material
    exact fun _ => rfl
  cases stage with
  | setup =>
    show (m.setup.run.run s).2.entities.units material = _
    rcases m.setup_cases s with hrun | ⟨e, hrun⟩
    · rw [hrun]
      exact hengaged
    · rw [hrun]
  | before => rfl
  | execute =>
    show (m.execute.run.run s).2.entities.units material = _
    obtain ⟨r, hrun⟩ | ⟨x, d, hold, hx, hd, hadd, hrun⟩ := m.execute_cases s
    · rw [hrun]
    · rw [hrun]
      exact m.units_mined hx hd hadd material
  | after => rfl
  | teardown => exact hreleased
  | stop =>
    show (m.stop.run.run s).2.entities.units material = _
    rw [m.stop_run s]
    split
    · exact hreleased
    · rfl

end Mining

end Orrery
