import Orrery.Proofs.Success

/-!
# Hits on one ship

What is left of a ship depends on nothing but the sum of the damage so far (`Ship.worn`): a hit adds
to the sum (`Ship.absorb_worn`), and the hit with which the sum reaches shield and hit points
destroys the ship (`Ship.hitBy`).  As long as it is alive, every tick of an attack by a ship that
threatens it lands one hit, and the attack is over just if that was the last one
(`Attack.succeeds`, `Attack.isOver_attackOn`).
-/

namespace Orrery

variable {κ ε : Type}

/-! ### Damage -/

/-- The damage that some ships do with one hit each. -/
def volley (xs : List Ship) : Nat := (xs.map fun x => x.damage.toNat).sum

@[simp] theorem volley_nil : volley [] = 0 := rfl

@[simp] theorem volley_cons (x : Ship) (xs : List Ship) :
    volley (x :: xs) = x.damage.toNat + volley xs := List.sum_cons

@[simp] theorem volley_append (xs ys : List Ship) : volley (xs ++ ys) = volley xs + volley ys := by
  simp [volley]

namespace Ship

variable (d : Ship) {total : Nat}

/-- The damage that destroys a ship. -/
def strength : Nat := d.shield.toNat + d.hp.toNat

/-- What is left of a ship after so much damage in all. -/
def worn (total : Nat) : Ship :=
  { d with
    shield := .ofNat (d.shield.toNat - total)
    hp := .ofNat (d.hp.toNat - (total - d.shield.toNat)) }

/-- The same when the last hit was that of the given attacker. -/
def hitBy (attacker : EntityId) (total : Nat) : Ship :=
  { d.worn total with
    destroyedBy := if d.strength ≤ total then some attacker else d.destroyedBy }

theorem toNat_shield_worn (total : Nat) :
    (d.worn total).shield.toNat = d.shield.toNat - total := by
  have hshield := d.shield.toNat_lt
  rw [worn, UInt32.toNat_ofNat']
  exact Nat.mod_eq_of_lt (by omega)

theorem toNat_hp_worn (total : Nat) :
    (d.worn total).hp.toNat = d.hp.toNat - (total - d.shield.toNat) := by
  have hhp := d.hp.toNat_lt
  rw [worn, UInt32.toNat_ofNat']
  exact Nat.mod_eq_of_lt (by omega)

theorem worn_zero : d.worn 0 = d := by
  simp [worn]

/-- A ship is alive if it had hit points, as long as the damage has not reached its strength. -/
theorem alive_worn_iff (total : Nat) :
    (d.worn total).alive = true ↔ 0 < d.hp.toNat ∧ total < d.strength := by
  have hworn := d.toNat_hp_worn total
  unfold alive strength
  rw [decide_eq_true_iff, UInt32.lt_iff_toNat_lt, hworn, UInt32.toNat_zero]
  omega

theorem alive_worn (hd : 0 < d.hp) (total : Nat) :
    (d.worn total).alive = decide (total < d.strength) := by
  have hhull : 0 < d.hp.toNat := UInt32.lt_iff_toNat_lt.mp hd
  rw [Bool.eq_iff_iff, alive_worn_iff, decide_eq_true_iff, and_iff_right hhull]

/-- Damage that grows from `total` to `total'` destroys the ship: it had hit points, and its
strength has not been made up before. -/
def Falls (total total' : Nat) : Prop :=
  0 < d.hp.toNat ∧ total < d.strength ∧ d.strength ≤ total'

instance (total total' : Nat) : Decidable (d.Falls total total') :=
  inferInstanceAs (Decidable (_ ∧ _ ∧ _))

/-- A hit adds its damage to what there has been, and tells whether that destroys the ship. -/
theorem absorb_worn_eq (total : Nat) (damage : UInt32) :
    (d.worn total).absorb damage =
      (d.worn (total + damage.toNat), decide (d.Falls total (total + damage.toNat))) := by
  have hshield := d.toNat_shield_worn total
  have hshield' := d.toNat_shield_worn (total + damage.toNat)
  have hhp := d.toNat_hp_worn total
  have hhp' := d.toNat_hp_worn (total + damage.toNat)
  by_cases habsorbed : damage ≤ (d.worn total).shield
  · -- the shield takes it all
    have hle := UInt32.le_iff_toNat_le.mp habsorbed
    have hleft : (d.worn total).shield - damage = (d.worn (total + damage.toNat)).shield := by
      rw [← UInt32.toNat_inj, UInt32.toNat_sub_of_le _ _ habsorbed]
      omega
    have hspared : (d.worn total).hp = (d.worn (total + damage.toNat)).hp := by
      rw [← UInt32.toNat_inj]
      omega
    have hsurvives : ¬ d.Falls total (total + damage.toNat) := by
      rintro ⟨hhull, hbefore, hafter⟩
      unfold strength at hbefore hafter
      omega
    rw [absorb, if_pos habsorbed, decide_eq_false hsurvives, hleft, hspared]
    rfl
  · have hlt := UInt32.le_iff_toNat_le.not.mp habsorbed
    have hleft : Units.minus (d.worn total).hp (damage - (d.worn total).shield) =
        (d.worn (total + damage.toNat)).hp := by
      rw [← UInt32.toNat_inj, Units.toNat_minus,
        UInt32.toNat_sub_of_le _ _ (UInt32.le_iff_toNat_le.mpr (by omega))]
      omega
    have hnone : 0 = (d.worn (total + damage.toNat)).shield := by
      rw [← UInt32.toNat_inj, UInt32.toNat_zero]
      omega
    have hhit : ({ d.worn total with
        shield := 0
        hp := Units.minus (d.worn total).hp (damage - (d.worn total).shield) } : Ship) =
          d.worn (total + damage.toNat) := by
      rw [hleft, hnone]
      rfl
    -- it was alive before, and is not alive after
    have hfalls : ((d.worn total).alive && !(d.worn (total + damage.toNat)).alive) =
        decide (d.Falls total (total + damage.toNat)) := by
      rw [Bool.eq_iff_iff, Bool.and_eq_true, Bool.not_eq_true', ← Bool.not_eq_true,
        alive_worn_iff, alive_worn_iff, decide_eq_true_iff, Falls]
      omega
    simp only [absorb, if_neg habsorbed, hhit, hfalls]

/-- A hit on a ship that is alive destroys it if the damage makes up its strength. -/
theorem absorb_worn (hd : 0 < d.hp) {total : Nat} (h : total < d.strength) (damage : UInt32) :
    (d.worn total).absorb damage =
      (d.worn (total + damage.toNat), decide (d.strength ≤ total + damage.toNat)) := by
  have hhull : 0 < d.hp.toNat := UInt32.lt_iff_toNat_lt.mp hd
  rw [absorb_worn_eq, decide_eq_decide.mpr]
  exact (and_iff_right hhull).trans (and_iff_right h)

theorem hitBy_of_lt (attacker : EntityId) {total : Nat} (h : total < d.strength) :
    d.hitBy attacker total = d.worn total := by
  rw [hitBy, if_neg (Nat.not_le.mpr h)]
  rfl

/-- Nothing is left of a ship when the damage has reached its strength. -/
theorem vitals_hitBy (attacker : EntityId) {total : Nat} (h : d.strength ≤ total) :
    (d.hitBy attacker total).vitals = ⟨0, 0, some attacker⟩ := by
  have htotal : d.shield.toNat + d.hp.toNat ≤ total := h
  have hshield : (d.worn total).shield = 0 := by
    rw [← UInt32.toNat_inj, toNat_shield_worn, UInt32.toNat_zero]
    omega
  have hhp : (d.worn total).hp = 0 := by
    rw [← UInt32.toNat_inj, toNat_hp_worn, UInt32.toNat_zero]
    omega
  simp only [hitBy, vitals, if_pos h, hshield, hhp]

end Ship

/-- Who listens to a ship does not matter for what a hit does to it. -/
theorem Attack.struck_withEvents (a : Attack) (x d : Ship) (events : EventTable) :
    a.struck x { d with events := events } = { a.struck x d with events := events } := by
  unfold struck Ship.absorb
  by_cases habsorbed : x.damage ≤ d.shield
  · simp only [habsorbed, ↓reduceIte, Bool.false_eq_true]
  · simp only [habsorbed, ↓reduceIte, Ship.alive]
    split <;> rfl

theorem Attack.struck_worn (a : Attack) (x : Ship) {d : Ship} (hd : 0 < d.hp) {total : Nat}
    (h : total < d.strength) :
    a.struck x (d.worn total) = d.hitBy a.attacker (total + x.damage.toNat) := by
  rw [struck, d.absorb_worn hd h]
  by_cases hdestroyed : d.strength ≤ total + x.damage.toNat
  · simp only [hdestroyed, decide_true, ↓reduceIte, Ship.hitBy]
  · rw [d.hitBy_of_lt _ (Nat.not_le.mp hdestroyed), decide_eq_false hdestroyed,
      if_neg Bool.noConfusion]

/-! ### One attack -/

namespace Ship

variable {x d : Ship} {tracker : Tracker}

/-- What a ship has to be like for it to attack another one, as long as that is alive. -/
structure Threatens (x d : Ship) (tracker : Tracker) : Prop where
  alive : x.alive = true
  distinct : x.id ≠ d.id
  system : x.system = d.system
  reach : ∃ distance, tracker.distanceBetween x.position d.position = some distance ∧
    Scalar.le distance x.attackDistance = true
  /-- It attacks nobody before. -/
  idle : x.attacking = none
  mining : x.mining = none
  damage : 0 < x.damage

/-- A ship that attacks another one, or nobody. -/
def facing (x d : Ship) (engaged : Bool) : Ship :=
  { x with attacking := if engaged then some d.id else none }

theorem Threatens.facing_false (h : x.Threatens d tracker) : x.facing d false = x :=
  congrArg (fun target => ({ x with attacking := target } : Ship)) h.idle.symm

/-- The attack of one ship on another one. -/
def attackOn (x d : Ship) : Attack := ⟨x.id, d.id⟩

end Ship

namespace Attack

variable {x d : Ship} {total : Nat} {engaged : Bool} {victor : EntityId} {scene : Scene}

/-- An attack is possible as long as the defender is alive. -/
theorem isPossible_attackOn (h : x.Threatens d scene.tracker) (hd : 0 < d.hp)
    (hx : scene.entities.Shows x.id (x.facing d engaged))
    (hdefender : scene.entities.Shows d.id (d.hitBy victor total)) :
    (x.attackOn d).isPossible scene = decide (total < d.strength) := by
  obtain ⟨events, hx⟩ := hx
  obtain ⟨events', hdefender⟩ := hdefender
  obtain ⟨distance, hdistance, hreach⟩ := h.reach
  have halive : (d.hitBy victor total).alive = decide (total < d.strength) := d.alive_worn hd total
  have hcan : ({ x.facing d engaged with events := events } : Ship).canAttack
      { d.hitBy victor total with events := events' } distance =
        decide (total < d.strength) := by
    rw [← halive]
    cases engaged <;>
      simp [Ship.canAttack, Ship.facing, Ship.hitBy, Ship.worn, Ship.alive, h.distinct, h.system,
        hreach, h.mining, h.damage, of_decide_eq_true h.alive]
  unfold isPossible Ship.attackOn
  simp only [hx, hdefender]
  rw [← hcan]
  exact (congrArg (Option.any _) hdistance).trans rfl

/-- It is over when the defender is destroyed. -/
theorem isOver_attackOn (h : x.Threatens d scene.tracker) (hd : 0 < d.hp)
    (hx : scene.entities.Shows x.id (x.facing d engaged))
    (hdefender : scene.entities.Shows d.id (d.hitBy victor total)) :
    (x.attackOn d).isOver scene = decide (d.strength ≤ total) := by
  have hpossible := isPossible_attackOn h hd hx hdefender
  obtain ⟨events, hdefender⟩ := hdefender
  have halive : ({ d.hitBy victor total with events := events } : Ship).alive =
      decide (total < d.strength) := d.alive_worn hd total
  have hdefender' : scene.entities.ship (x.attackOn d).defender = _ := hdefender
  simp only [isOver, hdefender', hpossible, halive, ← decide_not, Nat.not_lt, Bool.or_self]

/-- The one who landed the last hit has won. -/
theorem isWon_attackOn (hd : 0 < d.hp) (htotal : d.strength ≤ total)
    (hdefender : scene.entities.Shows d.id (d.hitBy x.id total)) :
    (x.attackOn d).isWon scene = true := by
  obtain ⟨events, hdefender⟩ := hdefender
  have halive : ({ d.hitBy x.id total with events := events } : Ship).alive = false :=
    (d.alive_worn hd total).trans (decide_eq_false (Nat.not_lt.mpr htotal))
  have hdefender' : scene.entities.ship (x.attackOn d).defender = _ := hdefender
  simp only [isWon, hdefender', halive, Bool.not_false, Bool.true_and]
  show ((if d.strength ≤ total then some x.id else d.destroyedBy) == some x.id) = true
  rw [if_pos htotal]
  exact beq_self_eq_true _

/-- When the command is set up the attacker faces the defender, and nothing else has changed. -/
theorem exists_ready {isSetUp : Bool} {s : Setting κ ε} {d' : Ship} (hne : x.id ≠ d.id)
    (hx : s.entities.Shows x.id (x.facing d isSetUp)) (hdefender : s.entities.Shows d.id d') :
    ∃ ready, (if isSetUp then ready = s.scene.entities
        else ((x.attackOn d).hook .setup).run.run s.scene =
          (.ok (), { s.scene with entities := ready })) ∧
      ready.Shows x.id (x.facing d true) ∧ ready.Shows d.id d' ∧
      ∀ {j y}, j ≠ x.id → s.entities.Shows j y → ready.Shows j y := by
  cases isSetUp with
  | true => exact ⟨s.entities, rfl, hx, hdefender, fun _ hy => hy⟩
  | false =>
    refine ⟨(x.attackOn d).engaged s.entities, ?_, hx.adjustShip_self fun events => ⟨events, rfl⟩,
      hdefender.adjustShip_of_ne hne.symm _, fun hj hy => hy.adjustShip_of_ne hj _⟩
    obtain ⟨events, hx⟩ := hx
    obtain ⟨events', hdefender⟩ := hdefender
    show (x.attackOn d).setup.run.run s.scene = _
    unfold setup
    simp only [run_bind, run_read, Setting.scene, Ship.attackOn, hx, hdefender]
    rfl

/-- All hooks of a tick succeed as long as the defender is alive, and the defender is hit. -/
theorem succeeds {progress : Progress} (hrate : progress.rate = none) {s : Setting κ ε}
    (h : x.Threatens d s.tracker) (hd : 0 < d.hp) (htotal : total < d.strength)
    (hx : s.entities.Shows x.id (x.facing d progress.isSetUp))
    (hdefender : s.entities.Shows d.id (d.worn total)) : ∃ ready left,
      (Command.attack (x.attackOn d) progress : Command κ).Succeeds (x.attackOn d).hook s.scene
        ready left ∧
      left.entities.Shows x.id (x.facing d true) ∧
      left.entities.Shows d.id (d.hitBy x.id (total + x.damage.toNat)) ∧
      ∀ {j y}, j ≠ x.id → j ≠ d.id → s.entities.Shows j y → left.entities.Shows j y := by
  obtain ⟨ready, hsetup, hx', hdefender', hothers⟩ := exists_ready h.distinct hx hdefender
  have hhit := hdefender'
  rw [← d.hitBy_of_lt x.id htotal] at hdefender'
  have hfeasible : (x.attackOn d).isPossible { s.scene with entities := ready } =
      decide (total < d.strength) := isPossible_attackOn h hd hx' hdefender'
  obtain ⟨events, hready⟩ := hx'
  obtain ⟨events', hready'⟩ := hhit
  have hrun := (x.attackOn d).execute_run { s.scene with entities := ready } hready hready'
  have hbefore : (x.attackOn d).before.run.run { s.scene with entities := ready } =
      (.ok (), { s.scene with entities := ready }) := by
    unfold before
    simp only [run_bind, run_read, Ship.attackOn, hready, hready']
    rfl
  have hstruck : (x.attackOn d).struck { x.facing d true with events := events }
      { d.worn total with events := events' } =
        { d.hitBy x.id (total + x.damage.toNat) with events := events' } := by
    rw [struck_withEvents, struck_worn _ _ hd htotal]
    rfl
  rw [hstruck] at hrun
  refine ⟨ready, _,
    { hooks := rfl
      unthrottled := hrate
      setup := hsetup
      before := hbefore
      feasible := hfeasible.trans (decide_eq_true htotal)
      execute := hrun
      tracker := rfl
      stopRequests := rfl }, ?_, ?_, fun hne hne' hy => ?_⟩
  · exact Entities.Shows.adjustShip_of_ne ⟨events, hready⟩ h.distinct _
  · exact Entities.Shows.adjustShip_self ⟨events', hready'⟩ fun _ => ⟨events', rfl⟩
  · exact (hothers hne hy).adjustShip_of_ne hne' _

end Attack

end Orrery
