import Orrery.Command.Mining
import Orrery.Proofs.Action
import Orrery.Proofs.Entities
import Orrery.Proofs.Units

/-!
# The hooks of a mining run

What each hook of a mining run leaves behind, in terms of outlines and events.  Only the miner's own
`mining` mark changes; a cycle of mining shows in no outline at all (`execute_cases`).
-/

namespace Orrery.Mining

variable (m : Mining) (s : Scene)

/-- What a ship can mine is there, and so is the ship, alive. -/
theorem outlines_of_obstacle?_eq_none {m : Mining} {s : Scene} (h : m.obstacle? s = none) :
    (s.entities.outline? m.miner).any Outline.isLive = true ∧
      s.entities.outline? m.deposit = some .deposit := by
  unfold obstacle? at h
  split at h
  · cases h
  · next ship hship =>
    split at h
    · cases h
    · next deposit hdeposit =>
      rw [Entities.outline?_of_ship hship, Entities.outline?_of_deposit hdeposit]
      cases halive : ship.alive with
      | true => exact ⟨halive, rfl⟩
      | false =>
        rw [halive] at h
        cases h

/-- The entities when the miner mines the deposit. -/
def engaged (es : Entities) : Entities :=
  es.adjustShip m.miner ({ · with mining := m.deposit })

theorem outline?_engaged (es : Entities) :
    (m.engaged es).outline? = reviseIf true m.miner (·.mine m.deposit) es.outline? :=
  Entities.outline?_adjustShip (fun _ => rfl) rfl

/-- The miner turns to the deposit if both are there; otherwise nothing happens. -/
theorem setup_cases :
    m.setup.run.run s = (.ok (), { s with entities := m.engaged s.entities }) ∨
      ∃ e, m.setup.run.run s = (.error e, s) := by
  unfold setup
  rw [run_bind, run_read]
  cases hd : s.entities.deposit m.deposit with
  | error e => exact .inr ⟨_, rfl⟩
  | ok d =>
    simp only []
    rw [run_bind, run_read]
    cases hx : s.entities.ship m.miner with
    | error e => exact .inr ⟨_, rfl⟩
    | ok x => exact .inl rfl

/-! ### Cycles -/

/-- How many units the next cycle is to move. -/
def haul (x : Ship) (d : Deposit) : UInt32 :=
  Units.least (Units.least x.miningQuantity d.quantity) x.hold.free

theorem haul_le (x : Ship) (d : Deposit) :
    (haul x d).toNat ≤ d.quantity.toNat ∧ (haul x d).toNat ≤ x.hold.free.toNat := by
  unfold haul
  rw [Units.toNat_least, Units.toNat_least]
  omega

/-- What is hauled fits. -/
theorem exists_add_haul (x : Ship) (d : Deposit) :
    ∃ hold, x.hold.add d.material (haul x d) = .ok hold := by
  have hfits : x.hold.canAccept (haul x d) = true :=
    decide_eq_true (UInt32.le_iff_toNat_le.mpr (haul_le x d).2)
  exact ⟨_, if_pos hfits⟩

/-- The entities when the deposit has been debited. -/
def debited (es : Entities) (quantity : UInt32) : Entities :=
  es.adjustDeposit m.deposit fun d => { d with quantity := d.quantity - quantity }

/-- The entities after a cycle. -/
def mined (es : Entities) (quantity : UInt32) (hold : Hold) : Entities :=
  (m.debited es quantity).adjustShip m.miner ({ · with hold := hold })

theorem outline?_mined (es : Entities) (quantity : UInt32) (hold : Hold) :
    (m.mined es quantity hold).outline? = es.outline? := by
  rw [mined, Entities.outline?_adjustShip_eq, debited, Entities.outline?_adjustDeposit]
  exact fun _ => rfl

theorem ship_debited (es : Entities) (quantity : UInt32) {x : Ship}
    (h : es.ship m.miner = .ok x) : (m.debited es quantity).ship m.miner = .ok x := by
  rw [Entities.ship_eq_ok] at h ⊢
  rw [debited, Entities.adjustDeposit, Entities.get?_adjust, h]
  split <;> rfl

/-- A cycle moves what is hauled, if that is anything. -/
theorem execute_run {x : Ship} {d : Deposit} (hx : s.entities.ship m.miner = .ok x)
    (hd : s.entities.deposit m.deposit = .ok d) (hhaul : haul x d ≠ 0) :
    ∃ hold, x.hold.add d.material (haul x d) = .ok hold ∧ m.execute.run.run s = (.ok (),
      { s with entities := m.mined s.entities (haul x d) hold }.announce
        ⟨.resourceCollected, m.miner, m.deposit, .resource d.material (haul x d)⟩) := by
  -- the deposit is debited first, but then the miner is there still and has room
  obtain ⟨hold, hhold⟩ := exists_add_haul x d
  have hship := m.ship_debited s.entities (haul x d) hx
  refine ⟨hold, hhold, ?_⟩
  unfold haul at hhold hship hhaul ⊢
  unfold debited at hship
  have hsome : (Units.least (Units.least x.miningQuantity d.quantity) x.hold.free == 0) = false :=
    beq_eq_false_iff_ne.mpr hhaul
  unfold execute
  simp only [run_bind, run_read, hx, hd, hsome, Bool.false_eq_true, ↓reduceIte, run_change, hship,
    hhold, run_modify]
  rfl

/-- A cycle changes nothing or moves what is hauled; it never stops in between. -/
theorem execute_cases :
    (∃ r, m.execute.run.run s = (r, s)) ∨
    ∃ x d hold, s.entities.ship m.miner = .ok x ∧ s.entities.deposit m.deposit = .ok d ∧
      x.hold.add d.material (haul x d) = .ok hold ∧
      m.execute.run.run s = (.ok (),
        { s with entities := m.mined s.entities (haul x d) hold }.announce
          ⟨.resourceCollected, m.miner, m.deposit, .resource d.material (haul x d)⟩) := by
  cases hx : s.entities.ship m.miner with
  | error e =>
    unfold execute
    simp only [run_bind, run_read, hx]
    exact .inl ⟨_, rfl⟩
  | ok x =>
    cases hd : s.entities.deposit m.deposit with
    | error e =>
      unfold execute
      simp only [run_bind, run_read, hx, hd]
      exact .inl ⟨_, rfl⟩
    | ok d =>
      by_cases hhaul : haul x d = 0
      · have hnone : (Units.least (Units.least x.miningQuantity d.quantity) x.hold.free == 0) =
            true := beq_iff_eq.mpr hhaul
        unfold execute
        simp only [run_bind, run_read, hx, hd, hnone, ↓reduceIte]
        exact .inl ⟨_, rfl⟩
      · obtain ⟨hold, hhold, hrun⟩ := m.execute_run s hx hd hhaul
        exact .inr ⟨x, d, hold, rfl, rfl, hhold, hrun⟩

/-! ### The end -/

/-- The entities when the miner mines nothing any more. -/
def released (es : Entities) : Entities := es.adjustShip m.miner ({ · with mining := none })

theorem outline?_released (es : Entities) :
    (m.released es).outline? = reviseIf true m.miner (·.mine none) es.outline? :=
  Entities.outline?_adjustShip (fun _ => rfl) rfl

theorem finish_run (reason : String) : (m.finish reason).run.run s =
    (.ok (), { s with entities := m.released s.entities }.announce
      ⟨.miningStopped, m.miner, m.deposit, .reason reason⟩) := rfl

/-- Whether the miner still mines the deposit. -/
def isEngaged (es : Entities) : Bool :=
  (es.outline? m.miner).any (·.mining? == some m.deposit)

theorem stop_run : (m.stop.run.run s).2 =
    if m.isEngaged s.entities then
      { s with entities := m.released s.entities }.announce
        ⟨.miningStopped, m.miner, m.deposit, .reason "stopped"⟩
    else s := by
  unfold stop isEngaged
  rw [run_bind, run_get]
  simp only []
  cases hship : s.entities.ship m.miner with
  | error e =>
    have hnone : (s.entities.outline? m.miner).any (·.mining? == some m.deposit) = false := by
      cases ho : s.entities.outline? m.miner with
      | none => rfl
      | some o =>
        rw [Entities.outline?_of_error hship o ho]
        rfl
    rw [hnone]
    rfl
  | ok miner =>
    have hsome : (s.entities.outline? m.miner).any (·.mining? == some m.deposit) =
        (miner.mining == some m.deposit) := by
      rw [Entities.outline?_of_ship hship]
      rfl
    rw [hsome]
    cases h : miner.mining == some m.deposit with
    | false =>
      simp only [h]
      rfl
    | true => simp only [h, ↓reduceIte, finish_run]

end Orrery.Mining
