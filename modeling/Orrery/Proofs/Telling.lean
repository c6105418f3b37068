import Orrery.Proofs.Credits
import Orrery.Proofs.Write

/-!
# What hooks tell

An attack and a mining run raise the events of one cycle whenever they are executed, and those of
the end when they are torn down, or stopped after they were set up; their other hooks raise nothing
(`Deed.IsTold`).  Listeners are told of those events for which somebody listens when the hook ends,
which are all of them as long as the ships that they are about are there and have listeners.
-/

namespace Orrery

variable {κ ε : Type}

/-! ### Listeners -/

namespace Entities

/-- Every ship has listeners for every kind of event. -/
def Attended (es : Entities) : Prop :=
  ∀ id s, es.get? id = some (.ship s) → ∀ kind, s.events.subscriptions kind ≠ []

/-- Whether anybody listens to an event. -/
def hears (es : Entities) (e : EntityEvent) : Bool := (es.announcement? e).isSome

variable {es es' : Entities}

theorem Attended.retains (h : es.Attended) (hes : es.Retains es') : es'.Attended := by
  intro id s' hs' kind
  obtain ⟨s, hs, hevents⟩ := hes.exists_ship_before hs'
  rw [hevents]
  exact h id s hs kind

theorem Attended.hears (h : es.Attended) {e : EntityEvent} {s : Ship}
    (hs : es.get? e.entity = some (.ship s)) : es.hears e = true := by
  simp [Entities.hears, announcement?, hs, Entity.events?, h e.entity s hs e.kind]

theorem event_of_announcement? {e : EntityEvent} {a : Announcement}
    (h : es.announcement? e = some a) : a.event = e := by
  unfold announcement? at h
  obtain ⟨x, -, h⟩ := Option.bind_eq_some_iff.mp h
  obtain ⟨events, -, h⟩ := Option.bind_eq_some_iff.mp h
  simp only [] at h
  split at h
  · cases h
  · cases h
    rfl

end Entities

/-- What was raised has been announced to those who listen now. -/
def Scene.Announces (s : Scene) : Prop :=
  s.announcements = s.raised.filterMap s.entities.announcement?

/-- Nothing has been raised yet. -/
def Scene.IsUntold (s : Scene) : Prop := s.raised = [] ∧ s.announcements = []

theorem Scene.IsUntold.announces {s : Scene} (h : s.IsUntold) : s.Announces := by
  unfold Announces
  rw [h.1, h.2]
  rfl

theorem Scene.Announces.announce {s : Scene} (h : s.Announces) (e : EntityEvent) :
    (s.announce e).Announces := by
  unfold Announces at h ⊢
  simp only [Scene.announce, List.filterMap_append, h]
  congr 1

theorem Scene.Announces.map_event {s : Scene} (h : s.Announces) :
    s.announcements.map (·.event) = s.raised.filter s.entities.hears := by
  unfold Announces at h
  rw [h]
  induction s.raised with
  | nil => rfl
  | cons e es ih =>
    cases ha : s.entities.announcement? e with
    | none =>
      rw [List.filterMap_cons_none ha, List.filter_cons_of_neg (by simp [Entities.hears, ha]), ih]
    | some a =>
      rw [List.filterMap_cons_some ha, List.filter_cons_of_pos (by simp [Entities.hears, ha]),
        List.map_cons, Entities.event_of_announcement? ha, ih]

/-! ### Deposits -/

/-- The units that the event says changed hands. -/
def EntityEvent.units (e : EntityEvent) : Nat :=
  match e.payload with
  | .resource _ quantity => quantity.toNat
  | _ => 0

namespace Entities

/-- The units that are left in a deposit. -/
def reserve (es : Entities) (id : EntityId) : Nat :=
  ((es.get? id).bind Entity.deposit?).elim 0 (·.quantity.toNat)

theorem reserve_adjustShip (es : Entities) (id : EntityId) (f : Ship → Ship) :
    (es.adjustShip id f).reserve = es.reserve := by
  funext j
  unfold reserve
  rw [adjustShip, get?_adjust]
  split
  · cases es.get? j with
    | none => rfl
    | some e => cases e <;> rfl
  · rfl

end Entities

/-! ### Attacks -/

namespace Attack

variable (a : Attack) {s : Scene}

/-- What both sides are told of a hit. -/
def blow : List EntityEvent :=
  [eventTo .attacked a.attacker a.defender, eventTo .defended a.defender a.attacker]

/-- An attack can be set up only if both ships are there. -/
theorem ships_of_setup (h : (a.setup.run.run s).1 = .ok ()) :
    ∃ x d, s.entities.ship a.attacker = .ok x ∧ s.entities.ship a.defender = .ok d := by
  unfold setup at h
  rw [run_bind, run_read] at h
  cases hd : s.entities.ship a.defender with
  | error e =>
    rw [hd] at h
    cases h
  | ok d =>
    simp only [hd] at h
    rw [run_bind, run_read] at h
    cases hx : s.entities.ship a.attacker with
    | error e =>
      rw [hx] at h
      cases h
    | ok x => exact ⟨x, d, rfl, rfl⟩

theorem keeps_announceEnd : Keeps Scene.Announces a.announceEnd := by
  refine (Keeps.modify fun _ hs => hs.announce _).bind fun _ =>
    (Keeps.modify fun _ hs => hs.announce _).bind fun _ => Keeps.get.bind fun _ => ?_
  split
  · exact Keeps.modify fun _ hs => hs.announce _
  · exact Keeps.pure _

/-- Listeners are told of what was raised, when all has been done. -/
theorem announces_hook (stage : Stage) (hs : s.IsUntold) :
    ((a.hook stage).run.run s).2.Announces := by
  cases stage with
  | setup =>
    obtain hrun | ⟨e, hrun⟩ := a.setup_cases s
    · rw [hook, hrun]
      exact Scene.IsUntold.announces ⟨hs.1, hs.2⟩
    · rw [hook, hrun]
      exact hs.announces
  | before =>
    obtain ⟨r, hrun⟩ := a.before_cases s
    rw [hook, hrun]
    exact hs.announces
  | execute =>
    obtain ⟨x, d, -, -, hrun⟩ | ⟨e, hrun⟩ := a.execute_cases s
    · rw [hook, hrun]
      have hstart : Scene.Announces
          { s with entities := s.entities.adjustShip a.defender fun _ => a.struck x d } :=
        Scene.IsUntold.announces hs
      exact (hstart.announce _).announce _
    · rw [hook, hrun]
      exact hs.announces
  | after => exact hs.announces
  | stop =>
    rw [hook, a.stop_run]
    split
    · simp only [Scene.Announces, hs.1, hs.2, List.nil_append]
    · exact hs.announces
  | teardown =>
    rw [hook, teardown_left]
    -- clearing up tells nobody anything, so all that is raised is the end
    refine a.keeps_announceEnd _ (Scene.IsUntold.announces ?_)
    split
    · next hwon =>
      obtain ⟨wreck, hwreck⟩ := a.exists_ship_of_isWon
        (s := { s with entities := a.disengaged s.entities }) ((a.isWon_of_outline rfl).trans hwon)
      obtain ⟨r, es, hclear, -⟩ := a.clearUp_spec _ hwreck
      rw [hclear]
      exact hs
    · exact hs

end Attack

/-! ### Mining runs -/

namespace Mining

variable (m : Mining) {s : Scene}

/-- A mining run can be set up only if the ship is there. -/
theorem ship_of_setup (h : (m.setup.run.run s).1 = .ok ()) :
    ∃ x, s.entities.ship m.miner = .ok x := by
  unfold setup at h
  rw [run_bind, run_read] at h
  cases hd : s.entities.deposit m.deposit with
  | error e =>
    rw [hd] at h
    cases h
  | ok d =>
    simp only [hd] at h
    rw [run_bind, run_read] at h
    cases hx : s.entities.ship m.miner with
    | error e =>
      rw [hx] at h
      cases h
    | ok x => exact ⟨x, rfl⟩

/-- Listeners are told of what was raised, when all has been done. -/
theorem announces_hook (stage : Stage) (hs : s.IsUntold) :
    ((m.hook stage).run.run s).2.Announces := by
  have hstart : ∀ es, Scene.Announces { s with entities := es } := fun _ =>
    Scene.IsUntold.announces hs
  cases stage with
  | setup =>
    obtain hrun | ⟨e, hrun⟩ := m.setup_cases s
    · rw [hook, hrun]
      exact hstart _
    · rw [hook, hrun]
      exact hs.announces
  | before | after => exact hs.announces
  | execute =>
    obtain ⟨r, hrun⟩ | ⟨x, d, hold, -, -, -, hrun⟩ := m.execute_cases s
    · rw [hook, hrun]
      exact hs.announces
    · rw [hook, hrun]
      exact (hstart _).announce _
  | teardown => exact (hstart _).announce _
  | stop =>
    rw [hook, m.stop_run]
    split
    · exact (hstart _).announce _
    · exact hs.announces

/-- A ship that can mine hauls something. -/
theorem exists_haul (h : m.obstacle? s = none) : ∃ x d, s.entities.ship m.miner = .ok x ∧
    s.entities.deposit m.deposit = .ok d ∧ haul x d ≠ 0 := by
  unfold obstacle? at h
  cases hx : s.entities.ship m.miner with
  | error e =>
    rw [hx] at h
    cases h
  | ok x =>
    cases hd : s.entities.deposit m.deposit with
    | error e =>
      simp only [hx, hd] at h
      cases h
    | ok d =>
      refine ⟨x, d, rfl, rfl, fun hnone => ?_⟩
      have hpositive : 0 < x.miningQuantity.toNat ∧ 0 < d.quantity.toNat ∧
          0 < x.hold.free.toNat := by
        simp only [hx, hd, ite_eq_iff, reduceCtorEq, and_false, false_or] at h
        obtain ⟨-, -, -, -, h⟩ := h
        split at h
        · cases h
        · split at h
          · next hcan =>
            simp only [Ship.canMine, Bool.and_eq_true, decide_eq_true_eq,
              UInt32.lt_iff_toNat_lt] at hcan
            exact ⟨hcan.2, hcan.1.1.2, hcan.1.2⟩
          · cases h
      have hzero : (haul x d).toNat = 0 := by rw [hnone]; rfl
      unfold haul at hzero
      rw [Units.toNat_least, Units.toNat_least] at hzero
      omega

/-- What is hauled is taken off the deposit. -/
theorem reserve_mined {es : Entities} {x : Ship} {d : Deposit} (hd : es.deposit m.deposit = .ok d)
    (hold : Hold) : (m.mined es (haul x d) hold).reserve m.deposit + (haul x d).toNat =
      es.reserve m.deposit := by
  have hget := Entities.deposit_eq_ok.mp hd
  have hle := (haul_le x d).1
  rw [mined, Entities.reserve_adjustShip, debited]
  unfold Entities.reserve
  rw [Entities.adjustDeposit, Entities.get?_adjust, if_pos rfl, hget]
  show (d.quantity - haul x d).toNat + (haul x d).toNat = d.quantity.toNat
  rw [UInt32.toNat_sub_of_le _ _ (UInt32.le_iff_toNat_le.mpr hle)]
  omega

/-- Only a cycle takes anything off the deposit. -/
theorem reserve_hook {stage : Stage} (h : stage ≠ .execute) :
    ((m.hook stage).run.run s).2.entities.reserve = s.entities.reserve := by
  cases stage with
  | setup =>
    obtain hrun | ⟨e, hrun⟩ := m.setup_cases s
    · rw [hook, hrun]
      exact Entities.reserve_adjustShip ..
    · rw [hook, hrun]
  | before | after => rfl
  | execute => exact absurd rfl h
  | teardown => exact Entities.reserve_adjustShip ..
  | stop =>
    rw [hook, m.stop_run]
    split
    · exact Entities.reserve_adjustShip ..
    · rfl

end Mining

/-! ### Tasks -/

namespace Task

/-- The entities whose listeners a task tells of what it does. -/
def audience : Task κ → List EntityId
  | attack a => [a.attacker, a.defender]
  | mining m => [m.miner]
  | custom .. => []

/-- What is told of one cycle: a hit, to both sides, or an amount of material. -/
def IsCycle : Task κ → List EntityEvent → Prop
  | attack a, es => es = a.blow
  | mining m, es => ∃ material quantity,
      es = [⟨.resourceCollected, m.miner, m.deposit, .resource material quantity⟩]
  | custom .., _ => False

/-- What is told of the end, which depends on the scene only in that the destruction of the defender
is told as well. -/
def IsEnding : Task κ → Scene → List EntityEvent → Prop
  | attack a, s, es => es = a.farewell (a.isWon s)
  | mining m, _, es => ∃ reason, es = [⟨.miningStopped, m.miner, m.deposit, .reason reason⟩]
  | custom .., _, _ => False

/-- The units that are left in the deposit of a mining run. -/
def reserve : Task κ → Scene → Nat
  | mining m, s => s.entities.reserve m.deposit
  | _, _ => 0

variable {t : Task κ} {acts : Stage → Act Unit} {s : Scene}

theorem announces_acts (hacts : t.acts? = some acts) (stage : Stage) (hs : s.IsUntold) :
    ((acts stage).run.run s).2.Announces := by
  cases t with
  | attack a =>
    cases hacts
    exact a.announces_hook stage hs
  | mining m =>
    cases hacts
    exact m.announces_hook stage hs
  | custom => cases hacts

/-- The hooks that set a command up, or are run around its execution, tell nothing. -/
theorem raised_of_quiet (hacts : t.acts? = some acts) {stage : Stage}
    (h : stage = .setup ∨ stage = .before ∨ stage = .after) :
    ((acts stage).run.run s).2.raised = s.raised := by
  cases t with
  | attack a =>
    cases hacts
    rcases h with rfl | rfl | rfl
    · obtain hrun | ⟨e, hrun⟩ := a.setup_cases s <;> rw [Attack.hook, hrun]
    · obtain ⟨r, hrun⟩ := a.before_cases s
      rw [Attack.hook, hrun]
    · rfl
  | mining m =>
    cases hacts
    rcases h with rfl | rfl | rfl
    · obtain hrun | ⟨e, hrun⟩ := m.setup_cases s <;> rw [Mining.hook, hrun]
    · rfl
    · rfl
  | custom => cases hacts

theorem raised_teardown (hacts : t.acts? = some acts) (hs : s.IsUntold) :
    t.IsEnding s ((acts .teardown).run.run s).2.raised := by
  cases t with
  | attack a =>
    cases hacts
    have hraised := (a.teardown_spec s).2.1
    rwa [hs.1, List.nil_append] at hraised
  | mining m =>
    cases hacts
    refine ⟨((m.obstacle? s).map MiningObstacle.text).getD "finished", ?_⟩
    show s.raised ++ [_] = _
    rw [hs.1]
    rfl
  | custom => cases hacts

/-- A command that is stopped tells of the end only if the mark of its actor is its own. -/
theorem raised_stop {k : Activity} {actor target : EntityId}
    (hdrives : t.drives? = some (k, actor, target)) (hacts : t.acts? = some acts)
    (hs : s.IsUntold) :
    if k.mark? s.entities.outline? actor = some target then
      t.IsEnding s ((acts .stop).run.run s).2.raised
    else ((acts .stop).run.run s).2.raised = [] := by
  have hmark : ∀ f : Outline → Option EntityId,
      (s.entities.outline? actor).any (f · == some target) =
        ((s.entities.outline? actor).bind f == some target) := by
    intro f
    cases s.entities.outline? actor <;> rfl
  cases t with
  | attack a =>
    cases hacts
    cases hdrives
    rw [Attack.hook, a.stop_run, Attack.isEngaged, hmark]
    simp only [Activity.mark?, Activity.target?, beq_iff_eq]
    split
    · show s.raised ++ _ = _
      rw [hs.1]
      rfl
    · exact hs.1
  | mining m =>
    cases hacts
    cases hdrives
    rw [Mining.hook, m.stop_run, Mining.isEngaged, hmark]
    simp only [Activity.mark?, Activity.target?, beq_iff_eq]
    split
    · refine ⟨"stopped", ?_⟩
      show s.raised ++ [_] = _
      rw [hs.1]
      rfl
    · exact hs.1
  | custom => cases hacts

/-- Only a cycle takes anything off the deposit. -/
theorem reserve_acts (hacts : t.acts? = some acts) {stage : Stage} (h : stage ≠ .execute) :
    t.reserve ((acts stage).run.run s).2 = t.reserve s := by
  cases t with
  | attack a => rfl
  | mining m =>
    cases hacts
    exact congrFun (m.reserve_hook h) m.deposit
  | custom => rfl

/-- No units change hands at the end. -/
theorem IsEnding.units {es : List EntityEvent} (h : t.IsEnding s es) :
    ∀ e ∈ es, e.units = 0 := by
  cases t with
  | attack a =>
    obtain rfl : es = _ := h
    intro e he
    unfold Attack.farewell at he
    split at he <;> simp only [List.append_nil, List.cons_append, List.nil_append, List.mem_cons,
      List.not_mem_nil, or_false] at he
    · obtain rfl | rfl | rfl := he <;> rfl
    · obtain rfl | rfl := he <;> rfl
  | mining m =>
    obtain ⟨reason, rfl⟩ := h
    simp [EntityEvent.units]
  | custom => exact h.elim

/-- What is told of the end is told to the audience. -/
theorem IsEnding.audience {es : List EntityEvent} (h : t.IsEnding s es) :
    ∀ e ∈ es, e.entity ∈ t.audience := by
  cases t with
  | attack a =>
    obtain rfl : es = _ := h
    intro e he
    unfold Attack.farewell at he
    split at he <;> simp only [List.append_nil, List.cons_append, List.nil_append, List.mem_cons,
      List.not_mem_nil, or_false] at he
    · obtain rfl | rfl | rfl := he <;> simp [Task.audience, Attack.eventTo]
    · obtain rfl | rfl := he <;> simp [Task.audience, Attack.eventTo]
  | mining m =>
    obtain ⟨reason, rfl⟩ := h
    simp [Task.audience]
  | custom => exact h.elim

/-- What is told of a cycle is told to the audience. -/
theorem IsCycle.audience {es : List EntityEvent} (h : t.IsCycle es) :
    ∀ e ∈ es, e.entity ∈ t.audience := by
  cases t with
  | attack a =>
    obtain rfl : es = _ := h
    simp [Attack.blow, Task.audience, Attack.eventTo]
  | mining m =>
    obtain ⟨material, quantity, rfl⟩ := h
    simp [Task.audience]
  | custom => exact h.elim

end Task

namespace Command

variable {c : Command κ} {acts : Stage → Act Unit} (host : CommandHost κ ε)

/-- An execution of a command that may be executed is a cycle, and a mining run says truly how much
it has taken off the deposit. -/
theorem raised_execute (hacts : c.task.acts? = some acts) {s : Setting κ ε}
    (hmay : c.mayExecute host s = true) :
    c.task.IsCycle ((acts .execute).run.run s.scene).2.raised ∧
      (((acts .execute).run.run s.scene).2.raised.map EntityEvent.units).sum +
        c.task.reserve ((acts .execute).run.run s.scene).2 = c.task.reserve s.scene := by
  obtain ⟨progress, task⟩ := c
  cases task with
  | attack a =>
    cases hacts
    have hpossible : a.isPossible s.scene = true := (Bool.and_eq_true_iff.mp hmay).2
    obtain ⟨hattacker, hdefender⟩ := Attack.isLive_of_isPossible hpossible
    obtain ⟨x, hx, -⟩ := Entities.exists_ship_of_isLive hattacker
    obtain ⟨d, hd, -⟩ := Entities.exists_ship_of_isLive hdefender
    rw [Attack.hook, a.execute_run s.scene hx hd]
    exact ⟨rfl, rfl⟩
  | mining m =>
    cases hacts
    have hnone : m.obstacle? s.scene = none :=
      Option.isNone_iff_eq_none.mp (Bool.and_eq_true_iff.mp hmay).2
    -- nothing stands in the way, so something is mined
    obtain ⟨x, d, hx, hd, hhaul⟩ := m.exists_haul hnone
    obtain ⟨hold, -, hrun⟩ := m.execute_run s.scene hx hd hhaul
    have hreserve := m.reserve_mined (x := x) hd hold
    rw [Mining.hook, hrun]
    refine ⟨⟨_, _, rfl⟩, ?_⟩
    show (Mining.haul x d).toNat + 0 +
      (m.mined s.scene.entities (Mining.haul x d) hold).reserve m.deposit =
        s.scene.entities.reserve m.deposit
    omega
  | custom => cases hacts

end Command

end Orrery
