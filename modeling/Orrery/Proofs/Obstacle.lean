import Orrery.Proofs.Commute

/-!
# What keeps a ship from mining

A mining run ends when there is an obstacle, and its last event tells which.
`MiningObstacle.Obtains` is the condition that an obstacle names, and a run ends for a true reason
if and only if that condition holds of the scene that `teardown` finds.

There is one exception (`World.reason_true_iff`).  `Ship.canMine` also asks that the ship mine
something at a time, and no obstacle stands for that.  A ship that could mine but for this
(`Mining.Idles`) is said to be out of range, at whatever distance it is.
-/

namespace Orrery

variable {κ ε : Type}

/-! ### Conditions -/

/-- Both are tracked, and the deposit is within reach of the ship. -/
def Ship.Reaches (x : Ship) (d : Deposit) (tracker : Tracker) : Prop :=
  ∃ a b, tracker.coordinatesOf x.position = some a ∧ tracker.coordinatesOf d.position = some b ∧
    Scalar.le (a.distance b) x.miningDistance = true

/-- The condition that an obstacle names. -/
def MiningObstacle.Obtains (m : Mining) (s : Scene) : MiningObstacle → Prop
  | minerGone => ∀ x, s.entities.get? m.miner ≠ some (.ship x)
  | depositGone => ∀ d, s.entities.get? m.deposit ≠ some (.deposit d)
  | minerDestroyed => ∃ x, s.entities.get? m.miner = some (.ship x) ∧ x.hp = 0
  | differentSystem => ∃ x d, s.entities.get? m.miner = some (.ship x) ∧
      s.entities.get? m.deposit = some (.deposit d) ∧ x.system ≠ d.system
  | depositDepleted => ∃ d, s.entities.get? m.deposit = some (.deposit d) ∧ d.quantity = 0
  | holdFull => ∃ x, s.entities.get? m.miner = some (.ship x) ∧ x.hold.free = 0
  | outOfRange => ∃ x d, s.entities.get? m.miner = some (.ship x) ∧
      s.entities.get? m.deposit = some (.deposit d) ∧ ¬x.Reaches d s.tracker

namespace Mining

/-- The ship could mine the deposit, but for that it mines nothing at a time. -/
structure Idles (m : Mining) (s : Scene) (x : Ship) (d : Deposit) : Prop where
  miner : s.entities.get? m.miner = some (.ship x)
  deposit : s.entities.get? m.deposit = some (.deposit d)
  alive : x.hp ≠ 0
  system : x.system = d.system
  supply : d.quantity ≠ 0
  room : x.hold.free ≠ 0
  reach : x.Reaches d s.tracker
  nothing : x.miningQuantity = 0

variable {m : Mining} {s : Scene} {x : Ship} {d : Deposit} {o : MiningObstacle}

/-! ### The first obstacle -/

theorem canMine_iff {distance : Float} : x.canMine d distance = true ↔
    x.hp ≠ 0 ∧ x.system = d.system ∧ Scalar.le distance x.miningDistance = true ∧
      d.quantity ≠ 0 ∧ x.hold.free ≠ 0 ∧ x.miningQuantity ≠ 0 := by
  simp [Ship.canMine, Ship.alive, UInt32.pos_iff_ne_zero, and_assoc]

theorem obstacle?_of_not_ship (h : ∀ x, s.entities.get? m.miner ≠ some (.ship x)) :
    m.obstacle? s = some .minerGone := by
  unfold obstacle?
  cases hship : s.entities.ship m.miner with
  | error e => rfl
  | ok x => exact absurd (Entities.ship_eq_ok.mp hship) (h x)

theorem obstacle?_of_not_deposit (hx : s.entities.get? m.miner = some (.ship x))
    (h : ∀ d, s.entities.get? m.deposit ≠ some (.deposit d)) :
    m.obstacle? s = some .depositGone := by
  unfold obstacle?
  rw [Entities.ship_eq_ok.mpr hx]
  cases hdeposit : s.entities.deposit m.deposit with
  | error e => rfl
  | ok d => exact absurd (Entities.deposit_eq_ok.mp hdeposit) (h d)

open Classical in
/-- With both there, the conditions are looked at one after the other. -/
theorem obstacle?_of_get? (hx : s.entities.get? m.miner = some (.ship x))
    (hd : s.entities.get? m.deposit = some (.deposit d)) :
    m.obstacle? s =
      if x.hp = 0 then some .minerDestroyed
      else if x.system ≠ d.system then some .differentSystem
      else if d.quantity = 0 then some .depositDepleted
      else if x.hold.free = 0 then some .holdFull
      else if x.Reaches d s.tracker ∧ x.miningQuantity ≠ 0 then none
      else some .outOfRange := by
  unfold obstacle?
  simp only [Entities.ship_eq_ok.mpr hx, Entities.deposit_eq_ok.mpr hd, Ship.alive, bne_iff_ne,
    beq_iff_eq, Bool.not_eq_true', decide_eq_false_iff_not, UInt32.pos_iff_ne_zero, ne_eq, not_not]
  split_ifs with hhp hsystem hsupply hroom hcan
  all_goals try rfl
  · obtain ⟨⟨a, b, ha, hb, hreach⟩, hquantity⟩ := hcan
    have hmay : x.canMine d (a.distance b) = true :=
      canMine_iff.mpr ⟨hhp, hsystem, hreach, hsupply, hroom, hquantity⟩
    simp [Tracker.distanceBetween, ha, hb, hmay]
  · cases ha : s.tracker.coordinatesOf x.position with
    | none => simp [Tracker.distanceBetween, ha]
    | some a =>
      cases hb : s.tracker.coordinatesOf d.position with
      | none => simp [Tracker.distanceBetween, ha, hb]
      | some b =>
        have hnot : x.canMine d (a.distance b) = false := by
          by_contra hmay
          obtain ⟨-, -, hreach, -, -, hquantity⟩ := canMine_iff.mp (eq_true_of_ne_false hmay)
          exact hcan ⟨⟨a, b, ha, hb, hreach⟩, hquantity⟩
        simp [Tracker.distanceBetween, ha, hb, hnot]

/-- A ship that only idles is said to be out of range. -/
theorem Idles.obstacle?_eq (h : m.Idles s x d) : m.obstacle? s = some .outOfRange := by
  rw [obstacle?_of_get? h.miner h.deposit, if_neg h.alive, if_neg (not_not.mpr h.system),
    if_neg h.supply, if_neg h.room, if_neg]
  rintro ⟨-, hquantity⟩
  exact hquantity h.nothing

/-- There is no obstacle if and only if the ship may mine the deposit at their distance. -/
theorem obstacle?_eq_none_iff : m.obstacle? s = none ↔
    ∃ x d a b, s.entities.get? m.miner = some (.ship x) ∧
      s.entities.get? m.deposit = some (.deposit d) ∧
      s.tracker.coordinatesOf x.position = some a ∧ s.tracker.coordinatesOf d.position = some b ∧
      x.canMine d (a.distance b) = true := by
  constructor
  · intro h
    by_cases hship : ∀ x, s.entities.get? m.miner ≠ some (.ship x)
    · rw [obstacle?_of_not_ship hship] at h
      cases h
    push Not at hship
    obtain ⟨x, hx⟩ := hship
    by_cases hdeposit : ∀ d, s.entities.get? m.deposit ≠ some (.deposit d)
    · rw [obstacle?_of_not_deposit hx hdeposit] at h
      cases h
    push Not at hdeposit
    obtain ⟨d, hd⟩ := hdeposit
    rw [obstacle?_of_get? hx hd] at h
    split_ifs at h with hhp hsystem hsupply hroom hcan
    obtain ⟨⟨a, b, ha, hb, hreach⟩, hquantity⟩ := hcan
    exact ⟨x, d, a, b, hx, hd, ha, hb,
      canMine_iff.mpr ⟨hhp, not_not.mp hsystem, hreach, hsupply, hroom, hquantity⟩⟩
  · rintro ⟨x, d, a, b, hx, hd, ha, hb, hcan⟩
    obtain ⟨hhp, hsystem, hreach, hsupply, hroom, hquantity⟩ := canMine_iff.mp hcan
    rw [obstacle?_of_get? hx hd, if_neg hhp, if_neg (not_not.mpr hsystem), if_neg hsupply,
      if_neg hroom, if_pos ⟨⟨a, b, ha, hb, hreach⟩, hquantity⟩]

/-- What the first obstacle names holds, unless the ship only idles. -/
theorem obtains_iff (h : m.obstacle? s = some o) : o.Obtains m s ↔ ¬∃ x d, m.Idles s x d := by
  by_cases hship : ∀ x, s.entities.get? m.miner ≠ some (.ship x)
  · obtain rfl := Option.some.inj ((obstacle?_of_not_ship hship).symm.trans h)
    refine ⟨?_, fun _ => hship⟩
    rintro - ⟨x, d, hidles⟩
    exact hship x hidles.miner
  push Not at hship
  obtain ⟨x, hx⟩ := hship
  by_cases hdeposit : ∀ d, s.entities.get? m.deposit ≠ some (.deposit d)
  · obtain rfl := Option.some.inj ((obstacle?_of_not_deposit hx hdeposit).symm.trans h)
    refine ⟨?_, fun _ => hdeposit⟩
    rintro - ⟨x, d, hidles⟩
    exact hdeposit d hidles.deposit
  push Not at hdeposit
  obtain ⟨d, hd⟩ := hdeposit
  -- the ship and the deposit that idle are these two
  have hthese : (∃ x d, m.Idles s x d) ↔ m.Idles s x d := by
    constructor
    · rintro ⟨x', d', hidles⟩
      obtain rfl := Entity.ship.inj (Option.some.inj (hx.symm.trans hidles.miner))
      obtain rfl := Entity.deposit.inj (Option.some.inj (hd.symm.trans hidles.deposit))
      exact hidles
    · intro hidles
      exact ⟨x, d, hidles⟩
  rw [hthese]
  rw [obstacle?_of_get? hx hd] at h
  split_ifs at h with hhp hsystem hsupply hroom hcan
  all_goals obtain rfl := Option.some.inj h
  · exact ⟨fun _ hidles => hidles.alive hhp, fun _ => ⟨x, hx, hhp⟩⟩
  · exact ⟨fun _ hidles => hsystem hidles.system, fun _ => ⟨x, d, hx, hd, hsystem⟩⟩
  · exact ⟨fun _ hidles => hidles.supply hsupply, fun _ => ⟨d, hd, hsupply⟩⟩
  · exact ⟨fun _ hidles => hidles.room hroom, fun _ => ⟨x, hx, hroom⟩⟩
  · constructor
    · rintro ⟨x', d', hx', hd', hfar⟩ hidles
      obtain rfl := Entity.ship.inj (Option.some.inj (hx.symm.trans hx'))
      obtain rfl := Entity.deposit.inj (Option.some.inj (hd.symm.trans hd'))
      exact hfar hidles.reach
    · intro hnot
      refine ⟨x, d, hx, hd, fun hreach => hnot ?_⟩
      have hnothing : x.miningQuantity = 0 := by
        by_contra hquantity
        exact hcan ⟨hreach, hquantity⟩
      exact ⟨hx, hd, hhp, not_not.mp hsystem, hsupply, hroom, hreach, hnothing⟩

end Mining

/-! ### The end of a run -/

/-- A deed that ends a mining run for an obstacle tells the miner of it, and of nothing else.  What
it names holds, unless the ship only idles. -/
def Deed.IsCandid (d : Deed κ) : Prop :=
  ∀ c m outcome found left, d = .hook c .teardown outcome found left → c.task = .mining m →
    ∃ o, m.obstacle? found = some o ∧ outcome = .ok () ∧
      left = { found with entities := m.released found.entities }.announce
        ⟨.miningStopped, m.miner, m.deposit, .reason o.text⟩ ∧
      (o.Obtains m found ↔ ¬∃ x d, m.Idles found x d)

namespace Command

variable (host : CommandHost κ ε) {c : Command κ} {s : Setting κ ε}

/-- No other hook ends a mining run for an obstacle. -/
theorem candid_run {stage : Stage} (hstage : stage ≠ .teardown) (c : Command κ)
    (hs : ∀ d ∈ s.chronicle, d.IsCandid) :
    ∀ d ∈ (c.run host stage s).2.2.chronicle, d.IsCandid := by
  rw [(after_run host stage c s).chronicle]
  intro d hd
  rcases List.mem_append.mp hd with hd | hd
  · exact hs d hd
  · rw [List.mem_singleton.mp hd]
    intro c m outcome found left heq
    cases heq
    exact absurd rfl hstage

/-- A mining run is torn down only if there is an obstacle. -/
theorem candid_teardown (hover : c.isOver host s = true) (hs : ∀ d ∈ s.chronicle, d.IsCandid) :
    ∀ d ∈ (c.run host .teardown s).2.2.chronicle, d.IsCandid := by
  rw [(after_run host .teardown c s).chronicle]
  intro d hd
  rcases List.mem_append.mp hd with hd | hd
  · exact hs d hd
  · rw [List.mem_singleton.mp hd]
    intro c' m outcome found left heq htask
    cases heq
    have hsome : (m.obstacle? s.scene).isSome = true := by
      simpa only [isOver, htask] using hover
    obtain ⟨o, ho⟩ := Option.isSome_iff_exists.mp hsome
    have hrun : m.teardown.run.run s.scene =
        (.ok (), { s.scene with entities := m.released s.scene.entities }.announce
          ⟨.miningStopped, m.miner, m.deposit, .reason o.text⟩) := by
      unfold Mining.teardown
      rw [run_bind, run_get]
      simp only [ho]
      exact m.finish_run s.scene o.text
    refine ⟨o, ho, ?_, ?_, Mining.obtains_iff ho⟩
    · simp only [hook, htask, Mining.hook, hrun]
    · simp only [hook, htask, Mining.hook, hrun]

theorem candid_tick (c : Command κ) (hs : ∀ d ∈ s.chronicle, d.IsCandid) :
    ∀ d ∈ (c.tick host s).2.2.chronicle, d.IsCandid := by
  have hturn : ∀ d ∈ (c.start s).setting.chronicle, d.IsCandid := by
    show ∀ d ∈ s.chronicle ++ [.turn c s.scene], d.IsCandid
    intro d hd
    rcases List.mem_append.mp hd with hd | hd
    · exact hs d hd
    · rw [List.mem_singleton.mp hd]
      intro c m outcome found left heq
      cases heq
  have hperform : ∀ stage : Stage, stage ≠ .teardown →
      Keeps (fun p : Performance κ ε => ∀ d ∈ p.setting.chronicle, d.IsCandid)
        (Performance.perform host stage) :=
    fun stage hstage p hp => candid_run host hstage p.command hp
  have hstages : ∀ d ∈ (c.performance host s).setting.chronicle, d.IsCandid :=
    performance_of_stages (P := fun p => ∀ d ∈ p.setting.chronicle, d.IsCandid) host
      (Performance.keeps_setUp (hperform .setup (by decide)) (fun _ hp => hp) _ hturn)
      (hperform .before (by decide))
      (Performance.keeps_execute (hperform .execute (by decide)) (fun _ hp => hp) fun _ hp => hp)
      (hperform .after (by decide))
  cases hover : (c.performance host s).command.isOver host (c.performance host s).setting with
  | false =>
    rw [(tick_of_not_isOver host hover).2]
    exact hstages
  | true =>
    rw [(tick_of_isOver host hover).2]
    exact candid_teardown host hover hstages

/-- A run that meets an obstacle when its turn begins is torn down, and finds what the turn
found. -/
theorem exists_teardown {m : Mining} (hc : c.task = .mining m)
    (hsetup : c.progress.isSetUp = true) (hobstacle : (m.obstacle? s.scene).isSome = true) :
    (c.tick host s).1.removed = true ∧
      ∃ c' outcome left, c'.task = .mining m ∧
        .hook c' .teardown outcome s.scene left ∈ (c.tick host s).2.2.chronicle := by
  have hscene : (c.performance host s).command.task = .mining m ∧
      (c.performance host s).setting.scene = s.scene := by
    -- nothing is left to be done in this turn
    have hperform : ∀ stage, (m.hook stage).run.run s.scene = (.ok (), s.scene) →
        Keeps (fun p : Performance κ ε => p.command.task = .mining m ∧ p.setting.scene = s.scene)
          (Performance.perform host stage) := by
      rintro stage hidle p ⟨htask, hfound⟩
      rw [Performance.run_perform]
      simp only [run, hook, htask, hfound, hidle, true_and]
      have hnow : p.setting.now = s.now := congrArg Scene.now hfound
      show (⟨p.setting.now, s.entities, s.tracker, [], [], [], []⟩ : Scene) = s.scene
      rw [hnow]
      rfl
    refine performance_of_stages
      (P := fun p => p.command.task = .mining m ∧ p.setting.scene = s.scene) host ?_
      (hperform .before rfl)
      (Performance.keeps_execute_of_mayExecute (fun p hmay hp => ?_) fun _ hp => hp)
      (hperform .after rfl)
    · have hready : (c.start s).command.progress.isSetUp = true := hsetup
      rw [Performance.run_setUp, if_pos hready]
      exact ⟨hc, rfl⟩
    · rw [mayExecute, hp.1] at hmay
      have hnone := (Bool.and_eq_true_iff.mp hmay).2
      rw [hp.2, ← Option.not_isSome, hobstacle] at hnone
      cases hnone
  have hover :
      (c.performance host s).command.isOver host (c.performance host s).setting = true := by
    simpa only [isOver, hscene.1, hscene.2] using hobstacle
  obtain ⟨hremoved, htick⟩ := tick_of_isOver host hover
  have hlast := (after_run host .teardown (c.performance host s).command
    (c.performance host s).setting).chronicle
  rw [← htick, hscene.2] at hlast
  have hmem := List.mem_of_getLast? ((congrArg List.getLast? hlast).trans List.getLast?_concat)
  exact ⟨hremoved, _, _, _, hscene.1, hmem⟩

end Command

theorem Session.candid_tick (host : CommandHost κ ε) {x : Session κ ε}
    (hs : ∀ d ∈ x.setting.chronicle, d.IsCandid) :
    ∀ d ∈ (x.tick host).2.setting.chronicle, d.IsCandid :=
  (Session.tick_keeps (Q := fun _ => True) (P := fun s => ∀ d ∈ s.chronicle, d.IsCandid) host
    (fun c _ _ hs => ⟨trivial, Command.candid_tick host c hs⟩)
    (fun c _ _ hs => Command.candid_run host (by decide) c hs) (fun _ _ hs => hs)
    (fun _ _ => trivial) hs).2

theorem Session.candid_meetRequests (host : CommandHost κ ε) {x : Session κ ε}
    (hs : ∀ d ∈ x.setting.chronicle, d.IsCandid) :
    ∀ d ∈ (x.meetRequests host).2.setting.chronicle, d.IsCandid :=
  (Sweep.meetRequests_keeps (Q := fun _ => True) (P := fun s => ∀ d ∈ s.chronicle, d.IsCandid)
    (w := { session := x }) (fun c _ _ hs => Command.candid_run host (by decide) c hs)
    (fun _ _ hs => hs) (fun _ _ => trivial) hs).2

theorem Operation.candid_commit (host : CommandHost κ ε) (op : Operation κ ε) (w : World κ ε) :
    ∀ d ∈ (op.commit host w).1, d.IsCandid := by
  have heffect := op.effect_commit host w
  generalize op.commit host w = r at heffect ⊢
  cases heffect with
  | refused | create | schedule | transfer | listen | drift => exact List.forall_mem_nil _
  | tick now => exact Session.candid_tick host (x := w.session now) (List.forall_mem_nil _)
  | stopCommands now other | remove now other =>
    exact Session.candid_meetRequests host (x := w.stopping now other) (List.forall_mem_nil _)

/-- Whatever is done to a world, a mining run that is torn down has met an obstacle, and raises one
event, which names it.  What the event names holds at that moment, unless the ship could mine but
for that it mines nothing at a time.  There is no obstacle if and only if ship and deposit are
there, both are tracked, and the ship may mine the deposit at their distance. -/
theorem World.reason_true_iff (host : CommandHost κ ε) (w : World κ ε) (op : Operation κ ε) :
    (∀ d ∈ (op.commit host w).1, d.IsCandid) ∧
    ∀ (m : Mining) (s : Scene), m.obstacle? s = none ↔
      ∃ x d a b, s.entities.get? m.miner = some (.ship x) ∧
        s.entities.get? m.deposit = some (.deposit d) ∧
        s.tracker.coordinatesOf x.position = some a ∧
        s.tracker.coordinatesOf d.position = some b ∧ x.canMine d (a.distance b) = true :=
  ⟨op.candid_commit host w, fun _ _ => Mining.obstacle?_eq_none_iff⟩

namespace Skirmish

/-- A ship is in the midst of mining a deposit at the same place. -/
def pit (x : Ship) (d : Deposit) : World Unit Unit where
  tracker := tracker
  registry :=
    { entities :=
        { table :=
            { entries := [(digger.id, .ship x), (lode.id, .deposit d)]
              nodup := (by decide : [digger.id, lode.id].Nodup) } }
      schedule :=
        { commands := [.mining dig { isSetUp := true }]
          distinct := List.nodup_singleton _ } }
  outside := ()

/-- The scene of the run when its turn comes. -/
def pitScene (x : Ship) (d : Deposit) : Scene := ((pit x d).session 0).setting.scene

theorem teardown_pit {x : Ship} {d : Deposit} {o : MiningObstacle}
    (h : dig.obstacle? (pitScene x d) = some o) :
    ∃ c outcome left, .hook c .teardown outcome (pitScene x d) left ∈
        ((Operation.tick 0).commit Host.still.toCommandHost (pit x d)).1 ∧
      c.task = .mining dig := by
  obtain ⟨hremoved, c, outcome, left, hc, hmem⟩ :=
    Command.exists_teardown Host.still.toCommandHost (c := .mining dig { isSetUp := true })
      (s := ((pit x d).session 0).setting) rfl rfl (Option.isSome_iff_exists.mpr ⟨o, h⟩)
  rw [Operation.commit_tick_singleton _ rfl rfl hremoved]
  exact ⟨c, outcome, left, hmem, hc⟩

end Skirmish

/-- A ship that has nothing left to mine is told so. -/
theorem World.reason_true_iff_pit :
    let x := Skirmish.digger
    let d := { Skirmish.lode with quantity := 0 }
    ∃ c outcome found left, .hook c .teardown outcome found left ∈
        ((Operation.tick 0).commit Host.still.toCommandHost (Skirmish.pit x d)).1 ∧
      left.raised = [⟨.miningStopped, x.id, d.id, .reason "deposit depleted"⟩] ∧
      MiningObstacle.depositDepleted.Obtains Skirmish.dig found := by
  intro x d
  have hdepleted : Skirmish.dig.obstacle? (Skirmish.pitScene x d) = some .depositDepleted := by
    decide +kernel
  obtain ⟨c, outcome, left, hmem, hc⟩ := Skirmish.teardown_pit hdepleted
  obtain ⟨hcandid, -⟩ := reason_true_iff Host.still.toCommandHost (Skirmish.pit x d) (.tick 0)
  obtain ⟨o, ho, -, hleft, hobtains⟩ := hcandid _ hmem c Skirmish.dig _ _ left rfl hc
  obtain rfl := Option.some.inj (ho.symm.trans hdepleted)
  refine ⟨c, outcome, _, left, hmem, by rw [hleft]; rfl, hobtains.mpr ?_⟩
  rintro ⟨x', d', hidles⟩
  obtain rfl := Entity.deposit.inj (Option.some.inj hidles.deposit)
  exact hidles.supply rfl

/-- A ship that mines nothing at a time is told that the deposit at its own place is out of
range. -/
theorem World.reason_false :
    let x := { Skirmish.digger with miningQuantity := 0 }
    let d := Skirmish.lode
    ∃ c outcome found left, .hook c .teardown outcome found left ∈
        ((Operation.tick 0).commit Host.still.toCommandHost (Skirmish.pit x d)).1 ∧
      left.raised = [⟨.miningStopped, x.id, d.id, .reason "out of range"⟩] ∧
      ¬MiningObstacle.outOfRange.Obtains Skirmish.dig found := by
  intro x d
  have hidles : Skirmish.dig.Idles (Skirmish.pitScene x d) x d :=
    { miner := rfl
      deposit := rfl
      alive := by decide
      system := rfl
      supply := by decide
      room := by decide
      reach := ⟨Vec3.origin, Vec3.origin, by decide +kernel, by decide +kernel, by decide +kernel⟩
      nothing := rfl }
  have hfar := hidles.obstacle?_eq
  obtain ⟨c, outcome, left, hmem, hc⟩ := Skirmish.teardown_pit hfar
  obtain ⟨o, ho, -, hleft, hobtains⟩ :=
    Operation.candid_commit _ _ _ _ hmem c Skirmish.dig _ _ left rfl hc
  obtain rfl := Option.some.inj (ho.symm.trans hfar)
  exact ⟨c, outcome, _, left, hmem, by rw [hleft]; rfl, fun h => hobtains.mp h ⟨x, d, hidles⟩⟩

end Orrery
