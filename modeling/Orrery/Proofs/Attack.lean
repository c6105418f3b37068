import Orrery.Proofs.Action
import Orrery.Proofs.Entities
import Orrery.Proofs.Units

/-!
# The hooks of an attack

What each hook of an attack leaves behind, in terms of outlines, events, credits and stop requests.
Only the attacker's own `attacking` mark changes, apart from the hit that destroys the defender
(`execute_cases`); and `clearUp` changes no outline at all, whether or not it succeeds
(`clearUp_spec`).
-/

namespace Orrery.Attack

variable (a : Attack) (s : Scene)

/-! ### Conditions -/

/-- Whether the attack is won shows in the outline of the defender. -/
theorem isWon_eq :
    a.isWon s = (s.entities.outline? a.defender).any (·.isWreckOf a.attacker) := by
  unfold isWon
  cases hship : s.entities.ship a.defender with
  | ok d =>
    rw [Entities.outline?_of_ship hship]
    rfl
  | error e =>
    cases ho : s.entities.outline? a.defender with
    | none => rfl
    | some o =>
      rw [Entities.outline?_of_error hship o ho]
      rfl

/-- An attack is possible only between ships that are alive. -/
theorem isLive_of_isPossible {a : Attack} {s : Scene} (h : a.isPossible s = true) :
    (s.entities.outline? a.attacker).any Outline.isLive = true ∧
      (s.entities.outline? a.defender).any Outline.isLive = true := by
  unfold isPossible at h
  split at h
  · next attacker defender hattacker hdefender =>
    obtain ⟨distance, -, hcan⟩ := (Option.any_eq_true ..).mp h
    unfold Ship.canAttack at hcan
    simp only [Bool.and_eq_true] at hcan
    rw [Entities.outline?_of_ship hattacker, Entities.outline?_of_ship hdefender]
    exact ⟨hcan.1.1.1.1.1.1.1, hcan.1.1.1.1.1.1.2⟩
  · cases h

theorem isPossible_of_isOver {a : Attack} {s : Scene} (h : a.isOver s = false) :
    a.isPossible s = true := by
  unfold isOver at h
  simp only [Bool.or_eq_false_iff, Bool.not_eq_false'] at h
  exact h.2

/-! ### Regular hooks -/

/-- The entities when the attacker attacks the defender. -/
def engaged (es : Entities) : Entities :=
  es.adjustShip a.attacker ({ · with attacking := a.defender })

theorem outline?_engaged (es : Entities) :
    (a.engaged es).outline? = reviseIf true a.attacker (·.attack a.defender) es.outline? :=
  Entities.outline?_adjustShip (fun _ => rfl) rfl

/-- The attacker turns to the defender if both are there; otherwise nothing happens. -/
theorem setup_cases :
    a.setup.run.run s = (.ok (), { s with entities := a.engaged s.entities }) ∨
      ∃ e, a.setup.run.run s = (.error e, s) := by
  unfold setup
  rw [run_bind, run_read]
  cases hd : s.entities.ship a.defender with
  | error e => exact .inr ⟨_, rfl⟩
  | ok d =>
    simp only []
    rw [run_bind, run_read]
    cases hx : s.entities.ship a.attacker with
    | error e => exact .inr ⟨_, rfl⟩
    | ok x => exact .inl rfl

theorem before_cases : ∃ r, a.before.run.run s = (r, s) := by
  unfold before
  rw [run_bind, run_read]
  cases s.entities.ship a.attacker with
  | error e => exact ⟨_, rfl⟩
  | ok x =>
    simp only []
    rw [run_bind, run_read]
    cases s.entities.ship a.defender with
    | error e => exact ⟨_, rfl⟩
    | ok d => exact ⟨_, rfl⟩

/-- The defender after a hit. -/
def struck (x d : Ship) : Ship :=
  if (d.absorb x.damage).2 then { (d.absorb x.damage).1 with destroyedBy := some a.attacker }
  else (d.absorb x.damage).1

/-- A hit shows in the outline only if it destroys a ship that is alive. -/
theorem outline_struck (x d : Ship) :
    (a.struck x d).outline = d.outline ∨
      d.alive = true ∧ (a.struck x d).outline = d.outline.destroy a.attacker := by
  by_cases h : x.damage ≤ d.shield
  · left
    simp only [struck, Ship.absorb, if_pos h]
    rfl
  · by_cases hdestroyed : (d.absorb x.damage).2 = true
    · have halive : d.alive = true ∧ (d.absorb x.damage).1.alive = false := by
        simpa [Ship.absorb, if_neg h] using hdestroyed
      right
      refine ⟨halive.1, ?_⟩
      simp only [struck, if_pos hdestroyed, Ship.outline, Outline.destroy]
      rw [← halive.2]
      simp only [Ship.absorb, if_neg h]
      rfl
    -- neither a hit that the ship survives nor one on a wreck shows
    · have halive : (d.absorb x.damage).1.alive = d.alive := by
        cases hd : d.alive with
        | true => simpa [Ship.absorb, if_neg h, hd] using hdestroyed
        | false =>
          have hhp : ¬ 0 < d.hp := by simpa [Ship.alive] using hd
          simp only [UInt32.lt_iff_toNat_lt, UInt32.toNat_zero] at hhp
          simp only [Ship.absorb, if_neg h, Ship.alive, UInt32.lt_iff_toNat_lt, UInt32.toNat_zero,
            Units.toNat_minus]
          exact decide_eq_false (by omega)
      left
      simp only [struck, if_neg hdestroyed, Ship.outline, halive]
      simp only [Ship.absorb, if_neg h]

/-- A hit destroys the defender or shows in no outline. -/
theorem outline?_adjustShip_struck {es : Entities} {x d : Ship} (hd : es.ship a.defender = .ok d) :
    ∃ hit : Bool, (es.adjustShip a.defender fun _ => a.struck x d).outline? =
      reviseIf hit a.defender (·.destroy a.attacker) es.outline? ∧
      (hit = true → (es.outline? a.defender).any Outline.isLive = true) := by
  have hget : es.get? a.defender = some (.ship d) := Entities.ship_eq_ok.mp hd
  rcases a.outline_struck x d with hsame | ⟨halive, hdestroyed⟩
  · refine ⟨false, ?_, by simp⟩
    rw [reviseIf_false]
    refine Entities.outline?_adjust_eq fun e he => ?_
    rw [hget] at he
    cases he
    exact congrArg some hsame
  · refine ⟨true, ?_, fun _ => by rw [Entities.outline?_of_ship hd]; exact halive⟩
    funext j
    by_cases hj : j = a.defender
    · have hnew : (es.adjustShip a.defender fun _ => a.struck x d).get? a.defender =
          some (.ship (a.struck x d)) := by
        rw [Entities.adjustShip, Entities.get?_adjust, if_pos rfl, hget]
        rfl
      rw [hj, reviseIf_true_self, Entities.outline?_of_ship hd, Entities.outline?, hnew]
      exact congrArg some hdestroyed
    · have hnew : (es.adjustShip a.defender fun _ => a.struck x d).get? j = es.get? j := by
        rw [Entities.adjustShip, Entities.get?_adjust, if_neg hj]
      rw [reviseIf, if_neg fun h => hj h.2, Entities.outline?, hnew]
      rfl

theorem execute_run {x d : Ship} (hx : s.entities.ship a.attacker = .ok x)
    (hd : s.entities.ship a.defender = .ok d) :
    a.execute.run.run s = (.ok (),
      ({ s with entities := s.entities.adjustShip a.defender fun _ => a.struck x d }.announce
        (eventTo .attacked a.attacker a.defender)).announce
          (eventTo .defended a.defender a.attacker)) := by
  unfold execute
  simp only [run_bind, run_read, hx, hd]
  rfl

theorem execute_cases :
    (∃ x d, s.entities.ship a.attacker = .ok x ∧ s.entities.ship a.defender = .ok d ∧
      a.execute.run.run s = (.ok (),
        ({ s with entities := s.entities.adjustShip a.defender fun _ => a.struck x d }.announce
          (eventTo .attacked a.attacker a.defender)).announce
            (eventTo .defended a.defender a.attacker))) ∨
    ∃ e, a.execute.run.run s = (.error e, s) := by
  cases hx : s.entities.ship a.attacker with
  | error e =>
    unfold execute
    simp only [run_bind, run_read, hx]
    exact .inr ⟨_, rfl⟩
  | ok x =>
    cases hd : s.entities.ship a.defender with
    | error e =>
      unfold execute
      simp only [run_bind, run_read, hx, hd]
      exact .inr ⟨_, rfl⟩
    | ok d => exact .inl ⟨x, d, rfl, rfl, a.execute_run s hx hd⟩

/-! ### Clearing up -/

/-- The cargo that is taken off the wreck. -/
def salvage (es : Entities) (wreck : Ship) : List Stack :=
  if a.lootIdUsable es then wreck.hold.contents else []

/-- The entities when the cargo has been taken off the wreck. -/
def stripped (es : Entities) (wreck : Ship) : Entities :=
  if a.lootIdUsable es then es.adjustShip a.defender ({ · with hold := wreck.hold.emptied }) else es

theorem strip_run (wreck : Ship) : (a.strip wreck).run.run s =
    (.ok (a.salvage s.entities wreck), { s with entities := a.stripped s.entities wreck }) := by
  unfold strip salvage stripped
  rw [run_bind, run_get]
  simp only []
  split
  · rw [run_bind, run_change]
    rfl
  · rfl

theorem outline?_stripped (es : Entities) (wreck : Ship) :
    (a.stripped es wreck).outline? = es.outline? := by
  unfold stripped
  split
  · exact Entities.outline?_adjustShip_eq fun _ => rfl
  · rfl

/-- The credits for the owners of both ships.  An attacker that is gone earns none. -/
def bounty (es : Entities) (wreck : Ship) : List Credit :=
  (match es.ship a.attacker with
    | .ok attacker => [⟨attacker.user, Credit.shipsUserDestroyed⟩]
    | .error _ => []) ++ [⟨wreck.user, Credit.userShipsDestroyed⟩]

theorem settleUp_run (wreck : Ship) : (a.settleUp wreck).run.run s = (.ok (), { s with
    tracker := s.tracker.halt wreck.position
    stopRequests := s.stopRequests ++ [a.defender]
    credits := s.credits ++ a.bounty s.entities wreck }) := by
  unfold settleUp bounty
  simp only [run_bind, run_modify, run_get, Scene.halt, Scene.requestStop, Scene.credit]
  cases s.entities.ship a.attacker with
  | ok attacker =>
    simp only [run_bind, run_modify, List.append_assoc]
  | error e => simp only [run_modify, List.nil_append]

theorem addToLoot_cases (loot : Loot) (salvage : List Stack) :
    let units := Units.total (salvage.map (·.quantity))
    let roomy := { loot.hold with capacity := Units.plus loot.hold.capacity units }
    ∃ r, (a.addToLoot loot salvage).run.run s = (r, { s with
      entities := s.entities.put a.lootId
        (.loot { loot with hold := (roomy.addAll salvage).1 }) }) := by
  intro units roomy
  unfold addToLoot
  simp only [run_bind, run_change]
  cases (roomy.addAll salvage).2 with
  | none => exact ⟨_, rfl⟩
  | some fault => exact ⟨_, rfl⟩

/-- New loot takes all of the salvage or nothing. -/
theorem createLoot_cases (wreck : Ship) (salvage : List Stack) :
    let units := Units.total (salvage.map (·.quantity))
    let empty : Hold := { capacity := Units.greatest wreck.hold.capacity units }
    (∃ hold es, empty.addAll salvage = (hold, none) ∧
      s.entities.add (.loot ⟨a.lootId, wreck.system, wreck.position, hold⟩) = .ok es ∧
      (a.createLoot wreck salvage).run.run s = (.ok (), { s with entities := es })) ∨
    ((empty.addAll salvage).2 ≠ none ∨ (s.entities.get? a.lootId).isSome) ∧
      ∃ e, (a.createLoot wreck salvage).run.run s = (.error e, s) := by
  intro units empty
  unfold createLoot
  simp only []
  split
  · next hadd =>
    refine .inr ⟨.inl ?_, _, rfl⟩
    rw [hadd]
    exact Option.some_ne_none _
  · next hold hadd =>
    rw [run_bind, run_read]
    cases hes : s.entities.add (.loot ⟨a.lootId, wreck.system, wreck.position, hold⟩) with
    | error e =>
      refine .inr ⟨.inr ?_, _, rfl⟩
      unfold Entities.add at hes
      split at hes
      · next htaken => exact Table.contains_iff.mp htaken
      · cases hes
    | ok es => exact .inl ⟨hold, es, hadd, hes, rfl⟩

/-- Loot shows in no outline. -/
theorem leaveLoot_spec (wreck : Ship) (salvage : List Stack) :
    ∃ r es, (a.leaveLoot wreck salvage).run.run s = (r, { s with entities := es }) ∧
      es.outline? = s.entities.outline? := by
  unfold leaveLoot
  split
  · rw [run_bind, run_get]
    simp only []
    split
    · next loot hloot =>
      obtain ⟨r, hrun⟩ := a.addToLoot_cases s loot salvage
      refine ⟨r, _, hrun, Entities.outline?_adjust_eq fun e he => ?_⟩
      rw [hloot] at he
      cases he
      rfl
    · obtain ⟨hold, es, -, hes, hrun⟩ | ⟨-, e, hrun⟩ := a.createLoot_cases s wreck salvage
      · refine ⟨_, es, hrun, funext fun j => ?_⟩
        rw [Entities.outline?_of_add hes]
        split
        · next hj =>
          rw [hj, Entities.outline?, (Entities.get?_of_add hes).1]
          rfl
        · rfl
      · exact ⟨_, _, hrun, rfl⟩
  · exact ⟨_, _, rfl, rfl⟩

/-- Clearing up gives the credits and asks for the stop even if no loot can be left. -/
theorem clearUp_spec {wreck : Ship} (h : s.entities.ship a.defender = .ok wreck) :
    ∃ r es, a.clearUp.run.run s = (r, { s with
        entities := es
        tracker := s.tracker.halt wreck.position
        stopRequests := s.stopRequests ++ [a.defender]
        credits := s.credits ++ a.bounty (a.stripped s.entities wreck) wreck }) ∧
      es.outline? = s.entities.outline? := by
  unfold clearUp
  simp only [run_bind, run_read, h, strip_run, settleUp_run]
  obtain ⟨r, es, hrun, houtline⟩ := a.leaveLoot_spec
    { s with
      entities := a.stripped s.entities wreck
      tracker := s.tracker.halt wreck.position
      stopRequests := s.stopRequests ++ [a.defender]
      credits := s.credits ++ a.bounty (a.stripped s.entities wreck) wreck }
    wreck (a.salvage s.entities wreck)
  exact ⟨r, es, hrun, houtline.trans (a.outline?_stripped s.entities wreck)⟩

/-! ### Last hooks -/

/-- What both sides are told at the end. -/
def farewell (won : Bool) : List EntityEvent :=
  [eventTo .attackedStop a.attacker a.defender, eventTo .defendedStop a.defender a.attacker] ++
    if won then [eventTo .destroyedBy a.defender a.attacker] else []

theorem announceEnd_run : a.announceEnd.run.run s = (.ok (), { s with
    raised := s.raised ++ a.farewell (a.isWon s)
    announcements := s.announcements ++
      (a.farewell (a.isWon s)).filterMap s.entities.announcement? }) := by
  -- whether the attack is won is asked after the first two announcements
  have hwon : ∀ e e', a.isWon ((s.announce e).announce e') = a.isWon s := fun _ _ => rfl
  have hcons : ∀ e es, List.filterMap s.entities.announcement? (e :: es) =
      (s.entities.announcement? e).toList ++ es.filterMap s.entities.announcement? := by
    intro e es
    rw [List.filterMap_cons]
    cases s.entities.announcement? e <;> rfl
  unfold announceEnd farewell
  simp only [run_bind, run_modify, run_get, hwon]
  cases a.isWon s with
  | true =>
    simp only [↓reduceIte, run_modify, Scene.announce, List.append_assoc, List.cons_append,
      List.nil_append, hcons, List.filterMap_nil, List.append_nil]
  | false =>
    simp only [Bool.false_eq_true, ↓reduceIte, Scene.announce, List.append_assoc, List.cons_append,
      List.nil_append, hcons, List.filterMap_nil, List.append_nil]
    rfl

/-- The entities when the attacker attacks nobody any more. -/
def disengaged (es : Entities) : Entities :=
  es.adjustShip a.attacker ({ · with attacking := none })

theorem outline?_disengaged (es : Entities) :
    (a.disengaged es).outline? = reviseIf true a.attacker (·.attack none) es.outline? :=
  Entities.outline?_adjustShip (fun _ => rfl) rfl

theorem disengage_run :
    a.disengage.run.run s = (.ok (), { s with entities := a.disengaged s.entities }) := rfl

/-- Whether an attack is won does not depend on whom the attacker attacks. -/
theorem isWon_of_outline {s s' : Scene}
    (h : s'.entities.outline? = (a.disengaged s.entities).outline?) : a.isWon s' = a.isWon s := by
  rw [isWon_eq, isWon_eq, h, outline?_disengaged]
  exact any_reviseIf (Outline.isWreckOf_attack _ _) ..

theorem exists_ship_of_isWon {s : Scene} (h : a.isWon s = true) :
    ∃ wreck, s.entities.ship a.defender = .ok wreck := by
  unfold isWon at h
  cases hship : s.entities.ship a.defender with
  | ok wreck => exact ⟨wreck, rfl⟩
  | error e =>
    rw [hship] at h
    cases h

/-- The owner of the wreck gets one credit, and so does the owner of an attacker that is there. -/
theorem countP_bounty (es : Entities) (wreck : Ship) :
    (a.bounty es wreck).countP (·.counter = Credit.userShipsDestroyed) = 1 ∧
    (a.bounty es wreck).countP (·.counter = Credit.shipsUserDestroyed) =
      ((es.outline? a.attacker).any Outline.isShip).toNat := by
  have hne : Credit.shipsUserDestroyed ≠ Credit.userShipsDestroyed := by decide
  unfold bounty
  cases hship : es.ship a.attacker with
  | ok attacker =>
    rw [Entities.outline?_of_ship hship]
    simp [hne, hne.symm, Ship.outline, Outline.isShip]
  | error e =>
    have hnone : (es.outline? a.attacker).any Outline.isShip = false := by
      cases ho : es.outline? a.attacker with
      | none => rfl
      | some o =>
        rw [Entities.outline?_of_error hship o ho]
        rfl
    simp [hnone, hne.symm]

/-- The end is announced when everything has been cleared up. -/
theorem teardown_left : (a.teardown.run.run s).2 = (a.announceEnd.run.run
    (if a.isWon s then (a.clearUp.run.run { s with entities := a.disengaged s.entities }).2
      else { s with entities := a.disengaged s.entities })).2 := by
  have hwon : a.isWon { s with entities := a.disengaged s.entities } = a.isWon s :=
    a.isWon_of_outline rfl
  unfold teardown
  simp only [run_bind, run_get, run_attempt, run_settle, disengage_run, hwon]
  cases a.isWon s with
  | false => simp only [Bool.false_eq_true, ↓reduceIte, run_pure, announceEnd_run]
  | true => simp only [↓reduceIte, announceEnd_run]

/-- Only clearing up changes more than whom the attacker attacks. -/
theorem entities_teardown : (a.teardown.run.run s).2.entities =
    if a.isWon s then
      (a.clearUp.run.run { s with entities := a.disengaged s.entities }).2.entities
    else a.disengaged s.entities := by
  rw [teardown_left, announceEnd_run]
  split <;> rfl

/-- Both sides are told that the attack is over even if clearing up failed. -/
theorem teardown_spec :
    (a.teardown.run.run s).2.entities.outline? = (a.disengaged s.entities).outline? ∧
    (a.teardown.run.run s).2.raised = s.raised ++ a.farewell (a.isWon s) ∧
    (a.teardown.run.run s).2.stopRequests =
      s.stopRequests ++ (if a.isWon s then [a.defender] else []) ∧
    ∃ credits, (a.teardown.run.run s).2.credits = s.credits ++ credits ∧
      credits.countP (·.counter = Credit.userShipsDestroyed) = (a.isWon s).toNat ∧
      credits.countP (·.counter = Credit.shipsUserDestroyed) =
        (a.isWon s && (s.entities.outline? a.attacker).any Outline.isShip).toNat := by
  have hwon : a.isWon { s with entities := a.disengaged s.entities } = a.isWon s :=
    a.isWon_of_outline rfl
  rw [teardown_left, announceEnd_run]
  cases h : a.isWon s with
  | false =>
    simp only [Bool.false_eq_true, ↓reduceIte, hwon, h, List.append_nil]
    exact ⟨trivial, trivial, trivial, [], (List.append_nil _).symm, rfl, rfl⟩
  | true =>
    rw [h] at hwon
    obtain ⟨wreck, hwreck⟩ := a.exists_ship_of_isWon hwon
    obtain ⟨r, es, hclear, houtline⟩ := a.clearUp_spec _ hwreck
    obtain ⟨hloss, hgain⟩ := a.countP_bounty (a.stripped (a.disengaged s.entities) wreck) wreck
    -- clearing up does not change who destroyed the ship
    have hwon' : a.isWon (a.clearUp.run.run { s with entities := a.disengaged s.entities }).2 =
        a.isWon s :=
      a.isWon_of_outline (by rw [hclear]; exact houtline)
    rw [hclear, h] at hwon'
    simp only [↓reduceIte, hclear, hwon']
    refine ⟨houtline, trivial, trivial, _, rfl, hloss, ?_⟩
    rw [hgain, outline?_stripped, outline?_disengaged, any_reviseIf (Outline.isShip_attack _)]
    rfl

/-- What the last hook of an attack asks for, which is won or not. -/
structure EndsWith (won present : Bool) (left : Scene) : Prop where
  /-- Both sides are told of the end. -/
  raised : left.raised = a.farewell won
  /-- All commands that act on a wreck are to be stopped. -/
  stopRequests : left.stopRequests = if won then [a.defender] else []
  /-- The owner of a wreck gets a credit. -/
  loss : left.credits.countP (·.counter = Credit.userShipsDestroyed) = won.toNat
  /-- The owner of the attacker gets a credit if the attacker is there. -/
  gain : left.credits.countP (·.counter = Credit.shipsUserDestroyed) = (won && present).toNat

/-- What `teardown` asks for if nothing has been asked for before. -/
theorem endsWith_teardown (hraised : s.raised = []) (hrequests : s.stopRequests = [])
    (hcredits : s.credits = []) : a.EndsWith (a.isWon s)
      ((s.entities.outline? a.attacker).any Outline.isShip) (a.teardown.run.run s).2 := by
  obtain ⟨-, h1, h2, credits, h3, hloss, hgain⟩ := a.teardown_spec s
  rw [hraised, List.nil_append] at h1
  rw [hrequests, List.nil_append] at h2
  rw [hcredits, List.nil_append] at h3
  exact ⟨h1, h2, h3 ▸ hloss, h3 ▸ hgain⟩

/-- Whether the attacker still attacks the defender. -/
def isEngaged (es : Entities) : Bool :=
  (es.outline? a.attacker).any (·.attacking? == some a.defender)

theorem stop_run : (a.stop.run.run s).2 =
    if a.isEngaged s.entities then
      { s with
        entities := a.disengaged s.entities
        raised := s.raised ++ a.farewell (a.isWon s)
        announcements := s.announcements ++
          (a.farewell (a.isWon s)).filterMap (a.disengaged s.entities).announcement? }
    else s := by
  unfold stop isEngaged
  rw [run_bind, run_get]
  simp only []
  cases hship : s.entities.ship a.attacker with
  | error e =>
    have hnone :
        (s.entities.outline? a.attacker).any (·.attacking? == some a.defender) = false := by
      cases ho : s.entities.outline? a.attacker with
      | none => rfl
      | some o =>
        rw [Entities.outline?_of_error hship o ho]
        rfl
    rw [hnone]
    rfl
  | ok attacker =>
    have hsome : (s.entities.outline? a.attacker).any (·.attacking? == some a.defender) =
        (attacker.attacking == some a.defender) := by
      rw [Entities.outline?_of_ship hship]
      rfl
    rw [hsome]
    cases h : attacker.attacking == some a.defender with
    | false =>
      simp only [h]
      rfl
    | true =>
      have hend := a.announceEnd_run { s with entities := a.disengaged s.entities }
      rw [a.isWon_of_outline (s := s) rfl] at hend
      simp only [h, ↓reduceIte, run_bind, disengage_run, hend]

end Orrery.Attack
