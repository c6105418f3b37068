import Orrery.Proofs.Damage

/-!
# What several attacks on one ship come to

Several ships attack the same one, and each of them lands one hit in every tick, in the order in
which the attacks were scheduled.  The damage grows from hit to hit (`Round.Siege.turn`) and from
tick to tick (`World.Siege.tick`).  The hit that destroys the ship ends all of the attacks, whether
or not they have had their turn (`Round.Siege.kill`), so that it is known beforehand in which tick
that happens, and by whose hit (`World.joint_attack_exact`).
-/

namespace Orrery

variable {κ ε : Type}

/-! ### Tolls -/

/-- Shield and hit points of a ship after each execution of a command. -/
def Setting.tolls (s : Setting κ ε) (id : EntityId) : List (CommandId × Option (Nat × Nat)) :=
  (s.chronicle.filterMap Deed.execution?).map fun (c, es) =>
    (c, (es.vitals? id).map fun v => (v.shield.toNat, v.hp.toNat))

/-- Shield and hit points of a ship after each hit of some others, if there was damage before. -/
def Ship.tolls (d : Ship) (total : Nat) : List Ship → List (CommandId × Option (Nat × Nat))
  | [] => []
  | x :: xs =>
    let total' := total + x.damage.toNat
    ((x.attackOn d).commandId,
      some (d.shield.toNat - total', d.hp.toNat - (total' - d.shield.toNat))) :: d.tolls total' xs

theorem Ship.tolls_append (d : Ship) (total : Nat) (xs ys : List Ship) :
    d.tolls total (xs ++ ys) = d.tolls total xs ++ d.tolls (total + volley xs) ys := by
  induction xs generalizing total with
  | nil => rfl
  | cons x xs ih => simp only [List.cons_append, tolls, ih, volley_cons, Nat.add_assoc]

theorem Entities.Shows.vitals? {es : Entities} {id : EntityId} {s : Ship} (h : es.Shows id s) :
    es.vitals? id = some s.vitals := by
  obtain ⟨events, hship⟩ := h
  exact vitals?_eq_some_iff.mpr ⟨_, hship, rfl⟩

/-- A hit takes its toll. -/
theorem Setting.Reaches.tolls_hit {s s' : Setting κ ε} {es : Entities} {events : List EntityEvent}
    {x d : Ship} {total : Nat} (h : s.Reaches es events [((x.attackOn d).commandId, es)] s')
    (hd : es.Shows d.id (d.hitBy x.id (total + x.damage.toNat))) :
    s'.tolls d.id = s.tolls d.id ++ d.tolls total [x] := by
  have hshield := d.toNat_shield_worn (total + x.damage.toNat)
  have hhp := d.toNat_hp_worn (total + x.damage.toNat)
  unfold tolls
  rw [h.executions, List.map_append]
  simp only [List.map_cons, List.map_nil, hd.vitals?, Option.map_some, Ship.vitals, Ship.hitBy,
    hshield, hhp, Ship.tolls]

/-! ### Hits -/

/-- A ship is beset by several others. -/
structure Ship.BesetBy (d : Ship) (xs : List Ship) (tracker : Tracker) : Prop where
  lives : 0 < d.hp
  distinct : (xs.map Ship.id).Nodup
  threatens : ∀ x ∈ xs, x.Threatens d tracker

/-- The other attackers are neither the one whose turn it is nor the defender. -/
theorem Ship.BesetBy.ne_of_mem {d x : Ship} {done todo : List Ship} {tracker : Tracker}
    (h : d.BesetBy (done ++ x :: todo) tracker) :
    ∀ y ∈ done ++ todo, y.id ≠ x.id ∧ y.id ≠ d.id := by
  intro y hy
  have hnodup := h.distinct
  rw [List.map_append, List.map_cons, List.nodup_middle, List.nodup_cons, ← List.map_append,
    List.mem_map] at hnodup
  have hmem : y ∈ done ++ x :: todo :=
    ((List.sublist_cons_self x todo).append_left done).subset hy
  exact ⟨fun heq => hnodup.1 ⟨y, hy, heq⟩, (h.threatens y hmem).distinct⟩

/-- In the midst of a round of a siege, in which `done` have hit the defender and `todo` have not;
`d` has become `d'`, with so much damage before the round. -/
structure Setting.Siege (s : Setting κ ε) (d d' : Ship) (isSetUp : Bool) (total : Nat)
    (done todo : List Ship) : Prop where
  beset : d.BesetBy (done ++ todo) s.tracker
  defender : s.entities.Shows d.id d'
  engaged : ∀ x ∈ done, s.entities.Shows x.id (x.facing d true)
  waiting : ∀ x ∈ todo, s.entities.Shows x.id (x.facing d isSetUp)
  stopRequests : s.stopRequests = []
  tolls : s.tolls d.id = d.tolls total done

/-- The attack of one of several ships. -/
def besieger (d : Ship) (p : Progress) (x : Ship) : Command κ := .attack (x.attackOn d) p

@[simp] theorem concerns_besieger (d : Ship) (p : Progress) (x : Ship) (id : EntityId) :
    (besieger d p x : Command κ).concerns id = (id == x.id || id == d.id) := rfl

/-- The progress of a command when it has been set up and then executed. -/
def Progress.executedAt (p : Progress) (now : Float) : Progress :=
  { p with lastRun := some now, isSetUp := true }

/-- Whoever has the turn hits the defender if that is alive; with the hit that destroys it, the
attack is over. -/
theorem Setting.Siege.tick (host : CommandHost κ ε) {s : Setting κ ε} {d x : Ship} {p : Progress}
    {total : Nat} {done todo : List Ship} (hrate : p.rate = none)
    (h : s.Siege d (d.worn (total + volley done)) p.isSetUp total done (x :: todo))
    (htotal : total + volley done < d.strength) :
    let total' := total + volley (done ++ [x])
    let c := (besieger d p x : Command κ).executedAt s.now
    ∃ s', s'.Siege d (d.hitBy x.id total') p.isSetUp total (done ++ [x]) todo ∧ s'.now = s.now ∧
      (besieger d p x).tick host s =
        if d.strength ≤ total' then
          (⟨true, hookFailed (c.run host .teardown s').1, true⟩, (c.run host .teardown s').2)
        else (⟨true, false, false⟩, c, s') := by
  intro total' c
  have htotal' : total' = total + volley done + x.damage.toNat := by
    simp [total', Nat.add_assoc]
  have hthreat : x.Threatens d s.tracker := h.beset.threatens x (by simp)
  obtain ⟨ready, left, hsucceeds, hx, hdefender, hothers⟩ := Attack.succeeds hrate hthreat
    h.beset.lives htotal (h.waiting x (List.mem_cons_self ..)) h.defender
  obtain ⟨s', hreaches, htick⟩ := hsucceeds.tick host
  rw [← htotal'] at hdefender
  -- the others show as before
  have hkept : ∀ {engaged}, ∀ y ∈ done ++ todo, s.entities.Shows y.id (y.facing d engaged) →
      left.entities.Shows y.id (y.facing d engaged) :=
    fun y hy => hothers (h.beset.ne_of_mem y hy).1 (h.beset.ne_of_mem y hy).2
  have hentities : s'.entities = left.entities := hreaches.entities
  have hsiege : s'.Siege d (d.hitBy x.id total') p.isSetUp total (done ++ [x]) todo := by
    refine ⟨?_, ?_, ?_, ?_, ?_, ?_⟩
    · rw [List.append_assoc, List.singleton_append, hreaches.tracker]
      exact h.beset
    · rw [hentities]
      exact hdefender
    · intro y hy
      rw [hentities]
      rcases List.mem_append.mp hy with hy | hy
      · exact hkept y (List.mem_append_left _ hy) (h.engaged y hy)
      · rw [List.mem_singleton.mp hy]
        exact hx
    · intro y hy
      rw [hentities]
      exact hkept y (List.mem_append_right _ hy) (h.waiting y (List.mem_cons_of_mem _ hy))
    · exact hreaches.stopRequests.trans h.stopRequests
    · rw [hreaches.tolls_hit (htotal' ▸ hdefender), h.tolls, Ship.tolls_append]
  have hover : c.isOver host s' = decide (d.strength ≤ total') := by
    have hthreat' : x.Threatens d s'.scene.tracker := by
      rw [show s'.scene.tracker = s.tracker from hreaches.tracker]
      exact hthreat
    exact Attack.isOver_attackOn hthreat' h.beset.lives (hsiege.engaged x (by simp))
      hsiege.defender
  refine ⟨s', hsiege, hreaches.now, htick.trans ?_⟩
  rw [show ((Command.attack (x.attackOn d) p).executedAt s.now).isOver host s' = _ from hover]
  simp only [decide_eq_true_eq]
  rfl

/-! ### Rounds -/

namespace Round

variable {host : CommandHost κ ε} {r : Round κ ε} {d x : Ship} {p : Progress} {now : Float}
  {total : Nat} {done front back : List Ship}

/-- A round of a siege, in which `done` have had their turn and `todo` have not. -/
structure Siege (r : Round κ ε) (d : Ship) (p : Progress) (now : Float) (total : Nat)
    (done todo : List Ship) : Prop where
  unthrottled : p.rate = none
  time : r.session.setting.now = now
  setting : r.session.setting.Siege d (d.worn (total + volley done)) p.isSetUp total done todo
  commands : r.commands = done.map (besieger d (p.executedAt now)) ++ todo.map (besieger d p)
  cursor : r.cursor = done.length
  report : r.report = { ran := done.length, executed := done.length }

/-- Whose turn is next. -/
theorem Siege.place (h : r.Siege d p now total done (x :: back)) :
    r.commands = done.map (besieger d (p.executedAt now)) ++
      besieger d p x :: back.map (besieger d p) ∧
    r.cursor = (done.map (besieger d (p.executedAt now) : Ship → Command κ)).length :=
  ⟨h.commands.trans (congrArg _ List.map_cons), by rw [h.cursor, List.length_map]⟩

theorem Siege.run_turn (h : r.Siege d p now total done (x :: back)) :
    r.run host = (r.turn host (besieger d p x)).run host :=
  run_of_commands h.place.1 h.place.2

/-- Whoever does not destroy the defender is followed by the next one. -/
theorem Siege.turn (host : CommandHost κ ε) (h : r.Siege d p now total done (x :: back))
    (htotal : total + volley (done ++ [x]) < d.strength) :
    (r.turn host (besieger d p x)).Siege d p now total (done ++ [x]) back := by
  have hlives : total + volley done < d.strength := by
    rw [volley_append] at htotal
    omega
  obtain ⟨s', hsiege, hnow, htick⟩ := h.setting.tick host h.unthrottled hlives
  rw [if_neg (Nat.not_le.mpr htotal)] at htick
  rw [d.hitBy_of_lt _ htotal] at hsiege
  obtain ⟨hcommands, hcursor, hsetting, hreport⟩ :=
    turn_stays h.place.1 h.place.2 htick rfl rfl hsiege.stopRequests
  refine ⟨h.unthrottled, ?_, ?_, ?_, ?_, ?_⟩
  · rw [hsetting, hnow, h.time]
  · rw [hsetting]
    exact hsiege
  · rw [hcommands, h.time, List.map_append, List.append_assoc]
    rfl
  · rw [hcursor, List.length_map, List.length_append, List.length_singleton]
  · rw [hreport, h.report, List.length_append, List.length_singleton]
    rfl

/-- The turns of some ships that do not destroy the defender. -/
theorem Siege.turns (host : CommandHost κ ε) (h : r.Siege d p now total done (front ++ back))
    (htotal : total + volley (done ++ front) < d.strength) :
    ∃ r' : Round κ ε, r.run host = r'.run host ∧ r'.Siege d p now total (done ++ front) back := by
  induction front generalizing r done with
  | nil =>
    rw [List.append_nil]
    exact ⟨r, rfl, h⟩
  | cons x front ih =>
    have hassoc : done ++ x :: front = (done ++ [x]) ++ front := by simp
    rw [hassoc] at htotal ⊢
    have hturn : total + volley (done ++ [x]) < d.strength := by
      rw [volley_append] at htotal
      omega
    obtain ⟨r', hrun, hsiege⟩ := ih (h.turn host hturn) htotal
    exact ⟨r', h.run_turn.trans hrun, hsiege⟩

end Round

/-! ### Stops -/

namespace Entities

variable {es es' : Entities} {x y d : Ship} {engaged cond : Bool}

/-- A ship attacks another one or nobody, as far as its outline shows. -/
def Faces (es : Entities) (y d : Ship) (engaged : Bool) : Prop :=
  es.outline? y.id = some (y.facing d engaged).outline

theorem Shows.faces (h : es.Shows y.id (y.facing d engaged)) : es.Faces y d engaged := by
  obtain ⟨events, hship⟩ := h
  exact (outline?_of_ship hship).trans rfl

theorem Faces.attacking (h : es.Faces y d false) :
    ∃ y', es.ship y.id = .ok y' ∧ y'.attacking = none := by
  cases hship : es.ship y.id with
  | ok y' =>
    have hout := (outline?_of_ship hship).symm.trans h
    exact ⟨y', rfl, congrArg Outline.attacking? (Option.some.inj hout)⟩
  | error e => cases outline?_of_error hship _ h

/-- Only the ship whose attack ends turns away, if it attacked at all. -/
theorem Faces.turnAway (h : es.Faces y d engaged)
    (hout : es'.outline? = reviseIf cond x.id (·.attack none) es.outline?)
    (hcond : y.id = x.id → engaged = true → cond = true) :
    es'.Faces y d (engaged && y.id != x.id) := by
  unfold Faces at h ⊢
  rw [hout, reviseIf]
  by_cases hid : y.id = x.id
  · have haway : (engaged && y.id != x.id) = false := by simp [hid]
    rw [haway]
    cases cond with
    | true =>
      rw [if_pos ⟨rfl, hid⟩, h]
      rfl
    | false =>
      rw [if_neg (by simp), h, show engaged = false by simpa using hcond hid]
  · rw [if_neg (fun hrevised => hid hrevised.2), h, bne_iff_ne.mpr hid, Bool.and_true]

end Entities

theorem Setting.Siege.exists_faces {s : Setting κ ε} {d d' : Ship} {isSetUp : Bool} {total : Nat}
    {done todo : List Ship} (h : s.Siege d d' isSetUp total done todo) :
    ∀ y ∈ done ++ todo, ∃ engaged, s.entities.Faces y d engaged := by
  intro y hy
  rcases List.mem_append.mp hy with hy | hy
  · exact ⟨true, (h.engaged y hy).faces⟩
  · exact ⟨isSetUp, (h.waiting y hy).faces⟩

/-- What is left of ships, and what the executions were, is the same. -/
structure Setting.Unharmed (s s' : Setting κ ε) : Prop where
  vitals : s'.entities.vitals? = s.entities.vitals?
  executions : s'.chronicle.filterMap Deed.execution? = s.chronicle.filterMap Deed.execution?

namespace Setting.Unharmed

variable {s s' s'' : Setting κ ε}

theorem trans (h : s.Unharmed s') (h' : s'.Unharmed s'') : s.Unharmed s'' where
  vitals := h'.vitals.trans h.vitals
  executions := h'.executions.trans h.executions

theorem tolls (h : s.Unharmed s') (id : EntityId) : s'.tolls id = s.tolls id := by
  unfold Setting.tolls
  rw [h.executions]

end Setting.Unharmed

namespace Command

variable (host : CommandHost κ ε) {x y d : Ship} {p : Progress} {engaged : Bool}

/-- Only the execution of an attack harms a ship. -/
theorem unharmed_run {c : Command κ} {a : Attack} (h : c.task = .attack a) {stage : Stage}
    (hstage : stage ≠ .execute) (s : Setting κ ε) : s.Unharmed (c.run host stage s).2.2 := by
  obtain ⟨-, hentities, -, hafter⟩ := run_of_acts host (acts?_of_attack h) stage s
  constructor
  · rw [hentities]
    exact (a.written_hook s.scene hstage).vitals?
  · rw [hafter.chronicle, List.filterMap_append]
    cases stage with
    | execute => exact absurd rfl hstage
    | _ => exact List.append_nil _

theorem faces_halt {s : Setting κ ε} (h : s.entities.Faces y d engaged) :
    ((besieger d p x).halt host s).entities.Faces y d (engaged && y.id != x.id) := by
  obtain ⟨hout, -⟩ := halt_attack host (c := besieger d p x) rfl s
  refine h.turnAway hout fun hid hengaged => ?_
  unfold Entities.Faces at h
  unfold Attack.isEngaged Ship.attackOn
  rw [← hid, h, hengaged]
  exact beq_self_eq_true (some d.id)

/-- When the attacks on a ship are stopped, those who attack it turn away, and nothing else
happens. -/
theorem halts_spec {cs : List (Command κ)} (hcs : ∀ c ∈ cs, ∃ p x, c = besieger d p x)
    (s : Setting κ ε) :
    let s' := cs.foldl (fun s c => c.halt host s) s
    s.Unharmed s' ∧ s'.stopRequests = s.stopRequests ∧
      ∀ {y engaged}, y.id ≠ d.id → s.entities.Faces y d engaged →
        s'.entities.Faces y d (engaged && cs.all (!·.concerns y.id)) := by
  induction cs generalizing s with
  | nil =>
    refine ⟨⟨rfl, rfl⟩, rfl, fun _ hy => ?_⟩
    rw [List.all_nil, Bool.and_true]
    exact hy
  | cons c cs ih =>
    obtain ⟨p, x, rfl⟩ := hcs c (List.mem_cons_self ..)
    have hstep : s.Unharmed ((besieger d p x).halt host s) :=
      unharmed_run host (c := besieger d p x) rfl Stage.noConfusion s
    obtain ⟨-, outcome, left, hafter, -, hrequests, -⟩ :=
      halt_attack host (c := besieger d p x) rfl s
    obtain ⟨hunharmed, hrest, hfaces⟩ := ih (fun c hc => hcs c (List.mem_cons_of_mem _ hc))
      ((besieger d p x).halt host s)
    refine ⟨hstep.trans hunharmed, hrest.trans ?_, fun {y engaged} hne hy => ?_⟩
    · rw [hafter.stopRequests]
      simp [Deed.requests, hrequests]
    · have hnext := hfaces hne (faces_halt host (x := x) (p := p) hy)
      rw [List.all_cons, concerns_besieger, beq_eq_false_iff_ne.mpr hne, Bool.or_false,
        ← Bool.and_assoc]
      exact hnext

/-- The attack that has destroyed the defender turns away, and asks that all others be stopped. -/
theorem teardown_spec {total : Nat} {s : Setting κ ε}
    (hdefender : s.entities.Shows d.id (d.hitBy x.id total)) (hd : 0 < d.hp)
    (htotal : d.strength ≤ total) (hrequests : s.stopRequests = []) :
    let s' := ((besieger d p x).run host .teardown s).2.2
    s.Unharmed s' ∧ s'.stopRequests = [d.id] ∧
      ∀ {y engaged}, s.entities.Faces y d engaged →
        s'.entities.Faces y d (engaged && y.id != x.id) := by
  intro s'
  obtain ⟨-, hentities, -, hafter⟩ :=
    run_of_acts host (c := besieger d p x) (acts?_of_attack rfl) .teardown s
  have hwon : (x.attackOn d).isWon s.scene = true :=
    Attack.isWon_attackOn hd htotal hdefender
  have hends := (x.attackOn d).endsWith_teardown s.scene rfl rfl rfl
  refine ⟨unharmed_run host (a := x.attackOn d) rfl Stage.noConfusion s, ?_,
    fun {y engaged} hy => ?_⟩
  · have hleft : (((x.attackOn d).hook .teardown).run.run s.scene).2.stopRequests = [d.id] := by
      show ((x.attackOn d).teardown.run.run s.scene).2.stopRequests = _
      rw [hends.stopRequests, hwon]
      rfl
    show ((besieger d p x).run host .teardown s).2.2.stopRequests = _
    rw [hafter.stopRequests, hrequests]
    simp [Deed.requests, hleft]
  · have hout : s'.entities.outline? = _ := congrArg Entities.outline? hentities
    exact hy.turnAway (hout.trans
      (((x.attackOn d).teardown_spec s.scene).1.trans ((x.attackOn d).outline?_disengaged _)))
        fun _ _ => rfl

end Command

/-- When it is asked that all attacks on a ship be stopped, nobody attacks it any more. -/
theorem Sweep.meetRequests_siege (host : CommandHost κ ε) {w : Sweep κ ε} {d : Ship}
    (hrequests : w.session.setting.stopRequests = [d.id])
    (hcs : ∀ c ∈ w.commands, ∃ p x, c = besieger d p x) :
    let w' := w.meetRequests host
    w'.stopped = w.stopped ++ w.commands.map Command.id ∧ w'.commands = [] ∧
      w.session.setting.Unharmed w'.session.setting ∧
      ∀ {y : Ship} {engaged : Bool}, y.id ≠ d.id →
        w.session.setting.entities.Faces y d engaged →
        w'.session.setting.entities.Faces y d (engaged && w.commands.all (!·.concerns y.id)) := by
  intro w'
  have hconcerns : ∀ c ∈ w.commands, c.concerns d.id = true := by
    intro c hc
    obtain ⟨p, y, rfl⟩ := hcs c hc
    rw [concerns_besieger, beq_self_eq_true, Bool.or_true]
  obtain ⟨hstopped, hcommands, hhalts, -⟩ := stopActing_spec host d.id 0 (w.withRequests [])
  have hall : ((w.withRequests []).commands.drop 0).filter (·.concerns d.id) = w.commands :=
    List.filter_eq_self.mpr hconcerns
  have hnone : ((w.withRequests []).commands.drop 0).filter (!·.concerns d.id) = [] :=
    List.filter_eq_nil_iff.mpr fun c hc => by rw [hconcerns c hc]; decide
  rw [hall] at hstopped hhalts
  rw [hnone, List.take_zero, List.nil_append] at hcommands
  obtain ⟨hunharmed, hrest, hfaces⟩ :=
    Command.halts_spec host hcs (w.withRequests []).session.setting
  rw [← hhalts] at hunharmed hrest hfaces
  have hmeet : w' = stopActing host d.id 0 (w.withRequests []) := by
    rw [← meetRequests_nil host hrest]
    exact meetRequests_cons host hrequests
  rw [hmeet]
  exact ⟨hstopped, hcommands, ⟨hunharmed.vitals, hunharmed.executions⟩, hfaces⟩

/-- What is left when a ship has been destroyed that several others have attacked. -/
structure Setting.Won (s : Setting κ ε) (d : Ship) (victor : EntityId) (xs : List Ship) : Prop where
  wreck : s.entities.vitals? d.id = some ⟨0, 0, some victor⟩
  /-- Nobody attacks it any more. -/
  attackers : ∀ x ∈ xs, s.entities.Faces x d false

namespace Round

variable {host : CommandHost κ ε} {r : Round κ ε} {d x : Ship} {p : Progress} {now : Float}
  {total : Nat} {done back : List Ship}

/-- Whoever destroys the defender ends the siege. -/
theorem Siege.kill (host : CommandHost κ ε) (h : r.Siege d p now total done (x :: back))
    (hlives : total + volley done < d.strength)
    (hkill : d.strength ≤ total + volley (done ++ [x])) :
    ∃ failed, (r.run host).report =
        { ran := done.length + 1
          executed := done.length + 1
          failed := failed
          finished := [(x.attackOn d).commandId]
          stopped := (done ++ back).map fun y => (y.attackOn d).commandId } ∧
      (r.run host).commands = [] ∧
      (r.run host).session.setting.tolls d.id = d.tolls total (done ++ [x]) ∧
      (r.run host).session.setting.Won d x.id (done ++ x :: back) := by
  obtain ⟨s', hsiege, -, htick⟩ := h.setting.tick host h.unthrottled hlives
  rw [if_pos hkill] at htick
  obtain ⟨hunharmed, hrequests, hfaces⟩ := Command.teardown_spec host (p := p.executedAt now)
    hsiege.defender h.setting.beset.lives hkill hsiege.stopRequests
  have hcommand : (besieger d p x : Command κ).executedAt r.session.setting.now =
      besieger d (p.executedAt now) x := by
    rw [h.time]
    rfl
  obtain ⟨c', s'', hrun⟩ : ∃ c' s'',
    ((besieger d (p.executedAt now) x).run host .teardown s').2 = (c', s'') := ⟨_, _, rfl⟩
  rw [hcommand, hrun] at htick
  simp only [hrun] at hunharmed hrequests hfaces
  generalize hookFailed _ = failed at htick
  obtain ⟨w, hstopped, hcommands, hsetting, hsession, -, hreport⟩ :=
    turn_leaves h.place.1 h.place.2 htick rfl
  rw [← hsetting] at hunharmed hrequests hfaces
  have hattacks : ∀ c ∈ w.commands, ∃ p y, c = besieger d p y := by
    intro c hc
    rw [hcommands, List.mem_append, List.mem_map, List.mem_map] at hc
    obtain ⟨y, -, rfl⟩ | ⟨y, -, rfl⟩ := hc
    · exact ⟨_, y, rfl⟩
    · exact ⟨_, y, rfl⟩
  obtain ⟨hstopped', hcommands', hunharmed', hfaces'⟩ :=
    Sweep.meetRequests_siege host hrequests hattacks
  have hnone : (r.turn host (besieger d p x)).commands = [] :=
    (congrArg (·.schedule.commands) hsession).trans hcommands'
  have hall := hunharmed.trans hunharmed'
  rw [h.run_turn, run_of_le (by rw [hnone]; exact Nat.zero_le _), hreport, hsession]
  refine ⟨failed.toNat, ?_, hnone, ?_, ?_, fun y hy => ?_⟩
  · have hid (p : Progress) (y : Ship) :
        (besieger d p y : Command κ).id = (y.attackOn d).commandId := rfl
    rw [h.report, hstopped', hstopped, hcommands]
    simp [Function.comp_def, hid]
  · rw [hall.tolls, hsiege.tolls]
  · rw [hall.vitals, hsiege.defender.vitals?, d.vitals_hitBy x.id hkill]
  · have hne : y.id ≠ d.id := (h.setting.beset.threatens y hy).distinct
    obtain ⟨engaged, hfacing⟩ := hsiege.exists_faces y (by simpa using hy)
    -- either its own attack has destroyed the defender or it is stopped
    have haway : (engaged && y.id != x.id && w.commands.all (!·.concerns y.id)) = false := by
      have hstops : ∀ p, besieger d p y ∈ w.commands →
          (w.commands.all (!·.concerns y.id)) = false := fun p hc =>
        List.all_eq_false.mpr ⟨_, hc, by simp⟩
      rw [List.mem_append, List.mem_cons] at hy
      rw [hcommands] at hstops ⊢
      obtain hy | rfl | hy := hy
      · rw [hstops _ (List.mem_append_left _ (List.mem_map_of_mem hy)), Bool.and_false]
      · rw [bne_self_eq_false, Bool.and_false, Bool.false_and]
      · rw [hstops _ (List.mem_append_right _ (List.mem_map_of_mem hy)), Bool.and_false]
    have hend := hfaces' hne (hfaces hfacing)
    rwa [haway] at hend

end Round

/-! ### Sieges -/

/-- Where a running sum of damage passes a bound. -/
theorem exists_split_of_lt_volley {xs : List Ship} {n : Nat} (h : n < volley xs) :
    ∃ front x back, xs = front ++ x :: back ∧ volley front ≤ n ∧ n < volley (front ++ [x]) := by
  induction xs generalizing n with
  | nil => cases h
  | cons y xs ih =>
    by_cases hy : n < y.damage.toNat
    · exact ⟨[], y, xs, rfl, Nat.zero_le n, by simpa using hy⟩
    · rw [volley_cons] at h
      obtain ⟨front, x, back, rfl, hle, hlt⟩ := ih (n := n - y.damage.toNat) (by omega)
      exact ⟨y :: front, x, back, rfl, by rw [volley_cons]; omega,
        by rw [List.cons_append, volley_cons]; omega⟩

namespace World

variable {host : Host κ ε} {w : World κ ε} {d x : Ship} {p : Progress} {total : Nat}
  {xs front back : List Ship}

/-- Between two ticks of a siege, with so much damage so far. -/
structure Siege (w : World κ ε) (d : Ship) (p : Progress) (total : Nat) (xs : List Ship) :
    Prop where
  intact : w.registry.poisoned = false
  unthrottled : p.rate = none
  beset : d.BesetBy xs w.tracker
  commands : w.registry.schedule.commands = xs.map (besieger d p)
  defender : w.registry.entities.Shows d.id (d.worn total)
  attackers : ∀ x ∈ xs, w.registry.entities.Shows x.id (x.facing d p.isSetUp)

/-- Shield and hit points of a ship after each execution of a command in a tick. -/
def tolls (host : CommandHost κ ε) (w : World κ ε) (now : Float) (id : EntityId) :
    List (CommandId × Option (Nat × Nat)) :=
  ((w.session now).tick host).2.setting.tolls id

/-- A tick begins with a round in which nobody has had a turn. -/
theorem Siege.round (h : w.Siege d p total xs) (now : Float) :
    ({ session := w.session now } : Round κ ε).Siege d p now total [] xs where
  unthrottled := h.unthrottled
  time := rfl
  setting :=
    { beset := h.beset
      defender := h.defender
      engaged := fun _ hx => by cases hx
      waiting := h.attackers
      stopRequests := rfl
      tolls := rfl }
  commands := h.commands
  cursor := rfl
  report := rfl

/-- A tick that leaves the defender alive. -/
theorem Siege.tick (hhost : host.OnlyReplies) (h : w.Siege d p total xs)
    (htotal : total + volley xs < d.strength) (now : Float) : ∃ delivery w',
      w.tickCommands host now =
        (.ok ⟨{ ran := xs.length, executed := xs.length }, delivery⟩, w') ∧
      w.tolls host.toCommandHost now d.id = d.tolls total xs ∧
      w'.Siege d (p.executedAt now) (total + volley xs) xs := by
  have hround := h.round now
  rw [← List.append_nil xs] at hround
  obtain ⟨r, hrun, hsiege⟩ := hround.turns host.toCommandHost htotal
  rw [List.nil_append] at hsiege
  have hover : r.run host.toCommandHost = r :=
    Round.run_of_le (by rw [hsiege.commands, hsiege.cursor]; simp)
  have htick : (w.session now).tick host.toCommandHost = (r.report, r.session) := by
    unfold Session.tick
    rw [hrun, hover]
  obtain ⟨delivery, w', htold, hfollows⟩ := exists_follows hhost now h.intact
  rw [htick] at htold hfollows
  have hbeset := hsiege.setting.beset
  have hcommands := hsiege.commands
  rw [List.append_nil] at hbeset
  rw [List.map_nil, List.append_nil] at hcommands
  refine ⟨delivery, w', htold.trans (by rw [hsiege.report]), ?_,
    { intact := hfollows.intact
      unthrottled := h.unthrottled
      beset := hfollows.tracker ▸ hbeset
      commands := (congrArg Schedule.commands hfollows.schedule).trans hcommands
      defender := hfollows.ship hsiege.setting.defender
      attackers := fun x hx => hfollows.ship (hsiege.setting.engaged x hx) }⟩
  rw [tolls, htick]
  exact hsiege.setting.tolls

/-- The tick in which the defender is destroyed. -/
theorem Siege.kill (hhost : host.OnlyReplies) (h : w.Siege d p total (front ++ x :: back))
    (hlives : total + volley front < d.strength)
    (hkill : d.strength ≤ total + volley (front ++ [x])) (now : Float) :
    ∃ failed delivery w',
      w.tickCommands host now =
        (.ok ⟨
          { ran := front.length + 1
            executed := front.length + 1
            failed := failed
            finished := [(x.attackOn d).commandId]
            stopped := (front ++ back).map fun y => (y.attackOn d).commandId }, delivery⟩, w') ∧
      w.tolls host.toCommandHost now d.id = d.tolls total (front ++ [x]) ∧
      w'.registry.schedule.commands = [] ∧
      (∃ wreck, w'.registry.entities.ship d.id = .ok wreck ∧
        wreck.vitals = ⟨0, 0, some x.id⟩) ∧
      ∀ y ∈ front ++ x :: back,
        ∃ y', w'.registry.entities.ship y.id = .ok y' ∧ y'.attacking = none := by
  obtain ⟨r, hrun, hsiege⟩ := (h.round now).turns host.toCommandHost
    (by rwa [List.nil_append])
  rw [List.nil_append] at hsiege
  obtain ⟨failed, hreport, hcommands, htolls, hwon⟩ :=
    hsiege.kill host.toCommandHost hlives hkill
  have htick : (w.session now).tick host.toCommandHost =
      ((r.run host.toCommandHost).report, (r.run host.toCommandHost).session) := by
    unfold Session.tick
    rw [hrun]
  obtain ⟨delivery, w', htold, hfollows⟩ := exists_follows hhost now h.intact
  rw [htick] at htold hfollows
  refine ⟨failed, delivery, w', htold.trans (by rw [hreport]), ?_,
    (congrArg Schedule.commands hfollows.schedule).trans hcommands, ?_, fun y hy => ?_⟩
  · rw [tolls, htick]
    exact htolls
  · obtain ⟨wreck, hship, hvitals⟩ := Entities.vitals?_eq_some_iff.mp hwon.wreck
    obtain ⟨events, hship'⟩ := hfollows.ship (Entities.shows_of_ship hship)
    exact ⟨_, hship', hvitals⟩
  · obtain ⟨y', hship, hnone⟩ := (hwon.attackers y hy).attacking
    obtain ⟨events, hship'⟩ := hfollows.ship (Entities.shows_of_ship hship)
    exact ⟨_, hship', hnone⟩

/-- As long as the defender is alive, every tick does the damage of all attackers. -/
theorem Siege.performAll (hhost : host.OnlyReplies) (h : w.Siege d p total xs)
    (times : List Float) (htotal : total + times.length * volley xs < d.strength) :
    ∃ p', (w.performAll host (times.map .tick)).Siege d p'
      (total + times.length * volley xs) xs := by
  refine grows_performAll (P := fun total w => ∃ p, w.Siege d p total xs)
    (fun htotal ⟨p, hsiege⟩ now => ?_) ⟨p, h⟩ times htotal
  obtain ⟨delivery, w', htick, -, hnext⟩ := hsiege.tick hhost htotal now
  rw [htick]
  exact ⟨p.executedAt now, hnext⟩

/-- What is given before the first tick of a siege. -/
structure Besieged (w : World κ ε) (d : Ship) (xs : List Ship) : Prop where
  intact : w.registry.poisoned = false
  /-- The attacks have not begun, and there are no other commands. -/
  commands : w.registry.schedule.commands = xs.map fun x => .attack (x.attackOn d)
  nonempty : xs ≠ []
  attackers : ∀ x ∈ xs, w.registry.entities.ship x.id = .ok x
  defender : w.registry.entities.ship d.id = .ok d
  lives : 0 < d.hp
  threatens : ∀ x ∈ xs, x.Threatens d w.tracker

theorem Besieged.siege (h : w.Besieged d xs) : w.Siege d {} 0 xs where
  intact := h.intact
  unthrottled := rfl
  beset :=
    { lives := h.lives
      distinct := by
        -- the attacks have different names, so the attackers have
        have hids := w.registry.schedule.distinct
        rw [h.commands, List.map_map] at hids
        refine List.Nodup.of_map (CommandId.forEntity "attack") ?_
        rw [List.map_map]
        exact hids
      threatens := h.threatens }
  commands := h.commands
  defender := by
    rw [d.worn_zero]
    exact Entities.shows_of_ship h.defender
  attackers x hx := by
    rw [(h.threatens x hx).facing_false]
    exact Entities.shows_of_ship (h.attackers x hx)

theorem Besieged.volley_pos (h : w.Besieged d xs) : 0 < volley xs := by
  obtain ⟨x, xs', rfl⟩ := List.exists_cons_of_ne_nil h.nonempty
  have hdamage : 0 < x.damage.toNat :=
    UInt32.lt_iff_toNat_lt.mp (h.threatens x (List.mem_cons_self ..)).damage
  rw [volley_cons]
  omega

/-- The hit that makes up the strength of a ship comes in a certain tick, and from a certain one of
those who attack the ship. -/
theorem Besieged.exists_last_hit (h : w.Besieged d xs) : ∃ t front x back, xs = front ++ x :: back ∧
    t * volley xs + volley front < d.strength ∧
    d.strength ≤ t * volley xs + volley (front ++ [x]) := by
  have hvolley := h.volley_pos
  have hlives : 0 < d.hp.toNat := UInt32.lt_iff_toNat_lt.mp h.lives
  have hstrength : 0 < d.strength := Nat.add_pos_right _ hlives
  obtain ⟨front, x, back, hxs, hle, hlt⟩ :=
    exists_split_of_lt_volley (Nat.mod_lt (d.strength - 1) hvolley)
  have hrest := Nat.div_add_mod' (d.strength - 1) (volley xs)
  exact ⟨(d.strength - 1) / volley xs, front, x, back, hxs, by omega, by omega⟩

/-- Several ships attack the same one.  There is a tick and an attacker with whose hit the sum of
all damage reaches shield and hit points for the first time; `t` is the number of ticks before it.

Until then all attacks stay on the schedule and hit in every tick, and what is left of the ship
after so much damage follows from the sum.  With that hit the ship is destroyed: the attack that
landed it is finished, all the others are stopped in order, those that had their turn in that tick
as well as those that did not, no command remains, and nobody attacks any more. -/
theorem joint_attack_exact (hhost : host.OnlyReplies) (h : w.Besieged d xs) :
    ∃ t front x back, xs = front ++ x :: back ∧
      t * volley xs + volley front < d.strength ∧
      d.strength ≤ t * volley xs + volley (front ++ [x]) ∧
      ∀ (times : List Float) (now : Float), times.length ≤ t →
        let total := times.length * volley xs
        let v := w.performAll host (times.map .tick)
        v.registry.schedule.ids = (xs.map fun y => (y.attackOn d).commandId) ∧
        (∃ d', v.registry.entities.ship d.id = .ok d' ∧
          d'.shield.toNat = d.shield.toNat - total ∧
          d'.hp.toNat = d.hp.toNat - (total - d.shield.toNat) ∧
          d'.destroyedBy = d.destroyedBy) ∧
        (times.length < t → ∃ delivery v',
          v.tickCommands host now =
            (.ok ⟨{ ran := xs.length, executed := xs.length }, delivery⟩, v') ∧
          v.tolls host.toCommandHost now d.id = d.tolls total xs) ∧
        (times.length = t → ∃ failed delivery v',
          v.tickCommands host now =
            (.ok ⟨
              { ran := front.length + 1
                executed := front.length + 1
                failed := failed
                finished := [(x.attackOn d).commandId]
                stopped := (front ++ back).map fun y => (y.attackOn d).commandId }, delivery⟩,
              v') ∧
          v.tolls host.toCommandHost now d.id = d.tolls total (front ++ [x]) ∧
          v'.registry.schedule.commands = [] ∧
          (∃ wreck, v'.registry.entities.ship d.id = .ok wreck ∧
            wreck.vitals = ⟨0, 0, some x.id⟩) ∧
          ∀ y ∈ xs, ∃ y', v'.registry.entities.ship y.id = .ok y' ∧ y'.attacking = none) := by
  obtain ⟨t, front, x, back, hxs, hlives, hkill⟩ := h.exists_last_hit
  refine ⟨t, front, x, back, hxs, hlives, hkill, ?_⟩
  intro times now htimes total v
  have htotal : total ≤ t * volley xs := Nat.mul_le_mul_right _ htimes
  obtain ⟨p, hsiege⟩ := h.siege.performAll hhost times (by rw [Nat.zero_add]; omega)
  rw [Nat.zero_add] at hsiege
  refine ⟨?_, ?_, fun hbefore => ?_, fun hlast => ?_⟩
  · exact (congrArg (List.map Command.id) hsiege.commands).trans (List.map_map ..)
  · obtain ⟨events, hship⟩ := hsiege.defender
    exact ⟨_, hship, d.toNat_shield_worn total, d.toNat_hp_worn total, rfl⟩
  · have hmore : total + volley xs ≤ t * volley xs := by
      rw [← Nat.succ_mul]
      exact Nat.mul_le_mul_right _ hbefore
    obtain ⟨delivery, v', htick, htolls, -⟩ := hsiege.tick hhost (by omega) now
    exact ⟨delivery, v', htick, htolls⟩
  · have hlast' : total = t * volley xs := congrArg (· * volley xs) hlast
    subst hxs
    rw [← hlast'] at hlives hkill
    exact hsiege.kill hhost hlives hkill now

end World

namespace Skirmish

/-- A ship that does not destroy others with one hit. -/
def raider : Ship := { hunter with id := ⟨"raider"⟩, damage := 8 }

/-- A ship that does even less damage. -/
def straggler : Ship := { hunter with id := ⟨"straggler"⟩, damage := 6 }

/-- Both attack the same ship. -/
def ambush : World Unit Unit where
  tracker := tracker
  registry :=
    { entities :=
        { table :=
            { entries := [raider, straggler, prey].map fun s => (s.id, .ship s)
              nodup := by decide } }
      schedule :=
        { commands := [.attack (raider.attackOn prey), .attack (straggler.attackOn prey)]
          distinct := by decide } }
  outside := ()

theorem besieged_ambush : ambush.Besieged prey [raider, straggler] where
  intact := rfl
  commands := rfl
  nonempty := List.cons_ne_nil _ _
  attackers := List.forall_mem_cons.mpr ⟨rfl, List.forall_mem_singleton.mpr rfl⟩
  defender := rfl
  lives := by decide
  threatens := List.forall_mem_cons.mpr
    ⟨⟨by decide, by decide, rfl, ⟨_, rfl, by decide +kernel⟩, rfl, rfl, by decide⟩,
      List.forall_mem_singleton.mpr
        ⟨by decide, by decide, rfl, ⟨_, rfl, by decide +kernel⟩, rfl, rfl, by decide⟩⟩

end Skirmish

/-- The first tick leaves eleven of twenty-five hit points, and the second hit of the next one is
the last. -/
theorem World.joint_attack_exact_ambush : ∃ failed delivery v',
    (Skirmish.ambush.performAll Host.still [.tick 0]).tickCommands Host.still 1 =
      (.ok ⟨
        { ran := 2
          executed := 2
          failed := failed
          finished := [(Skirmish.straggler.attackOn Skirmish.prey).commandId]
          stopped := [(Skirmish.raider.attackOn Skirmish.prey).commandId] }, delivery⟩, v') ∧
    v'.registry.schedule.commands = [] ∧
    ∃ wreck, v'.registry.entities.ship Skirmish.prey.id = .ok wreck ∧
      wreck.vitals = ⟨0, 0, some Skirmish.straggler.id⟩ := by
  obtain ⟨t, front, x, back, hxs, hlives, hkill, hsiege⟩ :=
    joint_attack_exact Host.onlyReplies_still Skirmish.besieged_ambush
  have hstrength : Skirmish.prey.strength = 25 := by decide
  have hvolley : volley [Skirmish.raider, Skirmish.straggler] = 14 := by decide
  rw [hstrength, hvolley] at hlives hkill
  obtain ⟨rfl, rfl, rfl, rfl⟩ : t = 1 ∧ front = [Skirmish.raider] ∧ x = Skirmish.straggler ∧
      back = [] := by
    rcases front with _ | ⟨y, _ | ⟨z, front⟩⟩
    · obtain ⟨rfl, rfl⟩ := List.cons.inj hxs
      have hfirst : volley ([] ++ [Skirmish.raider]) = 8 := by decide
      rw [volley_nil] at hlives
      rw [hfirst] at hkill
      omega
    · obtain ⟨rfl, hrest⟩ := List.cons.inj hxs
      obtain ⟨rfl, rfl⟩ := List.cons.inj hrest
      have hfirst : volley [Skirmish.raider] = 8 := by decide
      have hsecond : volley ([Skirmish.raider] ++ [Skirmish.straggler]) = 14 := by decide
      rw [hfirst] at hlives
      rw [hsecond] at hkill
      exact ⟨by omega, rfl, rfl, rfl⟩
    · simpa using congrArg List.length hxs
  obtain ⟨-, -, -, hlast⟩ := hsiege [0] 1 (Nat.le_refl _)
  obtain ⟨failed, delivery, v', htick, -, hcommands, hwreck, -⟩ := hlast rfl
  exact ⟨failed, delivery, v', htick, hcommands, hwreck⟩

end Orrery
