import Orrery.Proofs.Combat
import Orrery.Proofs.Conservation
import Orrery.Proofs.Salvage

/-!
# Loot

Every hit that destroys a ship is followed by a `teardown` that finds what the hit left, so every
ship that is destroyed is cleared up in the same tick (`ClearsUp`).  Whether its cargo is recovered
can therefore be told from the entities as the hit finds them (`World.cargo_recovered_iff`).
-/

namespace Orrery

variable {κ ε : Type}

/-! ### Every kill is cleared up -/

/-- The attack whose hit destroys a ship, and the ship as the hit finds it. -/
def Deed.kill? : Deed κ → Option (Attack × Ship)
  | hook ⟨_, .attack a⟩ .execute _ found left =>
    match found.entities.ship a.defender, left.entities.ship a.defender with
    | .ok prey, .ok wreck => if prey.alive && !wreck.alive then some (a, prey) else none
    | _, _ => none
  | _ => none

/-- What a deed does that destroys a ship: it is a hit on that ship. -/
def Deed.Hits (d : Deed κ) (a : Attack) (prey : Ship) : Prop :=
  d.found.entities.ship a.defender = .ok prey ∧ ∃ x,
    d.left.entities = d.found.entities.adjustShip a.defender fun _ => a.struck x prey

/-- If the deed destroys a ship, the attack is won next, in the state that the deed left, and is
torn down. -/
def Deed.IsClearedUp (d : Deed κ) (rest : List (Deed κ)) : Prop :=
  ∀ a prey, d.kill? = some (a, prey) → d.Hits a prey ∧
    ∃ mid last later found, rest = mid ++ last :: later ∧ last.victory? = some (a, found) ∧
      found.entities = d.left.entities ∧ last.left = (a.teardown.run.run found).2

/-- Every ship that is destroyed is cleared up. -/
def ClearsUp (ds : List (Deed κ)) : Prop :=
  ∀ front d rest, ds = front ++ d :: rest → d.IsClearedUp rest

theorem Deed.kill?_eq_none {c : Command κ} {stage : Stage} {outcome : Except CommandError Unit}
    {found left : Scene} (h : (∀ a, c.task ≠ .attack a) ∨ stage ≠ .execute) :
    (hook c stage outcome found left).kill? = none := by
  obtain ⟨progress, task⟩ := c
  cases task with
  | attack a =>
    cases stage with
    | execute => exact (h.elim (fun h => h a rfl) (fun h => h rfl)).elim
    | setup | before | after | teardown | stop => rfl
  | mining | custom => rfl

namespace ClearsUp

variable {ds ds' : List (Deed κ)}

theorem append (h : ClearsUp ds) (h' : ClearsUp ds') : ClearsUp (ds ++ ds') := by
  intro front d rest heq
  rcases List.append_eq_append_iff.mp heq with ⟨mid, hfront, hrest⟩ | ⟨mid, hfront, hrest⟩
  · exact h' mid d rest hrest
  · -- the deed is one of the former, unless there is nothing between
    cases mid with
    | nil => exact h' [] d rest hrest.symm
    | cons d' mid =>
      rw [List.cons_append] at hrest
      obtain ⟨rfl, rfl⟩ := List.cons.inj hrest
      intro a prey hkill
      obtain ⟨hhits, mid', last, later, found, rfl, hvictory⟩ := h front d mid hfront a prey hkill
      exact ⟨hhits, mid', last, later ++ ds', found, by simp, hvictory⟩

theorem of_kill?_eq_none (h : ∀ d ∈ ds, d.kill? = none) : ClearsUp ds := by
  rintro front d rest rfl a prey hkill
  rw [h d (by simp)] at hkill
  cases hkill

theorem cons {d : Deed κ} (hd : d.IsClearedUp ds) (h : ClearsUp ds) : ClearsUp (d :: ds) := by
  intro front d' rest heq
  cases front with
  | nil =>
    obtain ⟨rfl, rfl⟩ := List.cons.inj heq
    exact hd
  | cons d'' front =>
    obtain ⟨rfl, rfl⟩ := List.cons.inj heq
    exact h front d' rest rfl

end ClearsUp

/-- A hit that destroys the defender wins the attack. -/
theorem Attack.isWon_of_struck {a : Attack} {s : Scene} {x prey : Ship} (hlives : 0 < prey.hp)
    (hdead : (a.struck x prey).alive = false)
    (h : s.entities.ship a.defender = .ok (a.struck x prey)) : a.isWon s = true := by
  have hhp : (a.struck x prey).vitals.hp = 0 := by simpa [Ship.alive, Ship.vitals] using hdead
  have hby := (a.vitals_struck (x := x) hlives).destroyedBy
  rw [if_pos hhp] at hby
  have hby' : (a.struck x prey).destroyedBy = some a.attacker := hby
  simp [isWon, h, hdead, hby']

/-- An attack that is won cannot go on. -/
theorem Attack.isPossible_of_isWon {a : Attack} {s : Scene} (h : a.isWon s = true) :
    a.isPossible s = false := by
  by_contra hpossible
  obtain ⟨-, hlive⟩ := isLive_of_isPossible (Bool.of_not_eq_false hpossible)
  rw [a.isWon_eq] at h
  obtain ⟨o, ho, hwreck⟩ := (Option.any_eq_true ..).mp h
  rw [ho, Option.any_some] at hlive
  rw [Outline.isWreckOf_of_isLive hlive] at hwreck
  cases hwreck

/-- No ship has been destroyed since `past`. -/
def Setting.Spares (past : List (Deed κ)) (s : Setting κ ε) : Prop :=
  ∃ ds, s.chronicle = past ++ ds ∧ ∀ d ∈ ds, d.kill? = none

theorem Setting.Spares.note {past : List (Deed κ)} {s s' : Setting κ ε} {d : Deed κ}
    (h : s.Spares past) (hchronicle : s'.chronicle = s.chronicle ++ [d]) (hd : d.kill? = none) :
    s'.Spares past := by
  obtain ⟨ds, hds, hnone⟩ := h
  refine ⟨ds ++ [d], by rw [hchronicle, hds, List.append_assoc], fun d' hd' => ?_⟩
  rcases List.mem_append.mp hd' with hd' | hd'
  · exact hnone d' hd'
  · rw [List.mem_singleton.mp hd']
    exact hd

/-- What a tick of an attack has done so far: it has destroyed no ship yet, or it has destroyed one
and nothing has changed since. -/
inductive Setting.Strikes (a : Attack) (past : List (Deed κ)) (s : Setting κ ε) : Prop where
  | spared (h : s.Spares past)
  | killed (front : List (Deed κ)) (d : Deed κ) (hfront : ∀ d ∈ front, d.kill? = none)
    (prey : Ship) (hkill : d.kill? = some (a, prey)) (hhits : d.Hits a prey)
    (h : s.Spares (past ++ front ++ [d])) (hleft : s.entities = d.left.entities)
    (hwon : a.isWon s.scene = true)

namespace Setting.Strikes

variable (host : CommandHost κ ε) {c : Command κ} {a : Attack} {past : List (Deed κ)}
  {s s' : Setting κ ε}

/-- A deed that destroys nothing and changes nothing makes no difference. -/
theorem note {d : Deed κ} (h : s.Strikes a past) (hchronicle : s'.chronicle = s.chronicle ++ [d])
    (hd : d.kill? = none) (hentities : s'.entities = s.entities) : s'.Strikes a past := by
  cases h with
  | spared h => exact .spared (h.note hchronicle hd)
  | killed front k hfront prey hkill hhits h hleft hwon =>
    refine .killed front k hfront prey hkill hhits (h.note hchronicle hd)
      (hentities.trans hleft) ?_
    rw [Attack.isWon_eq] at hwon ⊢
    rw [← hwon]
    exact congrArg (fun es : Entities => (es.outline? a.defender).any _) hentities

/-- A hook that leaves the entities as they are makes no difference. -/
theorem run (h : s.Strikes a past) (htask : c.task = .attack a) (stage : Stage)
    (hstage : stage ≠ .execute)
    (hsame : ((a.hook stage).run.run s.scene).2.entities = s.entities) :
    (c.run host stage s).2.2.Strikes a past := by
  obtain ⟨-, hentities, -, hafter⟩ :=
    Command.run_of_acts host (Command.acts?_of_attack htask) stage s
  exact h.note hafter.chronicle (Deed.kill?_eq_none (.inr hstage)) (hentities.trans hsame)

/-- A hit that is possible destroys the ship or does not; either way it is the first to do so. -/
theorem execute (h : s.Strikes a past) (htask : c.task = .attack a)
    (hpossible : a.isPossible s.scene = true) : (c.run host .execute s).2.2.Strikes a past := by
  obtain ⟨-, hentities, -, hafter⟩ :=
    Command.run_of_acts host (Command.acts?_of_attack htask) .execute s
  obtain ⟨x, prey, hlegal⟩ := Attack.exists_isLegal hpossible
  cases h with
  | killed _ _ _ _ _ _ _ _ hwon =>
    rw [Attack.isPossible_of_isWon hwon] at hpossible
    cases hpossible
  | spared hspared =>
    have hleft : ((a.hook .execute).run.run s.scene).2.entities =
        s.entities.adjustShip a.defender fun _ => a.struck x prey :=
      congrArg (fun r => r.2.entities) (a.execute_run s.scene hlegal.attacker hlegal.defender)
    have hship := Entities.ship_adjustShip s.entities a.defender (fun _ => a.struck x prey)
      hlegal.defender
    rw [if_pos rfl, ← hleft] at hship
    have hkill : (Deed.hook c .execute ((a.hook .execute).run.run s.scene).1 s.scene
        ((a.hook .execute).run.run s.scene).2).kill? =
          if prey.alive && !(a.struck x prey).alive then some (a, prey) else none := by
      obtain ⟨progress, task⟩ := c
      cases htask
      simp only [Deed.kill?, hlegal.defender, hship]
    cases hdead : prey.alive && !(a.struck x prey).alive with
    | false =>
      rw [hdead, if_neg Bool.false_ne_true] at hkill
      exact .spared (hspared.note hafter.chronicle hkill)
    | true =>
      rw [hdead, if_pos rfl] at hkill
      rw [Bool.and_eq_true, Bool.not_eq_true'] at hdead
      obtain ⟨ds, hds, hnone⟩ := hspared
      refine .killed ds _ hnone prey hkill ⟨hlegal.defender, x, hleft⟩
        ⟨[], ?_, List.forall_mem_nil _⟩ hentities (Attack.isWon_of_struck hlegal.defenderLives
          hdead.2 ((congrArg (·.ship a.defender) hentities).trans hship))
      rw [hafter.chronicle, hds, List.append_nil]

end Setting.Strikes

namespace Command

variable (host : CommandHost κ ε) {c : Command κ} {a : Attack} {s : Setting κ ε}

theorem spares_start (c : Command κ) (s : Setting κ ε) : (c.start s).setting.Spares s.chronicle :=
  ⟨[.turn c s.scene], rfl, List.forall_mem_singleton.mpr rfl⟩

/-- A hook that is not the hit of an attack destroys nothing. -/
theorem spares_run {c : Command κ} (stage : Stage)
    (h : (∀ a, c.task ≠ .attack a) ∨ stage ≠ .execute) {past : List (Deed κ)}
    (hs : s.Spares past) : (c.run host stage s).2.2.Spares past :=
  hs.note (after_run host stage c s).chronicle (Deed.kill?_eq_none h)

/-- What the stages of an attack have done before the attack is asked whether it is over. -/
theorem strikes_performance (htask : c.task = .attack a) (s : Setting κ ε) :
    (c.performance host s).command.task = .attack a ∧
      (c.performance host s).setting.Strikes a s.chronicle := by
  have hsame : ∀ {c' : Command κ} (stage : Stage) (s' : Setting κ ε), c'.task = .attack a →
      (c'.run host stage s').2.1.task = .attack a := fun stage s' h => by
    rw [(run_of_acts host (acts?_of_attack h) stage s').1]
    exact h
  refine performance_of_stages (P := fun p : Performance κ ε => p.command.task = .attack a ∧
    p.setting.Strikes a s.chronicle) host ?_ (fun p hp => ?_) ?_ (fun p hp => ?_)
  · -- setting up destroys nothing
    have hperform : Keeps (fun p : Performance κ ε => p.command.task = .attack a ∧
        p.setting.Spares s.chronicle) (Performance.perform host .setup) := fun p hp =>
      ⟨hsame .setup p.setting hp.1, spares_run host .setup (.inr (by decide)) hp.2⟩
    have hsetup := Performance.keeps_setUp hperform (fun _ hp => hp) (c.start s)
      ⟨htask, spares_start c s⟩
    exact ⟨hsetup.1, .spared hsetup.2⟩
  · obtain ⟨r, hrun⟩ := a.before_cases p.setting.scene
    exact ⟨hsame .before p.setting hp.1, hp.2.run host hp.1 .before (by decide)
      (congrArg (fun r => r.2.entities) hrun)⟩
  · refine Performance.keeps_execute_of_mayExecute (fun p hmay hp => ?_) fun _ hp => hp
    have hpossible : a.isPossible p.setting.scene = true := by
      rw [mayExecute, hp.1] at hmay
      exact (Bool.and_eq_true_iff.mp hmay).2
    exact ⟨hsame .execute _ hp.1, hp.2.execute host (c := p.noteRun.command) hp.1 hpossible⟩
  · exact ⟨hsame .after p.setting hp.1, hp.2.run host hp.1 .after (by decide) rfl⟩

theorem clearsUp_of_spares (hs : ClearsUp s.chronicle) {s' : Setting κ ε}
    (h : s'.Spares s.chronicle) : ClearsUp s'.chronicle := by
  obtain ⟨ds, hds, hnone⟩ := h
  rw [hds]
  exact hs.append (.of_kill?_eq_none hnone)

/-- The `teardown` that ends an attack that is won. -/
theorem victory?_teardown (htask : c.task = .attack a) {outcome : Except CommandError Unit}
    {found left : Scene} (hwon : a.isWon found = true) :
    (Deed.hook c .teardown outcome found left).victory? = some (a, found) := by
  obtain ⟨progress, task⟩ := c
  cases htask
  exact if_pos hwon

/-- An attack that destroys a ship ends in the same tick. -/
theorem clearsUp_tick_attack (htask : c.task = .attack a) (hs : ClearsUp s.chronicle) :
    ClearsUp (c.tick host s).2.2.chronicle := by
  obtain ⟨htask', hstrikes⟩ := strikes_performance host htask s
  cases hover : (c.performance host s).command.isOver host (c.performance host s).setting with
  | false =>
    have hpossible : a.isPossible (c.performance host s).setting.scene = true := by
      rw [isOver, htask'] at hover
      exact Attack.isPossible_of_isOver hover
    rw [(tick_of_not_isOver host hover).2]
    cases hstrikes with
    | spared h => exact clearsUp_of_spares hs h
    | killed _ _ _ _ _ _ _ _ hwon =>
      rw [Attack.isPossible_of_isWon hwon] at hpossible
      cases hpossible
  | true =>
    rw [(tick_of_isOver host hover).2]
    cases hstrikes with
    | spared h => exact clearsUp_of_spares hs (spares_run host .teardown (.inr (by decide)) h)
    | killed front d hfront prey hkill hhits h hleft hwon =>
      obtain ⟨rest, hrest, hnone⟩ := h
      obtain ⟨-, -, -, hafter⟩ := run_of_acts host (acts?_of_attack htask') .teardown
        (c.performance host s).setting
      rw [hafter.chronicle, hrest]
      simp only [List.append_assoc, List.singleton_append]
      refine hs.append (.append (.of_kill?_eq_none hfront) (.cons ?_ (.append
        (.of_kill?_eq_none hnone) (.of_kill?_eq_none ?_))))
      · intro a' prey' hkill'
        rw [hkill] at hkill'
        cases hkill'
        exact ⟨hhits, rest, _, [], _, rfl, victory?_teardown htask' hwon, hleft, rfl⟩
      · exact List.forall_mem_singleton.mpr (Deed.kill?_eq_none (.inr (by decide)))

/-- No other command destroys a ship with a hit. -/
theorem clearsUp_tick_of_not_attack (htask : ∀ a, c.task ≠ .attack a) (hs : ClearsUp s.chronicle) :
    ClearsUp (c.tick host s).2.2.chronicle := by
  refine clearsUp_of_spares hs (tick_keeps (P := fun (c' : Command κ) (s' : Setting κ ε) =>
    (∀ a, c'.task ≠ .attack a) ∧ s'.Spares s.chronicle) host (fun stage c' s' hcs => ?_)
    (fun _ _ _ h => h) ⟨htask, spares_start c s⟩).2
  refine ⟨?_, spares_run host stage (.inl hcs.1) hcs.2⟩
  obtain ⟨progress, task⟩ := c'
  cases task with
  | attack a => exact absurd rfl (hcs.1 a)
  | mining | custom => exact fun a h => by cases h

theorem clearsUp_tick (c : Command κ) (hs : ClearsUp s.chronicle) :
    ClearsUp (c.tick host s).2.2.chronicle := by
  cases htask : c.task with
  | attack a => exact clearsUp_tick_attack host htask hs
  | mining m => exact clearsUp_tick_of_not_attack host (fun a h => by rw [htask] at h; cases h) hs
  | custom => exact clearsUp_tick_of_not_attack host (fun a h => by rw [htask] at h; cases h) hs

theorem clearsUp_halt (c : Command κ) (hs : ClearsUp s.chronicle) :
    ClearsUp (c.halt host s).chronicle := by
  have hspared : s.Spares s.chronicle :=
    ⟨[], (List.append_nil _).symm, List.forall_mem_nil _⟩
  exact clearsUp_of_spares hs (spares_run host .stop (.inr (by decide)) hspared)

end Command

/-- Every ship that is destroyed in a round is cleared up in it. -/
theorem Session.clearsUp_tick (host : CommandHost κ ε) {x : Session κ ε}
    (hx : ClearsUp x.setting.chronicle) : ClearsUp (x.tick host).2.setting.chronicle :=
  (tick_keeps (Q := fun _ => True) (P := fun s : Setting κ ε => ClearsUp s.chronicle) host
    (fun c _ _ hs => ⟨trivial, Command.clearsUp_tick host c hs⟩)
    (fun c _ _ hs => Command.clearsUp_halt host c hs) (fun _ _ hs => hs) (fun _ _ => trivial) hx).2

/-! ### Loot in a round -/

namespace Threads

variable {α : Type} {view : Entities → α} {before after : α}

/-- Deeds in the middle of others begin and end somewhere. -/
theorem exists_middle {ds ds' : List (Deed κ)} (h : Threads view before (ds ++ ds') after) :
    ∃ middle, Threads view before ds middle ∧ Threads view middle ds' after := by
  induction ds generalizing before with
  | nil => exact ⟨before, rfl, h⟩
  | cons d ds ih =>
    obtain ⟨middle, hds, hds'⟩ := ih h.2
    exact ⟨middle, ⟨h.1, hds⟩, hds'⟩

theorem keepsLoot {es es' : Entities} {ds : List (Deed κ)} (h : Threads id es ds es')
    (hds : ∀ d ∈ ds, d.found.entities.KeepsLoot d.left.entities) : es.KeepsLoot es' := by
  induction ds generalizing es with
  | nil =>
    cases h
    exact .refl _
  | cons d ds ih =>
    obtain ⟨rfl, hrest⟩ := h
    obtain ⟨hd, hds⟩ := List.forall_mem_cons.mp hds
    exact hd.trans (ih hrest hds)

end Threads

/-- Loot stays where it is, whatever is done. -/
def Setting.SparesLoot (s : Setting κ ε) : Prop :=
  ∀ d ∈ s.chronicle, d.found.entities.KeepsLoot d.left.entities

namespace Command

variable (host : CommandHost κ ε) {c : Command κ} {s : Setting κ ε}

theorem sparesLoot_run (hc : c.BuiltIn) (stage : Stage) (hs : s.SparesLoot) :
    (c.run host stage s).2.2.SparesLoot := by
  obtain ⟨acts, hacts⟩ := hc.exists_acts
  obtain ⟨-, -, -, hafter⟩ := run_of_acts host hacts stage s
  unfold Setting.SparesLoot
  rw [hafter.chronicle, List.forall_mem_append, List.forall_mem_singleton]
  refine ⟨hs, ?_⟩
  cases htask : c.task with
  | attack a =>
    rw [acts?_of_attack htask] at hacts
    cases hacts
    exact a.keepsLoot_hook s.scene stage
  | mining m =>
    rw [acts?_of_mining htask] at hacts
    cases hacts
    exact m.keepsLoot_hook s.scene stage
  | custom =>
    rw [htask] at hacts
    cases hacts

theorem sparesLoot_tick (hc : c.BuiltIn) (hs : s.SparesLoot) :
    (c.tick host s).2.2.SparesLoot := by
  refine (tick_keeps (P := fun (c : Command κ) (s : Setting κ ε) => c.BuiltIn ∧ s.SparesLoot) host
    (fun stage c s hcs => ?_) (fun _ _ _ hcs => hcs) ⟨hc, ?_⟩).2
  · rw [hcs.1.run_eq_self]
    exact ⟨hcs.1, sparesLoot_run host hcs.1 stage hcs.2⟩
  · exact List.forall_mem_append.mpr ⟨hs, List.forall_mem_singleton.mpr (.refl _)⟩

end Command

theorem Session.sparesLoot_tick (host : CommandHost κ ε) {x : Session κ ε}
    (hx : x.schedule.BuiltIn) (hs : x.setting.SparesLoot) :
    (x.tick host).2.setting.SparesLoot :=
  (tick_keeps host (P := Setting.SparesLoot)
    (fun _ s hc hs => ⟨hc.tick host s, Command.sparesLoot_tick host hc hs⟩)
    (fun _ _ hc hs => Command.sparesLoot_run host hc .stop hs) (fun _ _ hs => hs) hx hs).2

namespace Operation

variable (host : CommandHost κ ε) (w : World κ ε) (now : Float)

theorem clearsUp_tick : ClearsUp ((tick now).commit host w).1 := by
  simp only [commit]
  split
  · exact Session.clearsUp_tick host (x := w.session now)
      (.of_kill?_eq_none (List.forall_mem_nil _))
  · exact .of_kill?_eq_none (List.forall_mem_nil _)

theorem threads_tick : Threads id w.registry.entities ((tick now).commit host w).1
    ((tick now).commit host w).2.registry.entities := by
  simp only [commit]
  split
  · have hstart : (w.session now).setting.Threaded w.registry.entities := rfl
    exact Session.threads_tick host hstart
  · rfl

theorem keepsLoot_tick (hw : w.registry.schedule.BuiltIn) :
    ∀ d ∈ ((tick now).commit host w).1, d.found.entities.KeepsLoot d.left.entities := by
  simp only [commit]
  split
  · exact Session.sparesLoot_tick host (x := w.session now) hw (List.forall_mem_nil _)
  · exact List.forall_mem_nil _

end Operation

/-! ### Small worlds -/

namespace Skirmish

/-- The prey with so much ore. -/
def carrier (quantity : UInt32) : Ship :=
  { prey with hold := { capacity := 100, amounts := ore quantity } }

/-- The prey carries ore, and there is no loot. -/
def laden (quantity : UInt32) : World Unit Unit where
  tracker := tracker
  registry :=
    { entities :=
        { table :=
            { entries := [(hunter.id, .ship hunter), (prey.id, .ship (carrier quantity))]
              nodup := by simp [hunter, prey] } }
      schedule := onslaught }
  outside := ()

/-- The prey carries ore, and loot of its name lies in another system. -/
def strewn : World Unit Unit where
  tracker := tracker
  registry :=
    { entities :=
        { table :=
            { entries :=
                [(hunter.id, .ship hunter), (prey.id, .ship (carrier 3)),
                  (attack.lootId, .loot ⟨attack.lootId, "vega", ⟨1⟩, { capacity := 0 }⟩)]
              nodup := by decide } }
      schedule := onslaught }
  outside := ()

end Skirmish

/-! ### The main result -/

/-- A hit changes neither the cargo of a ship nor its place. -/
theorem Attack.cargo_struck (a : Attack) (x d : Ship) : (a.struck x d).hold = d.hold ∧
    (a.struck x d).system = d.system ∧ (a.struck x d).position = d.position := by
  unfold struck Ship.absorb
  split <;> split <;> exact ⟨rfl, rfl, rfl⟩

/-- Clearing up after a hit that destroys a ship leaves the cargo of that ship behind. -/
theorem Deed.Hits.looted {d : Deed κ} {a : Attack} {prey : Ship} (h : d.Hits a prey)
    (husable : a.lootIdUsable d.found.entities = true) {found : Scene}
    (hfound : found.entities = d.left.entities) (hwon : a.isWon found = true) :
    a.Looted prey d.found.entities (a.teardown.run.run found).2.entities := by
  obtain ⟨hprey, x, hleft⟩ := h
  rw [hleft] at hfound
  have hwreck : found.entities.ship a.defender = .ok (a.struck x prey) := by
    rw [hfound, Entities.ship_adjustShip _ _ _ hprey, if_pos rfl]
  have husable' : a.lootIdUsable found.entities = true := by
    rw [hfound, Attack.lootIdUsable_adjustShip]
    exact husable
  have hlooted := a.looted_teardown found hwon hwreck husable'
  obtain ⟨hhold, hsystem, hposition⟩ := a.cargo_struck x prey
  rw [hfound] at hlooted
  exact (hlooted.congr hhold hsystem hposition).of_adjustShip

theorem Deed.isWon_of_victory? {d : Deed κ} {a : Attack} {found : Scene}
    (h : d.victory? = some (a, found)) : a.isWon found = true := by
  unfold victory? at h
  split at h
  · split at h
    · next hwon =>
      cases h
      exact hwon
    · cases h
  · cases h

/-- Whatever a tick does, every ship that an attack destroys in it is cleared up in the state in
which the hit left it.  If the name of its loot is free or that of loot, its cargo is recovered
there if and only if it can be.  And where only attacks and mining runs are scheduled, loot stays
where it is until the tick is over, and nothing is taken away from it. -/
theorem World.cargo_recovered_iff (host : CommandHost κ ε) (w : World κ ε) (now : Float) :
    let tick := (Operation.tick now).commit host w
    ∀ front d rest a prey, tick.1 = front ++ d :: rest → d.kill? = some (a, prey) →
      a.lootIdUsable d.found.entities = true →
      ∃ mid last later found, rest = mid ++ last :: later ∧ last.victory? = some (a, found) ∧
        found.entities = d.left.entities ∧
        (a.Recovers d.found.entities last.left.entities prey ↔
          a.CanRecover d.found.entities prey) ∧
        (w.registry.schedule.BuiltIn →
          last.left.entities.KeepsLoot tick.2.registry.entities) := by
  intro tick front d rest a prey htick hkill husable
  obtain ⟨hhits, mid, last, later, found, rfl, hvictory, hfound, hleft⟩ :=
    Operation.clearsUp_tick host w now front d rest htick a prey hkill
  have hlooted := hhits.looted husable hfound (Deed.isWon_of_victory? hvictory)
  rw [← hleft] at hlooted
  refine ⟨mid, last, later, found, rfl, hvictory, hfound, hlooted.recovers_iff, fun hw => ?_⟩
  have hthreads := Operation.threads_tick host w now
  have hkeeps := Operation.keepsLoot_tick host w now hw
  rw [show ((Operation.tick now).commit host w).1 = (front ++ d :: mid) ++ last :: later by
    rw [List.append_assoc]
    exact htick] at hthreads hkeeps
  obtain ⟨middle, -, -, hlater⟩ := hthreads.exists_middle
  exact hlater.keepsLoot fun d' hd' =>
    hkeeps d' (List.mem_append_right _ (List.mem_cons_of_mem _ hd'))

open Skirmish in
/-- In particular so if the prey carries three units, all of which are found where it was. -/
theorem World.cargo_recovered_iff_laden :
    let tick := (Operation.tick 0).commit Host.still.toCommandHost (laden 3)
    ∃ front d mid last later prey, tick.1 = front ++ d :: (mid ++ last :: later) ∧
      d.kill? = some (attack, prey) ∧ prey.hold = (carrier 3).hold ∧
      attack.Recovers d.found.entities last.left.entities prey ∧
      last.left.entities.KeepsLoot tick.2.registry.entities := by
  intro tick
  have hbuiltIn : (laden 3).registry.schedule.BuiltIn := builtIn_wreckage
  -- the round has one turn, which can be evaluated
  have hkills : (tick.1.any fun d => d.kill?.any fun (a, prey) => a == attack &&
      a.lootIdUsable d.found.entities && decide (prey.hold = (carrier 3).hold) &&
      decide (d.found.entities.loot? a.lootId = none)) = true := by
    simp only [tick]
    rw [Operation.commit_tick_singleton (c := .attack attack) Host.still.toCommandHost rfl rfl
      (by decide +kernel)]
    decide +kernel
  obtain ⟨d, hd, hkill⟩ := List.any_eq_true.mp hkills
  obtain ⟨⟨a, prey⟩, hkill, htest⟩ := (Option.any_eq_true ..).mp hkill
  simp only [Bool.and_eq_true, beq_iff_eq, decide_eq_true_eq] at htest
  obtain ⟨⟨⟨rfl, husable⟩, hhold⟩, hnone⟩ := htest
  obtain ⟨front, rest, htick⟩ := List.append_of_mem hd
  obtain ⟨mid, last, later, found, rfl, -, -, hrecovers, hkeeps⟩ :=
    cargo_recovered_iff Host.still.toCommandHost (laden 3) 0 front d rest attack prey htick hkill
      husable
  refine ⟨front, d, mid, last, later, prey, htick, hkill, hhold, hrecovers.mpr ?_,
    hkeeps hbuiltIn⟩
  unfold Attack.CanRecover
  rw [hnone, hhold]
  exact ⟨by decide, fun hzero => absurd hzero (by decide)⟩

open Skirmish in
/-- A prey with a stack of no units leaves loot without cargo, and cargo joins loot that lies in
another system. -/
theorem World.cargo_unrecovered :
    let host := Host.still.toCommandHost
    ((carrier 0).hold.sum = 0 ∧ (laden 0).registry.entities.contains attack.lootId = false ∧
      ((Operation.tick 0).commit host (laden 0)).2.registry.entities.loot? attack.lootId =
        some ⟨attack.lootId, "sol", place, { capacity := 100, amounts := ore 0 }⟩) ∧
    ((carrier 3).hold.sum = 3 ∧
      ((Operation.tick 0).commit host strewn).2.registry.entities.loot? attack.lootId =
        some ⟨attack.lootId, "vega", ⟨1⟩, { capacity := 3, amounts := ore 3 }⟩) := by
  intro host
  refine ⟨⟨by decide, by decide +kernel, ?_⟩, by decide, ?_⟩
  · rw [Operation.commit_tick_singleton (c := .attack attack) host rfl rfl (by decide +kernel)]
    decide +kernel
  · rw [Operation.commit_tick_singleton (c := .attack attack) host rfl rfl (by decide +kernel)]
    decide +kernel

end Orrery
