import Orrery.Proofs.Attack
import Orrery.Proofs.Chronicle
import Orrery.Proofs.Mining

/-!
# Turns of attacks and mining runs

What one tick of an attack or of a mining run does to the outlines of the entities, and which of its
deeds matter to anybody else.  All hooks before `teardown` are quiet: they give no credits, ask for
no stops and announce no destruction.  Only the `teardown` of an attack that is won is not
(`Command.tick_attack`, `Command.tick_mining`).
-/

namespace Orrery

variable {κ ε : Type}

/-- Events that tell a ship of its destruction. -/
def EntityEvent.isDestruction (e : EntityEvent) : Bool := e.kind == .destroyedBy

/-- A scene in which nothing was asked for that concerns anybody else. -/
def Scene.IsQuiet (s : Scene) : Prop :=
  s.credits = [] ∧ s.stopRequests = [] ∧ ∀ e ∈ s.raised, e.isDestruction = false

/-- A hook that gives no credits, asks for no stops and announces no destruction, and that is not
run because the command is stopped. -/
def Deed.IsQuiet : Deed κ → Prop
  | turn .. => False
  | hook _ stage _ _ left => stage ≠ .stop ∧ left.IsQuiet

theorem Setting.isQuiet_scene (s : Setting κ ε) : s.scene.IsQuiet :=
  ⟨rfl, rfl, by simp [Setting.scene]⟩

/-- The hooks of a task, unless the host supplies them. -/
def Task.acts? : Task κ → Option (Stage → Act Unit)
  | attack a => some a.hook
  | mining m => some m.hook
  | custom .. => none

namespace Command

theorem acts?_of_attack {c : Command κ} {a : Attack} (h : c.task = .attack a) :
    c.task.acts? = some a.hook := by
  rw [h]
  rfl

theorem acts?_of_mining {c : Command κ} {m : Mining} (h : c.task = .mining m) :
    c.task.acts? = some m.hook := by
  rw [h]
  rfl

variable (host : CommandHost κ ε)

/-- What a hook does that the host does not supply. -/
theorem run_of_acts {c : Command κ} {acts : Stage → Act Unit} (h : c.task.acts? = some acts)
    (stage : Stage) (s : Setting κ ε) :
    (c.run host stage s).2.1 = c ∧
    (c.run host stage s).2.2.entities = ((acts stage).run.run s.scene).2.entities ∧
    (c.run host stage s).1 = ((acts stage).run.run s.scene).1 ∧
    s.After [.hook c stage ((acts stage).run.run s.scene).1 s.scene
      ((acts stage).run.run s.scene).2] (c.run host stage s).2.2 := by
  obtain ⟨progress, task⟩ := c
  cases task with
  | attack a =>
    cases h
    exact ⟨rfl, rfl, rfl, after_run host stage ⟨progress, .attack a⟩ s⟩
  | mining m =>
    cases h
    exact ⟨rfl, rfl, rfl, after_run host stage ⟨progress, .mining m⟩ s⟩
  | custom => cases h

/-! ### In the midst of a tick -/

/-- What a tick has reached when its command is asked whether it is over; `P` is known of the
outlines of the entities, depending on whether the command is set up. -/
structure SoFar (P : Bool → (EntityId → Option Outline) → Prop) (c : Command κ) (s : Setting κ ε)
    (p : Performance κ ε) : Prop where
  /-- The command still does the same. -/
  task : p.command.task = c.task
  /-- It is set up if it was before. -/
  isSetUp : c.progress.isSetUp = true → p.command.progress.isSetUp = true
  /-- All hooks so far are quiet. -/
  deeds : ∃ hooks, s.After (.turn c s.scene :: hooks) p.setting ∧ ∀ d ∈ hooks, d.IsQuiet
  /-- The outlines of the entities. -/
  outlines : P p.command.progress.isSetUp p.setting.entities.outline?

variable {P : Bool → (EntityId → Option Outline) → Prop} {c : Command κ} {s : Setting κ ε}
  {acts : Stage → Act Unit} {host}

theorem SoFar.perform (hacts : c.task.acts? = some acts) {p : Performance κ ε} (hp : SoFar P c s p)
    {stage : Stage} (hstage : stage ≠ .stop)
    (hquiet : ((acts stage).run.run p.setting.scene).2.IsQuiet)
    (hout : P p.command.progress.isSetUp
      ((acts stage).run.run p.setting.scene).2.entities.outline?) :
    SoFar P c s ((Performance.perform host stage).run.run p).2 := by
  obtain ⟨hcommand, hentities, -, hafter⟩ :=
    run_of_acts host (c := p.command) (hp.task ▸ hacts) stage p.setting
  obtain ⟨hooks, hhooks, hall⟩ := hp.deeds
  rw [Performance.run_perform]
  refine ⟨hcommand.symm ▸ hp.task, hcommand.symm ▸ hp.isSetUp, ⟨_, hhooks.trans hafter, ?_⟩, ?_⟩
  · intro d hd
    rcases List.mem_append.mp hd with hd | hd
    · exact hall d hd
    · rw [List.mem_singleton.mp hd]
      exact ⟨hstage, hquiet⟩
  · rw [hcommand, hentities]
    exact hout

/-- A hook that leaves the scene as it was keeps what has been reached. -/
theorem keeps_soFar_perform (hacts : c.task.acts? = some acts) {stage : Stage}
    (hstage : stage ≠ .stop) (hsame : ∀ scene, ((acts stage).run.run scene).2 = scene) :
    Keeps (SoFar P c s) (Performance.perform host stage) := fun p hp =>
  hp.perform hacts hstage (hsame _ ▸ p.setting.isQuiet_scene) (hsame _ ▸ hp.outlines)

theorem keeps_soFar_execute (h : Keeps (SoFar P c s) (Performance.perform host .execute)) :
    Keeps (SoFar P c s) (Performance.execute host) :=
  Performance.keeps_execute h (fun _ hp => ⟨hp.task, hp.isSetUp, hp.deeds, hp.outlines⟩)
    fun _ hp => ⟨hp.task, hp.isSetUp, hp.deeds, hp.outlines⟩

variable (host)

/-- What has been reached when the command has been set up, or that has failed. -/
theorem soFar_setUp (hacts : c.task.acts? = some acts)
    (hstart : P c.progress.isSetUp s.entities.outline?)
    (hsetup : ∀ scene, scene.entities = s.entities →
      (∃ es, (acts .setup).run.run scene = (.ok (), { scene with entities := es }) ∧
        (c.progress.isSetUp = false → P true es.outline?)) ∨
      ∃ e, (acts .setup).run.run scene = (.error e, scene)) :
    SoFar P c s ((Performance.setUp host).run.run (c.start s)).2 := by
  have hturn : s.After (.turn c s.scene :: []) (c.start s).setting := s.after_note_turn c s.scene
  have hquiet := (c.start s).setting.isQuiet_scene
  unfold Performance.setUp
  rw [run_bind, run_get]
  simp only []
  -- a command that is set up skips the hook
  cases hc : (c.start s).command.progress.isSetUp with
  | true => exact ⟨rfl, fun _ => hc, ⟨[], hturn, by simp⟩, hstart⟩
  | false =>
    obtain ⟨hcommand, hentities, houtcome, hafter⟩ :=
      run_of_acts host (c := (c.start s).command) hacts .setup (c.start s).setting
    simp only [Bool.not_false, ↓reduceIte]
    rw [run_bind, Performance.run_perform, hcommand, houtcome]
    obtain ⟨es, hrun, hes⟩ | ⟨e, hrun⟩ := hsetup (c.start s).setting.scene rfl
    · rw [hrun] at hentities hafter ⊢
      refine ⟨rfl, fun _ => rfl, ⟨_, hturn.trans hafter, ?_⟩, ?_⟩
      · intro d hd
        rw [List.mem_singleton.mp hd]
        exact ⟨by decide, hquiet⟩
      · show P true ((c.start s).command.run host .setup (c.start s).setting).2.2.entities.outline?
        rw [hentities]
        exact hes hc
    · rw [hrun] at hentities hafter ⊢
      refine ⟨rfl, fun hc' => hc', ⟨_, hturn.trans hafter, ?_⟩, ?_⟩
      · intro d hd
        rw [List.mem_singleton.mp hd]
        exact ⟨by decide, hquiet⟩
      · show P c.progress.isSetUp
          ((c.start s).command.run host .setup (c.start s).setting).2.2.entities.outline?
        rw [hentities]
        exact hstart

/-! ### Attacks -/

/-- What a tick of an attack may have done to the outlines of the ships: the attacker has turned to
the defender, and the defender has been destroyed. -/
def AttackChanges (a : Attack) (c : Command κ) (s : Setting κ ε) (killed isSetUp : Bool)
    (o : EntityId → Option Outline) : Prop :=
  o = reviseIf killed a.defender (·.destroy a.attacker)
    (reviseIf (!c.progress.isSetUp && isSetUp) a.attacker (·.attack a.defender)
      s.entities.outline?) ∧
  (killed = true → (s.entities.outline? a.defender).any Outline.isLive = true ∧
    (s.entities.outline? a.attacker).any Outline.isShip = true)

theorem AttackChanges.hit {a : Attack} {c : Command κ} {s : Setting κ ε} {isSetUp : Bool}
    {o o' : EntityId → Option Outline} (h : ∃ killed, AttackChanges a c s killed isSetUp o)
    (hit : Bool) (ho' : o' = reviseIf hit a.defender (·.destroy a.attacker) o)
    (hhit : hit = true → (o a.defender).any Outline.isLive = true ∧
      (o a.attacker).any Outline.isShip = true) :
    ∃ killed, AttackChanges a c s killed isSetUp o' := by
  obtain ⟨killed, hout, hkilled⟩ := h
  cases hit with
  | false => exact ⟨killed, by rw [ho', reviseIf_false, hout], hkilled⟩
  | true =>
    obtain ⟨hlive, hship⟩ := hhit rfl
    -- a ship that is alive has not been destroyed before
    cases killed with
    | true =>
      rw [hout, reviseIf_true_self, Option.any_map] at hlive
      simp [Outline.isLive_destroy] at hlive
    | false =>
      rw [reviseIf_false] at hout
      rw [hout, any_reviseIf (Outline.isLive_attack _)] at hlive
      rw [hout, any_reviseIf (Outline.isShip_attack _)] at hship
      exact ⟨true, by rw [ho', hout], fun _ => ⟨hlive, hship⟩⟩

variable {a : Attack}

/-- The hit of an attack destroys at most the defender, and only if that is alive. -/
theorem keeps_attackChanges (h : c.task = .attack a) :
    Keeps (SoFar (fun u o => ∃ killed, AttackChanges a c s killed u o) c s)
      (Performance.perform host .execute) := by
  intro p hp
  have hacts := acts?_of_attack h
  have hrun : ((a.hook .execute).run.run p.setting.scene).2 =
    (a.execute.run.run p.setting.scene).2 := rfl
  obtain ⟨x, d, hx, hd, hexecute⟩ | ⟨e, hexecute⟩ := a.execute_cases p.setting.scene
  · obtain ⟨hit, hout, hlive⟩ := a.outline?_adjustShip_struck (x := x) hd
    have hship : (p.setting.entities.outline? a.attacker).any Outline.isShip = true := by
      have hattacker : p.setting.entities.outline? a.attacker = some x.outline :=
        Entities.outline?_of_ship hx
      rw [hattacker]
      rfl
    refine hp.perform hacts (by decide) ?_ ?_
    · rw [hrun, hexecute]
      refine ⟨rfl, rfl, ?_⟩
      simp [Scene.announce, Setting.scene, Attack.eventTo, EntityEvent.isDestruction]
    · rw [hrun, hexecute]
      exact AttackChanges.hit hp.outlines hit hout fun hh => ⟨hlive hh, hship⟩
  · refine hp.perform hacts (by decide) ?_ ?_
    · rw [hrun, hexecute]
      exact p.setting.isQuiet_scene
    · rw [hrun, hexecute]
      exact hp.outlines

theorem soFar_attack (h : c.task = .attack a) (s : Setting κ ε) :
    SoFar (fun u o => ∃ killed, AttackChanges a c s killed u o) c s (c.performance host s) := by
  have hacts := acts?_of_attack h
  refine performance_of_stages host (soFar_setUp host hacts ?_ fun scene hscene => ?_)
    (keeps_soFar_perform hacts (by decide) fun scene => ?_)
    (keeps_soFar_execute (keeps_attackChanges host h))
    (keeps_soFar_perform hacts (by decide) fun _ => rfl)
  · refine ⟨false, ?_, by simp⟩
    rw [Bool.not_and_self, reviseIf_false, reviseIf_false]
  · rcases a.setup_cases scene with hrun | herror
    · refine .inl ⟨_, hrun, fun hc => ⟨false, ?_, by simp⟩⟩
      rw [reviseIf_false, hc, Attack.outline?_engaged, hscene]
      rfl
    · exact .inr herror
  · obtain ⟨r, hrun⟩ := a.before_cases scene
    exact congrArg Prod.snd hrun

/-- What a tick of an attack that goes on has done: it turned the attacker to the defender, if that
was still to be done, and nothing else that matters.  Both ships are alive. -/
structure AttackGoesOn (a : Attack) (c : Command κ) (s : Setting κ ε) (c' : Command κ)
    (s' : Setting κ ε) : Prop where
  /-- It is set up if it was before. -/
  isSetUp : c.progress.isSetUp = true → c'.progress.isSetUp = true
  /-- All hooks are quiet. -/
  deeds : ∃ hooks, s.After (.turn c s.scene :: hooks) s' ∧ ∀ d ∈ hooks, d.IsQuiet
  /-- The attacker has turned to the defender. -/
  outlines : s'.entities.outline? = reviseIf (!c.progress.isSetUp && c'.progress.isSetUp)
    a.attacker (·.attack a.defender) s.entities.outline?
  /-- The attacker is alive. -/
  attacker : (s.entities.outline? a.attacker).any Outline.isLive = true
  /-- The defender is alive. -/
  defender : (s.entities.outline? a.defender).any Outline.isLive = true

/-- What a tick of an attack that is over has done: it may have destroyed the defender, it is won if
the defender is a wreck that is the attacker's work, and the attacker attacks nobody any more. -/
structure AttackEnds (a : Attack) (c : Command κ) (s s' : Setting κ ε) (killed : Bool) : Prop where
  /-- Only a ship that is alive is destroyed. -/
  live : killed = true → (s.entities.outline? a.defender).any Outline.isLive = true
  /-- The attacker is there when it destroys a ship. -/
  present : killed = true → (s.entities.outline? a.attacker).any Outline.isShip = true
  /-- All hooks but the last one are quiet. -/
  deeds : ∃ hooks last outcome found left,
    s.After (.turn c s.scene :: hooks ++ [.hook last .teardown outcome found left]) s' ∧
    (∀ d ∈ hooks, d.IsQuiet) ∧ last.task = .attack a ∧
    a.EndsWith (killed || (s.entities.outline? a.defender).any (·.isWreckOf a.attacker))
      ((s.entities.outline? a.attacker).any Outline.isShip) left
  /-- The outlines of the ships. -/
  outlines : ∃ engaged, s'.entities.outline? = reviseIf true a.attacker (·.attack none)
    (reviseIf killed a.defender (·.destroy a.attacker)
      (reviseIf engaged a.attacker (·.attack a.defender) s.entities.outline?))

/-- A ship that is destroyed now, or is a wreck already, is the attacker's work. -/
theorem any_isWreckOf_destroyed {a : Attack} {killed engaged : Bool}
    {o : EntityId → Option Outline} (h : killed = true → (o a.defender).any Outline.isLive = true) :
    (reviseIf killed a.defender (·.destroy a.attacker)
      (reviseIf engaged a.attacker (·.attack a.defender) o) a.defender).any
        (·.isWreckOf a.attacker) = (killed || (o a.defender).any (·.isWreckOf a.attacker)) := by
  cases killed with
  | false =>
    rw [reviseIf_false, any_reviseIf (Outline.isWreckOf_attack _ _), Bool.false_or]
  | true =>
    have hship : (reviseIf engaged a.attacker (·.attack a.defender) o a.defender).any
        Outline.isShip = true := by
      rw [any_reviseIf (Outline.isShip_attack _)]
      obtain ⟨x, hx, hlive⟩ := (Option.any_eq_true ..).mp (h rfl)
      exact (Option.any_eq_true ..).mpr ⟨x, hx, Outline.isShip_of_isLive hlive⟩
    obtain ⟨x, hx, hship⟩ := (Option.any_eq_true ..).mp hship
    rw [reviseIf_true_self, hx, Bool.true_or]
    exact Outline.isWreckOf_destroy hship

/-- The two ways that a tick of an attack may take. -/
theorem tick_attack (h : c.task = .attack a) (s : Setting κ ε) :
    (c.tick host s).2.1.task = .attack a ∧
    (((c.tick host s).1.removed = false ∧
        AttackGoesOn a c s (c.tick host s).2.1 (c.tick host s).2.2) ∨
      ((c.tick host s).1.removed = true ∧
        ∃ killed, AttackEnds a c s (c.tick host s).2.2 killed)) := by
  obtain ⟨htask, hsetup, ⟨hooks, hafter, hquiet⟩, killed, hout, hkilled⟩ := soFar_attack host h s
  rw [h] at htask
  cases hover : (c.performance host s).command.isOver host (c.performance host s).setting with
  | false =>
    obtain ⟨hremoved, htick⟩ := tick_of_not_isOver host hover
    rw [htick, hremoved]
    have hpossible : a.isPossible (c.performance host s).setting.scene = true := by
      unfold isOver at hover
      rw [htask] at hover
      exact Attack.isPossible_of_isOver hover
    obtain ⟨hattacker, hdefender⟩ := Attack.isLive_of_isPossible hpossible
    have hentities : (c.performance host s).setting.scene.entities =
      (c.performance host s).setting.entities := rfl
    rw [hentities, hout] at hattacker hdefender
    -- the attack goes on, so the defender is alive and has not been destroyed in this turn
    cases killed with
    | true =>
      rw [reviseIf_true_self, Option.any_map] at hdefender
      simp [Outline.isLive_destroy] at hdefender
    | false =>
      rw [reviseIf_false] at hout
      rw [reviseIf_false, any_reviseIf (Outline.isLive_attack _)] at hattacker hdefender
      exact ⟨htask, .inl ⟨rfl, hsetup, ⟨hooks, hafter, hquiet⟩, hout, hattacker, hdefender⟩⟩
  | true =>
    obtain ⟨hremoved, htick⟩ := tick_of_isOver host hover
    obtain ⟨hcommand, hentities, -, hrun⟩ :=
      run_of_acts host (acts?_of_attack htask) .teardown (c.performance host s).setting
    -- `teardown` finds the outlines as the stages left them
    have hend := a.endsWith_teardown (c.performance host s).setting.scene rfl rfl rfl
    have hteardown := (a.teardown_spec (c.performance host s).setting.scene).1
    have hscene : (c.performance host s).setting.scene.entities.outline? =
      (c.performance host s).setting.entities.outline? := rfl
    have hwon : a.isWon (c.performance host s).setting.scene =
        (killed || (s.entities.outline? a.defender).any (·.isWreckOf a.attacker)) := by
      rw [Attack.isWon_eq, hscene, hout]
      exact any_isWreckOf_destroyed fun hk => (hkilled hk).1
    have hpresent : ((c.performance host s).setting.scene.entities.outline? a.attacker).any
        Outline.isShip = (s.entities.outline? a.attacker).any Outline.isShip := by
      rw [hscene, hout, any_reviseIf (Outline.isShip_destroy _),
        any_reviseIf (Outline.isShip_attack _)]
    rw [hwon, hpresent] at hend
    rw [htick, hremoved]
    rw [Attack.outline?_disengaged, hscene, hout] at hteardown
    exact ⟨hcommand.symm ▸ htask, .inr ⟨rfl, killed, fun hk => (hkilled hk).1,
      fun hk => (hkilled hk).2, ⟨hooks, _, _, _, _, hafter.trans hrun, hquiet, htask, hend⟩,
      _, (congrArg Entities.outline? hentities).trans hteardown⟩⟩

/-! ### Mining runs -/

/-- What a tick of a mining run may have done to the outlines: the miner turned to the deposit. -/
def MiningChanges (m : Mining) (c : Command κ) (s : Setting κ ε) (isSetUp : Bool)
    (o : EntityId → Option Outline) : Prop :=
  o = reviseIf (!c.progress.isSetUp && isSetUp) m.miner (·.mine m.deposit) s.entities.outline?

variable {m : Mining}

theorem keeps_miningChanges (h : c.task = .mining m) :
    Keeps (SoFar (MiningChanges m c s) c s) (Performance.perform host .execute) := by
  intro p hp
  have hacts := acts?_of_mining h
  have hrun : ((m.hook .execute).run.run p.setting.scene).2 =
    (m.execute.run.run p.setting.scene).2 := rfl
  obtain ⟨r, hexecute⟩ | ⟨x, d, hold, -, -, -, hexecute⟩ := m.execute_cases p.setting.scene
  · refine hp.perform hacts (by decide) ?_ ?_
    · rw [hrun, hexecute]
      exact p.setting.isQuiet_scene
    · rw [hrun, hexecute]
      exact hp.outlines
  · refine hp.perform hacts (by decide) ?_ ?_
    · rw [hrun, hexecute]
      refine ⟨rfl, rfl, ?_⟩
      simp [Scene.announce, Setting.scene, EntityEvent.isDestruction]
    · rw [hrun, hexecute]
      exact (m.outline?_mined ..).trans hp.outlines

theorem soFar_mining (h : c.task = .mining m) (s : Setting κ ε) :
    SoFar (MiningChanges m c s) c s (c.performance host s) := by
  have hacts := acts?_of_mining h
  refine performance_of_stages host (soFar_setUp host hacts ?_ fun scene hscene => ?_)
    (keeps_soFar_perform hacts (by decide) fun _ => rfl)
    (keeps_soFar_execute (keeps_miningChanges host h))
    (keeps_soFar_perform hacts (by decide) fun _ => rfl)
  · rw [MiningChanges, Bool.not_and_self, reviseIf_false]
  · rcases m.setup_cases scene with hrun | herror
    · refine .inl ⟨_, hrun, fun hc => ?_⟩
      rw [MiningChanges, hc, Mining.outline?_engaged, hscene]
      rfl
    · exact .inr herror

/-- What a tick of a mining run that goes on has done: it turned the miner to the deposit, if that
was still to be done, and nothing else that matters.  The miner is alive, the deposit is there. -/
structure MiningGoesOn (m : Mining) (c : Command κ) (s : Setting κ ε) (c' : Command κ)
    (s' : Setting κ ε) : Prop where
  /-- It is set up if it was before. -/
  isSetUp : c.progress.isSetUp = true → c'.progress.isSetUp = true
  /-- All hooks are quiet. -/
  deeds : ∃ hooks, s.After (.turn c s.scene :: hooks) s' ∧ ∀ d ∈ hooks, d.IsQuiet
  /-- The miner has turned to the deposit. -/
  outlines : s'.entities.outline? = reviseIf (!c.progress.isSetUp && c'.progress.isSetUp)
    m.miner (·.mine m.deposit) s.entities.outline?
  /-- The miner is alive. -/
  miner : (s.entities.outline? m.miner).any Outline.isLive = true
  /-- The deposit is there. -/
  deposit : s.entities.outline? m.deposit = some .deposit

/-- What a tick of a mining run that is over has done: the miner mines nothing any more. -/
structure MiningEnds (m : Mining) (c : Command κ) (s s' : Setting κ ε) : Prop where
  /-- All hooks are quiet, `teardown` included. -/
  deeds : ∃ hooks, s.After (.turn c s.scene :: hooks) s' ∧ ∀ d ∈ hooks, d.IsQuiet
  /-- The outlines of the entities. -/
  outlines : ∃ engaged, s'.entities.outline? = reviseIf true m.miner (·.mine none)
    (reviseIf engaged m.miner (·.mine m.deposit) s.entities.outline?)

theorem reviseIf_mine_eq_deposit {cond : Bool} {id j : EntityId} {target : Option EntityId}
    {o : EntityId → Option Outline} (h : reviseIf cond id (·.mine target) o j = some .deposit) :
    o j = some .deposit := by
  unfold reviseIf at h
  split at h
  · obtain ⟨x, hx, hmine⟩ := Option.map_eq_some_iff.mp h
    cases x with
    | ship => cases hmine
    | deposit => exact hx
  · exact h

/-- The two ways that a tick of a mining run may take. -/
theorem tick_mining (h : c.task = .mining m) (s : Setting κ ε) :
    (c.tick host s).2.1.task = .mining m ∧
    (((c.tick host s).1.removed = false ∧
        MiningGoesOn m c s (c.tick host s).2.1 (c.tick host s).2.2) ∨
      ((c.tick host s).1.removed = true ∧ MiningEnds m c s (c.tick host s).2.2)) := by
  obtain ⟨htask, hsetup, ⟨hooks, hafter, hquiet⟩, hout⟩ := soFar_mining host h s
  rw [h] at htask
  cases hover : (c.performance host s).command.isOver host (c.performance host s).setting with
  | false =>
    obtain ⟨hremoved, htick⟩ := tick_of_not_isOver host hover
    rw [htick, hremoved]
    have hobstacle : m.obstacle? (c.performance host s).setting.scene = none := by
      unfold isOver at hover
      rw [htask] at hover
      exact Option.isSome_eq_false_iff.mp hover |> Option.isNone_iff_eq_none.mp
    obtain ⟨hminer, hdeposit⟩ := Mining.outlines_of_obstacle?_eq_none hobstacle
    have hentities : (c.performance host s).setting.scene.entities =
      (c.performance host s).setting.entities := rfl
    rw [hentities, hout] at hminer hdeposit
    rw [any_reviseIf (Outline.isLive_mine _)] at hminer
    exact ⟨htask, .inl ⟨rfl, hsetup, ⟨hooks, hafter, hquiet⟩, hout, hminer,
      reviseIf_mine_eq_deposit hdeposit⟩⟩
  | true =>
    obtain ⟨hremoved, htick⟩ := tick_of_isOver host hover
    obtain ⟨hcommand, hentities, -, hrun⟩ :=
      run_of_acts host (acts?_of_mining htask) .teardown (c.performance host s).setting
    have hfinish := m.finish_run (c.performance host s).setting.scene
      (((m.obstacle? (c.performance host s).setting.scene).map MiningObstacle.text).getD "finished")
    have hteardown : ((m.hook .teardown).run.run (c.performance host s).setting.scene).2 = _ :=
      congrArg Prod.snd hfinish
    have hreleased := m.outline?_released (c.performance host s).setting.entities
    rw [hteardown] at hentities hrun
    rw [hout] at hreleased
    rw [htick, hremoved]
    refine ⟨hcommand.symm ▸ htask, .inr ⟨rfl, ⟨_, hafter.trans hrun, ?_⟩, _,
      (congrArg Entities.outline? hentities).trans hreleased⟩⟩
    intro d hd
    rcases List.mem_append.mp hd with hd | hd
    · exact hquiet d hd
    · rw [List.mem_singleton.mp hd]
      refine ⟨by decide, rfl, rfl, ?_⟩
      simp [Scene.announce, Setting.scene, EntityEvent.isDestruction]

/-! ### Stops -/

/-- An attack that is stopped gives no credits and asks for no stops.  If it still went on, the
attacker attacks nobody any more, and both sides are told. -/
theorem halt_attack (h : c.task = .attack a) (s : Setting κ ε) :
    (c.halt host s).entities.outline? =
      reviseIf (a.isEngaged s.entities) a.attacker (·.attack none) s.entities.outline? ∧
    ∃ outcome left, s.After [.hook c .stop outcome s.scene left] (c.halt host s) ∧
      left.credits = [] ∧ left.stopRequests = [] ∧
      left.raised = if a.isEngaged s.entities then a.farewell (a.isWon s.scene) else [] := by
  obtain ⟨-, hentities, -, hafter⟩ := run_of_acts host (acts?_of_attack h) .stop s
  have hstop := a.stop_run s.scene
  have hscene : s.scene.entities = s.entities := rfl
  have hleft : ((a.hook .stop).run.run s.scene).2 = _ := hstop
  rw [hscene] at hleft
  rw [hleft] at hentities hafter
  cases hengaged : a.isEngaged s.entities with
  | true =>
    rw [hengaged] at hentities hafter
    exact ⟨(congrArg Entities.outline? hentities).trans (a.outline?_disengaged _),
      _, _, hafter, rfl, rfl, rfl⟩
  | false =>
    rw [hengaged] at hentities hafter
    rw [reviseIf_false]
    exact ⟨congrArg Entities.outline? hentities, _, _, hafter, rfl, rfl, rfl⟩

/-- A mining run that is stopped is quiet about it.  If it still went on, the miner mines nothing
any more. -/
theorem halt_mining (h : c.task = .mining m) (s : Setting κ ε) :
    (c.halt host s).entities.outline? =
      reviseIf (m.isEngaged s.entities) m.miner (·.mine none) s.entities.outline? ∧
    ∃ outcome left,
      s.After [.hook c .stop outcome s.scene left] (c.halt host s) ∧ left.IsQuiet := by
  obtain ⟨-, hentities, -, hafter⟩ := run_of_acts host (acts?_of_mining h) .stop s
  have hscene : s.scene.entities = s.entities := rfl
  have hleft : ((m.hook .stop).run.run s.scene).2 = _ := m.stop_run s.scene
  rw [hscene] at hleft
  rw [hleft] at hentities hafter
  cases hengaged : m.isEngaged s.entities with
  | true =>
    rw [hengaged] at hentities hafter
    refine ⟨(congrArg Entities.outline? hentities).trans (m.outline?_released _),
      _, _, hafter, rfl, rfl, ?_⟩
    simp [Scene.announce, Setting.scene, EntityEvent.isDestruction]
  | false =>
    rw [hengaged] at hentities hafter
    rw [reviseIf_false]
    exact ⟨congrArg Entities.outline? hentities, _, _, hafter, s.isQuiet_scene⟩

end Command

end Orrery
