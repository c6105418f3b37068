import Orrery.Command.Lifecycle

/-!
# Running actions

Hooks and ticks are written as actions on a state `σ` that may fail, and a failure keeps the state
as it was left (`ExceptT ε (StateM σ)`).  The lemmas `run_…` say what such an action comes to when
it is run.  An action `Keeps` a property if the property survives it whether or not it succeeds;
this is closed under sequencing, so it has to be checked of the steps of an action only.
-/

namespace Orrery

section Action

variable {ε σ α β : Type}

/-! ### Running -/

theorem run_bind (x : ExceptT ε (StateM σ) α) (f : α → ExceptT ε (StateM σ) β) (s : σ) :
    (x >>= f).run.run s =
      match x.run.run s with
      | (.ok a, s') => (f a).run.run s'
      | (.error e, s') => (.error e, s') := by
  show (ExceptT.bind x f).run.run s = _
  unfold ExceptT.bind ExceptT.bindCont
  simp only [ExceptT.run, ExceptT.mk, StateT.run, bind, StateT.bind]
  rcases x s with ⟨_ | _, s'⟩ <;> rfl

@[simp] theorem run_pure (a : α) (s : σ) :
    (pure a : ExceptT ε (StateM σ) α).run.run s = (.ok a, s) := rfl

@[simp] theorem run_get (s : σ) :
    (get : ExceptT ε (StateM σ) σ).run.run s = (.ok s, s) := rfl

@[simp] theorem run_modify (f : σ → σ) (s : σ) :
    (modify f : ExceptT ε (StateM σ) PUnit).run.run s = (.ok ⟨⟩, f s) := rfl

/-! ### What actions keep -/

/-- An action keeps a property of the state, whether it succeeds or not. -/
def Keeps (P : σ → Prop) (x : ExceptT ε (StateM σ) α) : Prop := ∀ s, P s → P (x.run.run s).2

theorem Keeps.bind {P : σ → Prop} {x : ExceptT ε (StateM σ) α}
    {f : α → ExceptT ε (StateM σ) β} (hx : Keeps P x) (hf : ∀ a, Keeps P (f a)) :
    Keeps P (x >>= f) := by
  intro s hs
  have h := hx s hs
  rw [run_bind]
  rcases hrun : x.run.run s with ⟨_ | a, s'⟩ <;> rw [hrun] at h
  · exact h
  · exact hf a s' h

theorem Keeps.pure {P : σ → Prop} (a : α) : Keeps P (Pure.pure a : ExceptT ε (StateM σ) α) :=
  fun _ hs => hs

theorem Keeps.get {P : σ → Prop} : Keeps P (MonadState.get : ExceptT ε (StateM σ) σ) :=
  fun _ hs => hs

theorem Keeps.modify {P : σ → Prop} {f : σ → σ} (h : ∀ s, P s → P (f s)) :
    Keeps P (modify f : ExceptT ε (StateM σ) PUnit) := h

end Action

/-! ### Scenes -/

section Scenes

variable {α : Type}

theorem run_read (f : Entities → Except RegistryError α) (s : Scene) :
    (Act.read f).run.run s =
      match f s.entities with
      | .ok a => (.ok a, s)
      | .error e => (.error (.registry e), s) := by
  unfold Act.read
  rw [run_bind, run_get]
  cases h : f s.entities <;> simp only [h] <;> rfl

@[simp] theorem run_change (f : Entities → Entities) (s : Scene) :
    (Act.change f).run.run s = (.ok (), { s with entities := f s.entities }) := rfl

@[simp] theorem run_attempt (a : Act Unit) (s : Scene) :
    (Act.attempt a).run.run s = (.ok (a.run.run s).1, (a.run.run s).2) := rfl

@[simp] theorem run_settle (r : Except CommandError Unit) (s : Scene) :
    (Act.settle r).run.run s = (r, s) := rfl

end Scenes

/-! ### Ticks -/

namespace Performance

variable {κ ε : Type} {host : CommandHost κ ε}

@[simp] theorem run_perform (stage : Stage) (p : Performance κ ε) :
    (perform host stage).run.run p =
      ((p.command.run host stage p.setting).1,
        { p with
          command := (p.command.run host stage p.setting).2.1
          setting := (p.command.run host stage p.setting).2.2 }) := rfl

/-- A command is set up once. -/
theorem run_setUp (p : Performance κ ε) : (setUp host).run.run p =
    if p.command.progress.isSetUp then (.ok (), p)
    else
      ((p.command.run host .setup p.setting).1,
        match p.command.run host .setup p.setting with
        | (.ok (), command, setting) =>
          ({ p with command := command, setting := setting } : Performance κ ε).noteSetUp
        | (.error _, command, setting) => { p with command := command, setting := setting }) := by
  unfold setUp
  rw [run_bind, run_get]
  simp only []
  cases p.command.progress.isSetUp with
  | true => rfl
  | false =>
    simp only [Bool.not_false, ↓reduceIte, Bool.false_eq_true]
    rw [run_bind, run_perform]
    rcases p.command.run host .setup p.setting with ⟨_ | _, command, setting⟩ <;> rfl

variable {P : Performance κ ε → Prop}

theorem keeps_setUp (hperform : Keeps P (perform host .setup))
    (hnote : ∀ p, P p → P p.noteSetUp) : Keeps P (setUp host) := by
  refine Keeps.bind Keeps.get fun p => ?_
  split
  · exact hperform.bind fun _ => Keeps.modify hnote
  · exact Keeps.pure _

/-- A command is executed only if it may be executed now. -/
theorem keeps_execute_of_mayExecute
    (hperform : ∀ p, p.command.mayExecute host p.setting = true → P p →
      P ((perform host .execute).run.run p.noteRun).2)
    (hnote : ∀ p, P p → P p.noteExecuted) : Keeps P (execute host) := by
  intro p hp
  unfold execute
  rw [run_bind, run_get]
  simp only []
  split
  · next hmay =>
    have hdone := hperform p hmay hp
    rw [run_bind, run_modify]
    simp only []
    rw [run_bind]
    rcases hrun : (perform host .execute).run.run p.noteRun with ⟨_ | _, q⟩ <;> rw [hrun] at hdone
    · exact hdone
    · exact hnote q hdone
  · exact hp

theorem keeps_execute (hperform : Keeps P (perform host .execute))
    (hrun : ∀ p, P p → P p.noteRun) (hnote : ∀ p, P p → P p.noteExecuted) :
    Keeps P (execute host) :=
  keeps_execute_of_mayExecute (fun p _ hp => hperform p.noteRun (hrun p hp)) hnote

end Performance

namespace Command

variable {κ ε : Type} (host : CommandHost κ ε)

/-- The beginning of a tick. -/
def start (c : Command κ) (s : Setting κ ε) : Performance κ ε where
  command := c
  setting := s.note (.turn c s.scene)

/-- What a tick has come to before the command is asked whether it is over. -/
def performance (c : Command κ) (s : Setting κ ε) : Performance κ ε :=
  ((Performance.stages host).run.run (c.start s)).2

/-- What is true if the command could not be set up, and follows otherwise from something that the
other stages keep, is true when the stages are over. -/
theorem performance_of_setUp {P Q : Performance κ ε → Prop} {c : Command κ} {s : Setting κ ε}
    (hfail : ∀ e p, (Performance.setUp host).run.run (c.start s) = (.error e, p) → P p)
    (hdone : ∀ p, (Performance.setUp host).run.run (c.start s) = (.ok (), p) → Q p)
    (hbefore : Keeps Q (Performance.perform host .before))
    (hexecute : Keeps Q (Performance.execute host))
    (hafter : Keeps Q (Performance.perform host .after)) (hQ : ∀ p, Q p → P p) :
    P (c.performance host s) := by
  -- if setting up fails, nothing follows
  have hrest := hbefore.bind fun _ => hexecute.bind fun _ => hafter
  unfold performance Performance.stages
  rw [run_bind]
  rcases hrun : (Performance.setUp host).run.run (c.start s) with ⟨e | _, p⟩
  · exact hfail e p hrun
  · exact hQ _ (hrest p (hdone p hrun))

/-- What is true once the command has been set up, or that has failed, and what the other stages
keep, is true when the stages are over. -/
theorem performance_of_stages {P : Performance κ ε → Prop} {c : Command κ} {s : Setting κ ε}
    (hsetup : P ((Performance.setUp host).run.run (c.start s)).2)
    (hbefore : Keeps P (Performance.perform host .before))
    (hexecute : Keeps P (Performance.execute host))
    (hafter : Keeps P (Performance.perform host .after)) : P (c.performance host s) :=
  performance_of_setUp host (fun _ p hrun => by rwa [hrun] at hsetup)
    (fun p hrun => by rwa [hrun] at hsetup) hbefore hexecute hafter fun _ hp => hp

/-- A tick of a command that is over ends with `teardown`. -/
theorem tick_of_isOver {c : Command κ} {s : Setting κ ε}
    (h : (c.performance host s).command.isOver host (c.performance host s).setting = true) :
    (c.tick host s).1.removed = true ∧
      (c.tick host s).2 =
        ((c.performance host s).command.run host .teardown (c.performance host s).setting).2 := by
  rcases hrun : (Performance.stages host).run.run (c.start s) with ⟨outcome, p⟩
  have hp : c.performance host s = p := congrArg Prod.snd hrun
  rw [hp] at h ⊢
  unfold start at hrun
  simp [tick, hrun, h]

/-- A tick of a command that goes on ends with its stages. -/
theorem tick_of_not_isOver {c : Command κ} {s : Setting κ ε}
    (h : (c.performance host s).command.isOver host (c.performance host s).setting = false) :
    (c.tick host s).1.removed = false ∧
      (c.tick host s).2 = ((c.performance host s).command, (c.performance host s).setting) := by
  rcases hrun : (Performance.stages host).run.run (c.start s) with ⟨outcome, p⟩
  have hp : c.performance host s = p := congrArg Prod.snd hrun
  rw [hp] at h ⊢
  unfold start at hrun
  simp [tick, hrun, h]

/-- What every hook of a command keeps, a tick of it keeps; `execute` has to keep it only when the
command may be executed. -/
theorem tick_keeps_of_mayExecute {P : Command κ → Setting κ ε → Prop}
    (hrun : ∀ stage c s, stage ≠ .execute → P c s →
      P (c.run host stage s).2.1 (c.run host stage s).2.2)
    (hexecute : ∀ (c : Command κ) s progress, c.mayExecute host s = true → P c s →
      P (({ c with progress := progress } : Command κ).run host .execute s).2.1
        (({ c with progress := progress } : Command κ).run host .execute s).2.2)
    (hprogress : ∀ c s progress, P c s → P { c with progress := progress } s) {c : Command κ}
    {s : Setting κ ε} (hstart : P c (s.note (.turn c s.scene))) :
    P (c.tick host s).2.1 (c.tick host s).2.2 := by
  have hperform : ∀ stage, stage ≠ .execute →
      Keeps (fun p : Performance κ ε => P p.command p.setting) (Performance.perform host stage) :=
    fun stage hstage p hp => hrun stage p.command p.setting hstage hp
  have hstages : P (c.performance host s).command (c.performance host s).setting :=
    performance_of_stages (P := fun p => P p.command p.setting) host
      (Performance.keeps_setUp (hperform .setup (by decide)) (fun _ hp => hprogress _ _ _ hp) _
        hstart)
      (hperform .before (by decide))
      (Performance.keeps_execute_of_mayExecute (fun p hmay hp => hexecute _ _ _ hmay hp)
        fun _ hp => hp)
      (hperform .after (by decide))
  cases hover : (c.performance host s).command.isOver host (c.performance host s).setting with
  | false =>
    rw [(tick_of_not_isOver host hover).2]
    exact hstages
  | true =>
    rw [(tick_of_isOver host hover).2]
    exact hrun .teardown _ _ (by decide) hstages

/-- What every hook of a command keeps, a tick of it keeps. -/
theorem tick_keeps {P : Command κ → Setting κ ε → Prop}
    (hrun : ∀ stage c s, P c s → P (c.run host stage s).2.1 (c.run host stage s).2.2)
    (hprogress : ∀ c s progress, P c s → P { c with progress := progress } s) {c : Command κ}
    {s : Setting κ ε} (hstart : P c (s.note (.turn c s.scene))) :
    P (c.tick host s).2.1 (c.tick host s).2.2 :=
  tick_keeps_of_mayExecute host (fun stage c s _ hp => hrun stage c s hp)
    (fun _ _ progress _ hp => hrun .execute _ _ (hprogress _ _ progress hp)) hprogress hstart

end Command

end Orrery
