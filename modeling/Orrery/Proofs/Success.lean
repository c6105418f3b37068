import Orrery.Proofs.Commute

/-!
# Ticks in which every hook succeeds

When every hook of an attack or of a mining run succeeds, a tick is a straight line: the command is
set up if it was not before, and executed, and then it is over or stays (`Command.Succeeds.tick`).
What the hooks have come to is kept in `Setting.Reaches`, whose steps are put together by `trans`.

As long as nobody asks for stops, the turns of a round go through the schedule from place to place
(`Round.turn_stays`, `Round.turn_leaves`).  When the listeners have replied, the world is as the
round has left it, but for the listeners (`World.Follows`).  What grows from tick to tick is summed
up over a run (`World.grows_performAll`).
-/

namespace Orrery

variable {κ ε : Type}

/-! ### Hooks -/

/-- The entities that an execution of a command leaves, with the name of the command. -/
def Deed.execution? : Deed κ → Option (CommandId × Entities)
  | .hook c .execute _ _ left => some (c.id, left.entities)
  | _ => none

/-- What hooks come to that move nothing and ask for no stops: the entities that they leave, the
events that they raise, and the executions among them. -/
structure Setting.Reaches (s : Setting κ ε) (es : Entities) (events : List EntityEvent)
    (executions : List (CommandId × Entities)) (s' : Setting κ ε) : Prop where
  now : s'.now = s.now
  entities : s'.entities = es
  tracker : s'.tracker = s.tracker
  stopRequests : s'.stopRequests = s.stopRequests
  raised : s'.chronicle.flatMap Deed.raised = s.chronicle.flatMap Deed.raised ++ events
  executions : s'.chronicle.filterMap Deed.execution? =
    s.chronicle.filterMap Deed.execution? ++ executions

namespace Setting

variable {s s' s'' : Setting κ ε} {es es' : Entities} {events events' : List EntityEvent}
  {executions executions' : List (CommandId × Entities)}

theorem Reaches.trans (h : s.Reaches es events executions s')
    (h' : s'.Reaches es' events' executions' s'') :
    s.Reaches es' (events ++ events') (executions ++ executions') s'' where
  now := h'.now.trans h.now
  entities := h'.entities
  tracker := h'.tracker.trans h.tracker
  stopRequests := h'.stopRequests.trans h.stopRequests
  raised := by rw [h'.raised, h.raised, List.append_assoc]
  executions := by rw [h'.executions, h.executions, List.append_assoc]

theorem Reaches.scene (h : s.Reaches es events executions s') :
    s'.scene = { s.scene with entities := es } := by
  simp only [Setting.scene, h.now, h.entities, h.tracker]

/-- The beginning of a turn changes nothing. -/
theorem reaches_note_turn (s : Setting κ ε) (c : Command κ) (found : Scene) :
    s.Reaches s.entities [] [] (s.note (.turn c found)) where
  now := rfl
  entities := rfl
  tracker := rfl
  stopRequests := rfl
  raised := by simp [note, Deed.raised]
  executions := by simp [note, Deed.execution?]

end Setting

namespace Command

variable (host : CommandHost κ ε) {c : Command κ} {acts : Stage → Act Unit} {s : Setting κ ε}
  {left : Scene}

theorem reaches_run (hacts : c.task.acts? = some acts) {stage : Stage}
    (hrun : (acts stage).run.run s.scene = (.ok (), left)) (htracker : left.tracker = s.tracker)
    (hrequests : left.stopRequests = []) :
    ∃ s', c.run host stage s = (.ok (), c, s') ∧
      s.Reaches left.entities left.raised
        (if stage = .execute then [(c.id, left.entities)] else []) s' := by
  obtain ⟨hcommand, -, houtcome, hafter⟩ := run_of_acts host hacts stage s
  have hsetting : (c.run host stage s).2.2.entities = left.entities ∧
      (c.run host stage s).2.2.tracker = left.tracker := by
    obtain ⟨progress, task⟩ := c
    cases task with
    | attack a =>
      cases hacts
      exact ⟨congrArg (·.2.entities) hrun, congrArg (·.2.tracker) hrun⟩
    | mining m =>
      cases hacts
      exact ⟨congrArg (·.2.entities) hrun, congrArg (·.2.tracker) hrun⟩
    | custom => cases hacts
  rw [hrun] at houtcome hafter
  refine ⟨_, Prod.ext houtcome (Prod.ext hcommand rfl), hafter.now, hsetting.1,
    hsetting.2.trans htracker, ?_, ?_, ?_⟩
  · simp [hafter.stopRequests, Deed.requests, hrequests]
  · simp [hafter.chronicle, Deed.raised]
  · rw [hafter.chronicle, List.filterMap_append]
    cases stage <;> rfl

end Command

/-! ### Ticks -/

/-- Whether an attack or a mining run can be carried on in a scene. -/
def Task.isFeasible : Task κ → Scene → Bool
  | attack a, scene => a.isPossible scene
  | mining m, scene => (m.obstacle? scene).isNone
  | custom .., _ => false

namespace Command

/-- The command when it has been set up. -/
def readied (c : Command κ) : Command κ :=
  { c with progress := { c.progress with isSetUp := true } }

/-- The command when it has been set up and then executed. -/
def executedAt (c : Command κ) (now : Float) : Command κ :=
  { c with progress := { c.progress with lastRun := some now, isSetUp := true } }

/-- All hooks of a tick succeed, up to the question whether the command is over: when it is set up
the entities are `ready`, and `execute` leaves `left`. -/
structure Succeeds (c : Command κ) (acts : Stage → Act Unit) (scene : Scene) (ready : Entities)
    (left : Scene) : Prop where
  hooks : c.task.acts? = some acts
  /-- It is executed in every tick. -/
  unthrottled : c.progress.rate = none
  setup : if c.progress.isSetUp then ready = scene.entities
    else (acts .setup).run.run scene = (.ok (), { scene with entities := ready })
  before : (acts .before).run.run { scene with entities := ready } =
    (.ok (), { scene with entities := ready })
  feasible : c.task.isFeasible { scene with entities := ready } = true
  execute : (acts .execute).run.run { scene with entities := ready } = (.ok (), left)
  tracker : left.tracker = scene.tracker
  stopRequests : left.stopRequests = []

variable {host : CommandHost κ ε} {c : Command κ} {acts : Stage → Act Unit} {s : Setting κ ε}
  {ready : Entities} {left : Scene}

theorem mayExecute_of_acts (hacts : c.task.acts? = some acts) (hrate : c.progress.rate = none)
    (s : Setting κ ε) : c.mayExecute host s = c.task.isFeasible s.scene := by
  have hallows : c.progress.allows s.now = true := by
    unfold Progress.allows
    rw [hrate]
    cases c.progress.lastRun <;> rfl
  obtain ⟨progress, task⟩ := c
  cases task with
  | attack a => exact congrArg (· && a.isPossible s.scene) hallows
  | mining m => exact congrArg (· && (m.obstacle? s.scene).isNone) hallows
  | custom => cases hacts

/-- Neither attacks nor mining runs do anything after their execution. -/
theorem run_after_of_acts (hacts : c.task.acts? = some acts) (scene : Scene) :
    (acts .after).run.run scene = (.ok (), scene) := by
  obtain ⟨progress, task⟩ := c
  cases task with
  | attack a =>
    cases hacts
    rfl
  | mining m =>
    cases hacts
    rfl
  | custom => cases hacts

variable (host)

theorem Succeeds.setUp (h : c.Succeeds acts s.scene ready left) : ∃ s',
    (Performance.setUp host).run.run (c.start s) = (.ok (), ⟨c.readied, s', false⟩) ∧
    s.Reaches ready [] [] s' := by
  have hsetup := h.setup
  have hturn := s.reaches_note_turn c s.scene
  rw [Performance.run_setUp, show (c.start s).command = c from rfl]
  cases hset : c.progress.isSetUp with
  | true =>
    rw [hset, if_pos rfl] at hsetup
    rw [if_pos rfl, readied, ← hset]
    exact ⟨_, rfl, hsetup ▸ hturn⟩
  | false =>
    rw [hset, if_neg Bool.noConfusion] at hsetup
    obtain ⟨s', hrun, hreaches⟩ :=
      reaches_run host h.hooks (s := (c.start s).setting) hsetup rfl rfl
    rw [if_neg Bool.noConfusion, hrun]
    exact ⟨s', rfl, hturn.trans hreaches⟩

/-- The stages of a tick follow one another. -/
theorem Succeeds.stages (h : c.Succeeds acts s.scene ready left) : ∃ s',
    (Performance.stages host).run.run (c.start s) = (.ok (), ⟨c.executedAt s.now, s', true⟩) ∧
    s.Reaches left.entities left.raised [(c.id, left.entities)] s' := by
  obtain ⟨s₁, hsetup, h₁⟩ := h.setUp host
  have hbefore := h.before
  rw [← h₁.scene] at hbefore
  obtain ⟨s₂, hrun₂, h₂⟩ := reaches_run host (c := c.readied) h.hooks hbefore rfl rfl
  have hready := h₁.trans h₂
  rw [show s₁.scene.entities = ready from h₁.entities] at hready
  -- the scene is as it was but for what `setup` did, so the command is executed there
  have hfeasible := h.feasible
  have hexecute := h.execute
  have htracker : left.tracker = s₂.tracker := h.tracker.trans hready.tracker.symm
  rw [← hready.scene] at hfeasible hexecute
  have hmay : c.readied.mayExecute host s₂ = true :=
    (mayExecute_of_acts (c := c.readied) h.hooks h.unthrottled s₂).trans hfeasible
  obtain ⟨s₃, hrun₃, h₃⟩ :=
    reaches_run host (c := c.executedAt s.now) h.hooks hexecute htracker h.stopRequests
  obtain ⟨s₄, hrun₄, h₄⟩ := reaches_run host (c := c.executedAt s.now) h.hooks
    (run_after_of_acts h.hooks s₃.scene) rfl rfl
  have hall := (hready.trans h₃).trans h₄
  rw [show s₃.scene.entities = left.entities from h₃.entities] at hall
  have hid : (c.executedAt s.now).id = c.id := rfl
  refine ⟨s₄, ?_, by simpa [Setting.scene, hid] using hall⟩
  have hnote : (⟨c.readied, s₂, false⟩ : Performance κ ε).noteRun =
      ⟨c.executedAt s.now, s₂, false⟩ := by
    rw [← hready.now]
    rfl
  simp only [Performance.stages, Performance.execute, run_bind, hsetup, Performance.run_perform,
    hrun₂, run_get, hmay, ↓reduceIte, run_modify, hnote, hrun₃, Performance.noteExecuted, hrun₄]

/-- After its stages the command is over and is torn down, or it stays. -/
theorem Succeeds.tick (h : c.Succeeds acts s.scene ready left) : ∃ s',
    s.Reaches left.entities left.raised [(c.id, left.entities)] s' ∧
    c.tick host s =
      if (c.executedAt s.now).isOver host s' then
        (⟨true, hookFailed ((c.executedAt s.now).run host .teardown s').1, true⟩,
          ((c.executedAt s.now).run host .teardown s').2)
      else (⟨true, false, false⟩, c.executedAt s.now, s') := by
  obtain ⟨s', hstages, hreaches⟩ := h.stages host
  refine ⟨s', hreaches, ?_⟩
  unfold start at hstages
  simp only [Command.tick, hstages]
  rfl

end Command

/-! ### Turns -/

namespace Round

variable {host : CommandHost κ ε} {r : Round κ ε} {front back : List (Command κ)}
  {c c' : Command κ} {outcome : TickOutcome} {s' : Setting κ ε}

/-- The next turn is that of the command at the cursor. -/
theorem run_of_commands (hcommands : r.commands = front ++ c :: back)
    (hcursor : r.cursor = front.length) : r.run host = (r.turn host c).run host := by
  have hlt : r.cursor < r.commands.length := by
    rw [hcommands, hcursor, List.length_append, List.length_cons]
    omega
  have hnext : r.commands[r.cursor] = c := by
    simp only [hcommands, hcursor]
    rw [List.getElem_append_right (Nat.le_refl _)]
    simp only [Nat.sub_self, List.getElem_cons_zero]
  rw [run, dif_pos hlt, hnext]

/-- A round is over when the cursor has passed all commands. -/
theorem run_of_le (h : r.commands.length ≤ r.cursor) : r.run host = r := by
  rw [run, dif_neg (Nat.not_lt.mpr h)]

/-- A command that stays and asks for no stops is followed by the next one. -/
theorem turn_stays (hcommands : r.commands = front ++ c :: back) (hcursor : r.cursor = front.length)
    (htick : c.tick host r.session.setting = (outcome, c', s')) (hremoved : outcome.removed = false)
    (hid : c'.id = c.id) (hrequests : s'.stopRequests = []) :
    (r.turn host c).commands = front ++ c' :: back ∧
    (r.turn host c).cursor = front.length + 1 ∧
    (r.turn host c).session.setting = s' ∧
    (r.turn host c).report =
      { r.report with
        ran := r.report.ran + 1
        executed := r.report.executed + outcome.executed.toNat
        failed := r.report.failed + outcome.failed.toNat } := by
  have hafter : r.afterTick outcome c' s' =
      { cursor := r.cursor + 1, session := ⟨r.session.schedule.put c', s'⟩ } := by
    rw [afterTick, hremoved, if_neg Bool.noConfusion]
  simp only [turn, commands, htick, hafter, Sweep.meetRequests_nil host (w :=
    { cursor := r.cursor + 1, session := ⟨r.session.schedule.put c', s'⟩ }) hrequests, hremoved]
  exact ⟨Schedule.commands_put hcommands hid, congrArg (· + 1) hcursor, trivial, by simp⟩

/-- A command that is over makes room for the next one, and then the stops are made that it has
asked for. -/
theorem turn_leaves (hcommands : r.commands = front ++ c :: back)
    (hcursor : r.cursor = front.length)
    (htick : c.tick host r.session.setting = (outcome, c', s'))
    (hremoved : outcome.removed = true) :
    ∃ w : Sweep κ ε, w.stopped = [] ∧ w.commands = front ++ back ∧ w.session.setting = s' ∧
      (r.turn host c).session = (w.meetRequests host).session ∧
      (r.turn host c).cursor = (w.meetRequests host).cursor ∧
      (r.turn host c).report =
        { ran := r.report.ran + 1
          executed := r.report.executed + outcome.executed.toNat
          failed := r.report.failed + outcome.failed.toNat
          finished := r.report.finished ++ [c.id]
          stopped := r.report.stopped ++ (w.meetRequests host).stopped } := by
  have hafter : r.afterTick outcome c' s' =
      { cursor := r.cursor, session := ⟨r.session.schedule.eraseAt r.cursor, s'⟩ } := by
    rw [afterTick, hremoved, if_pos rfl]
  refine ⟨r.afterTick outcome c' s', ?_⟩
  simp only [turn, htick, hremoved, ↓reduceIte, and_true]
  rw [hafter]
  refine ⟨rfl, ?_, rfl⟩
  show r.commands.eraseIdx r.cursor = _
  rw [hcommands, hcursor, List.eraseIdx_append_of_length_le (Nat.le_refl _), Nat.sub_self,
    List.eraseIdx_cons_zero]

end Round

/-- A round of one command that asks for no stops is no more than a tick of that. -/
theorem Session.tick_of_single (host : CommandHost κ ε) {x : Session κ ε} {c c' : Command κ}
    {outcome : TickOutcome} {s' : Setting κ ε} (hcommands : x.schedule.commands = [c])
    (htick : c.tick host x.setting = (outcome, c', s')) (hid : c'.id = c.id)
    (hrequests : s'.stopRequests = []) :
    (x.tick host).1 =
      { ran := 1
        executed := outcome.executed.toNat
        failed := outcome.failed.toNat
        finished := if outcome.removed then [c.id] else [] } ∧
    (x.tick host).2.schedule.commands = (if outcome.removed then [] else [c']) ∧
    (x.tick host).2.setting = s' := by
  have hcommands : ({ session := x } : Round κ ε).commands = [] ++ c :: [] := hcommands
  have hrun : Round.run host { session := x } = (Round.turn host c { session := x }).run host :=
    Round.run_of_commands hcommands rfl
  unfold Session.tick
  rw [hrun]
  cases hremoved : outcome.removed with
  | false =>
    obtain ⟨hafter, hcursor, hsetting, hreport⟩ :=
      Round.turn_stays hcommands rfl htick hremoved hid hrequests
    rw [Round.run_of_le (by rw [hafter, hcursor]; exact Nat.le_refl _)]
    exact ⟨hreport.trans (by simp), hafter, hsetting⟩
  | true =>
    obtain ⟨w, hstopped, hafter, hsetting, hsession, hcursor, hreport⟩ :=
      Round.turn_leaves hcommands rfl htick hremoved
    rw [Sweep.meetRequests_nil host (hsetting ▸ hrequests)] at hsession hreport
    have hnone : (Round.turn host c { session := x }).commands = [] :=
      (congrArg (·.schedule.commands) hsession).trans hafter
    rw [Round.run_of_le (by rw [hnone]; exact Nat.zero_le _)]
    exact ⟨hreport.trans (by simp [hstopped]), hnone,
      (congrArg Session.setting hsession).trans hsetting⟩

/-! ### Listeners -/

namespace Entities

variable {es : Entities} {id j : EntityId} {s : Ship}

/-- There is such a ship, whoever listens to it. -/
def Shows (es : Entities) (id : EntityId) (s : Ship) : Prop :=
  ∃ events, es.ship id = .ok { s with events := events }

theorem shows_of_ship (h : es.ship id = .ok s) : es.Shows id s := ⟨s.events, h⟩

/-- What a ship becomes shows if it does not depend on who listens. -/
theorem Shows.adjustShip_self (h : es.Shows id s) {f : Ship → Ship} {s' : Ship}
    (hf : ∀ events, ∃ events', f { s with events := events } = { s' with events := events' }) :
    (es.adjustShip id f).Shows id s' := by
  obtain ⟨events, hship⟩ := h
  obtain ⟨events', hf⟩ := hf events
  exact ⟨events', by rw [ship_adjustShip es id f hship, if_pos rfl, hf]⟩

theorem Shows.adjustShip_of_ne (h : es.Shows j s) (hne : j ≠ id) (f : Ship → Ship) :
    (es.adjustShip id f).Shows j s := by
  obtain ⟨events, hship⟩ := h
  exact ⟨events, by rw [ship_adjustShip es id f hship, if_neg hne]⟩

theorem Shows.prune (h : es.Shows id s) (rs : List EntityRevocation) :
    (es.prune rs).2.Shows id s := by
  obtain ⟨events, hship⟩ := h
  have hget := es.get?_prune rs id
  rw [ship_eq_ok.mp hship] at hget
  exact ⟨_, ship_eq_ok.mpr hget⟩

theorem deposit_prune {d : Deposit} (h : es.deposit id = .ok d) (rs : List EntityRevocation) :
    (es.prune rs).2.deposit id = .ok d := by
  rw [deposit_eq_ok, get?_prune, deposit_eq_ok.mp h]
  rfl

end Entities

/-- The world is as a round has left it, but for the listeners. -/
structure World.Follows (w : World κ ε) (x : Session κ ε) : Prop where
  intact : w.registry.poisoned = false
  schedule : w.registry.schedule = x.schedule
  tracker : w.tracker = x.setting.tracker
  ship : ∀ {id s}, x.setting.entities.Shows id s → w.registry.entities.Shows id s
  deposit : ∀ {id d}, x.setting.entities.deposit id = .ok d →
    w.registry.entities.deposit id = .ok d

/-- When listeners only reply, the commands of a world are ticked and the world follows. -/
theorem World.exists_follows {host : Host κ ε} (hhost : host.OnlyReplies) (now : Float)
    {w : World κ ε} (hw : w.registry.poisoned = false) : ∃ delivery w',
      w.tickCommands host now =
        (.ok ⟨((w.session now).tick host.toCommandHost).1, delivery⟩, w') ∧
      w'.Follows ((w.session now).tick host.toCommandHost).2 := by
  obtain ⟨delivery, outside, htick⟩ := tickCommands_of_onlyReplies hhost now hw rfl
  exact ⟨delivery, _, htick, hw, rfl, rfl, fun hs => hs.prune _,
    fun hd => Entities.deposit_prune hd _⟩

/-! ### Runs -/

/-- What grows by the same amount in every tick, as long as it stays below a limit, grows likewise
in a run. -/
theorem World.grows_performAll {host : Host κ ε} {P : Nat → World κ ε → Prop} {step limit : Nat}
    (hstep : ∀ {n w}, n + step < limit → P n w → ∀ now, P (n + step) (w.tickCommands host now).2)
    {n : Nat} {w : World κ ε} (hw : P n w) (times : List Float)
    (hlimit : n + times.length * step < limit) :
    P (n + times.length * step) (w.performAll host (times.map .tick)) := by
  induction times generalizing n w with
  | nil =>
    rw [List.length_nil, Nat.zero_mul, Nat.add_zero]
    exact hw
  | cons now times ih =>
    rw [List.length_cons, Nat.succ_mul, Nat.add_comm (_ * _), ← Nat.add_assoc] at hlimit ⊢
    exact ih (hstep (by omega) hw now) hlimit

end Orrery
