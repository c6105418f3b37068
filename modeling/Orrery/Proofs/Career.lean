import Orrery.Proofs.Marks
import Orrery.Proofs.Mooring
import Orrery.Proofs.Telling

/-!
# The career of a command

From the moment that it is scheduled until it leaves the schedule, an attack or a mining run tells
its listeners of one cycle for each of its executions and, when it leaves, of the end; so nothing is
told after the end.  A command that leaves before it has been set up has had no cycle, and it is
silent about its end if it is stopped.

The chronicle of one command grows by one deed at a time.  What it has told so far is a matter of
that (`Task.Plays`, `Task.Ended`), and each hook keeps it (`Command.Serves`).  It depends on the
mark of the actor whether a stop is told, and that marks agree with the schedule is known from
`Orrery.Proofs.Marks`.
-/

namespace Orrery

variable {κ ε : Type}

/-! ### Deeds -/

namespace Deed

/-- The announcements that it asks for. -/
def announcements : Deed κ → List Announcement
  | turn .. => []
  | hook _ _ _ _ left => left.announcements

/-- The events that listeners are told of. -/
def told (d : Deed κ) : List EntityEvent := d.announcements.map (·.event)

/-- Whether it is an execution. -/
def isExecution (d : Deed κ) : Bool := d.stage? == some .execute

/-- Whether it sets its command up. -/
def setsUp : Deed κ → Bool
  | hook _ .setup (.ok ()) _ _ => true
  | _ => false

end Deed

namespace Task

/-- What a task may have done while it is on the schedule. -/
structure Plays (t : Task κ) (ds : List (Deed κ)) : Prop where
  /-- One cycle is told for each execution, and nothing else is. -/
  cycles : ∃ cycles : List (List EntityEvent), cycles.length = ds.countP Deed.isExecution ∧
    (∀ es ∈ cycles, t.IsCycle es) ∧ ds.flatMap Deed.told = cycles.flatten
  /-- It is executed only if it has been set up. -/
  setUp : ds.any Deed.isExecution = true → ds.any Deed.setsUp = true
  /-- A mining run tells how much it takes off the deposit. -/
  drawn : ∀ d ∈ ds, (d.told.map EntityEvent.units).sum + t.reserve d.left = t.reserve d.found

/-- The last hook of a task that is torn down or stopped after it has been set up, or before. -/
structure Ends (t : Task κ) (isSetUp : Bool) (last : Deed κ) : Prop where
  stage : last.stage? = some .teardown ∨ last.stage? = some .stop
  /-- The end of a task that was set up is told. -/
  told : isSetUp = true → t.IsEnding last.found last.told
  /-- No more than the end is told of one that was not set up. -/
  failed : isSetUp = false → ∃ es, t.IsEnding last.found es ∧ last.told.Sublist es
  /-- It is not told at all if the task was stopped. -/
  stopped : isSetUp = false → last.stage? = some .stop → last.told = []
  /-- Nothing is taken off a deposit at the end. -/
  drawn : t.reserve last.left = t.reserve last.found

/-- What a task has done that has left the schedule. -/
def Ended (t : Task κ) (ds : List (Deed κ)) : Prop :=
  ∃ front last, ds = front ++ [last] ∧ t.Plays front ∧ t.Ends (front.any Deed.setsUp) last

variable {t : Task κ} {ds : List (Deed κ)} {d : Deed κ}

theorem Plays.nil (t : Task κ) : t.Plays [] :=
  ⟨⟨[], rfl, List.forall_mem_nil _, rfl⟩, fun h => (Bool.noConfusion h), List.forall_mem_nil _⟩

/-- A deed that is silent changes nothing about what has been told. -/
theorem Plays.silent (h : t.Plays ds) (hexecution : d.isExecution = false) (htold : d.told = [])
    (hdrawn : t.reserve d.left = t.reserve d.found) : t.Plays (ds ++ [d]) := by
  obtain ⟨⟨cycles, hlength, hcycles, hall⟩, hsetUp, hdraws⟩ := h
  refine ⟨⟨cycles, ?_, hcycles, ?_⟩, fun hany => ?_, fun d' hd' => ?_⟩
  · simp [hexecution, hlength]
  · simp [htold, hall]
  · simp only [List.any_append, List.any_cons, List.any_nil, hexecution, Bool.or_false] at hany ⊢
    rw [hsetUp hany, Bool.true_or]
  · rcases List.mem_append.mp hd' with hd' | hd'
    · exact hdraws d' hd'
    · rw [List.mem_singleton.mp hd', htold, hdrawn]
      exact Nat.zero_add _

/-- An execution adds a cycle. -/
theorem Plays.cycle (h : t.Plays ds) (hsetUp : ds.any Deed.setsUp = true)
    (hexecution : d.isExecution = true) (htold : t.IsCycle d.told)
    (hdrawn : (d.told.map EntityEvent.units).sum + t.reserve d.left = t.reserve d.found) :
    t.Plays (ds ++ [d]) := by
  obtain ⟨⟨cycles, hlength, hcycles, hall⟩, -, hdraws⟩ := h
  refine ⟨⟨cycles ++ [d.told], ?_, fun es hes => ?_, ?_⟩, fun _ => ?_, fun d' hd' => ?_⟩
  · simp [hexecution, hlength]
  · rcases List.mem_append.mp hes with hes | hes
    · exact hcycles es hes
    · rwa [List.mem_singleton.mp hes]
  · simp [hall]
  · rw [List.any_append, hsetUp, Bool.true_or]
  · rcases List.mem_append.mp hd' with hd' | hd'
    · exact hdraws d' hd'
    · rwa [List.mem_singleton.mp hd']

/-- What is told in a career, which may go on or not: `cycles` and then `ending`. -/
structure Brackets (t : Task κ) (serving : Bool) (ds : List (Deed κ))
    (cycles : List (List EntityEvent)) (ending : List EntityEvent) : Prop where
  told : ds.flatMap Deed.told = cycles.flatten ++ ending
  isCycle : ∀ es ∈ cycles, t.IsCycle es
  /-- There is one cycle for each execution. -/
  length : cycles.length = ds.countP Deed.isExecution
  /-- The end is not told before it is there. -/
  goesOn : serving = true → ending = []
  /-- A command that has left after it was set up has told the end. -/
  ended : serving = false → ds.any Deed.setsUp = true → ∃ last, ds.getLast? = some last ∧
    (last.stage? = some .teardown ∨ last.stage? = some .stop) ∧ t.IsEnding last.found ending
  /-- One that has left before has had no cycle.  It is silent if it was stopped, and tells no more
  than the end otherwise. -/
  failed : serving = false → ds.any Deed.setsUp = false → cycles = [] ∧ ∃ last,
    ds.getLast? = some last ∧ (last.stage? = some .teardown ∨ last.stage? = some .stop) ∧
    (last.stage? = some .stop → ending = []) ∧
    ∃ es, t.IsEnding last.found es ∧ ending.Sublist es
  /-- A mining run tells how much it takes off the deposit, in each of its deeds. -/
  drawn : ∀ d ∈ ds, (d.told.map EntityEvent.units).sum + t.reserve d.left = t.reserve d.found
  /-- All in all it tells what it has taken. -/
  total : ((ds.flatMap Deed.told).map EntityEvent.units).sum =
    tally (fun d => t.reserve d.found - t.reserve d.left) ds

/-- Amounts that agree for each deed agree for all of them. -/
theorem sum_drawn (h : ∀ d ∈ ds,
    (d.told.map EntityEvent.units).sum + t.reserve d.left = t.reserve d.found) :
    ((ds.flatMap Deed.told).map EntityEvent.units).sum =
      tally (fun d => t.reserve d.found - t.reserve d.left) ds := by
  induction ds with
  | nil => rfl
  | cons d ds ih =>
    obtain ⟨hd, hds⟩ := List.forall_mem_cons.mp h
    rw [List.flatMap_cons, List.map_append, List.sum_append, ih hds, tally_cons]
    omega

theorem Plays.brackets (h : t.Plays ds) : ∃ cycles, t.Brackets true ds cycles [] := by
  obtain ⟨cycles, hlength, hcycles, hall⟩ := h.cycles
  exact ⟨cycles, by rw [hall, List.append_nil], hcycles, hlength, fun _ => rfl,
    fun h => Bool.noConfusion h, fun h => Bool.noConfusion h, h.drawn, sum_drawn h.drawn⟩

theorem Ends.units {isSetUp : Bool} {last : Deed κ} (h : t.Ends isSetUp last) :
    ∀ e ∈ last.told, e.units = 0 := by
  cases isSetUp with
  | true => exact (h.told rfl).units
  | false =>
    obtain ⟨es, hes, hsub⟩ := h.failed rfl
    exact fun e he => hes.units e (hsub.subset he)

theorem Ended.brackets (h : t.Ended ds) :
    ∃ cycles ending, t.Brackets false ds cycles ending := by
  obtain ⟨front, last, rfl, hplays, hends⟩ := h
  obtain ⟨cycles, hlength, hcycles, hall⟩ := hplays.cycles
  obtain ⟨hexecution, hsetsUp⟩ : last.isExecution = false ∧ last.setsUp = false := by
    cases last with
    | turn => exact ⟨rfl, rfl⟩
    | hook c stage outcome found left =>
      rcases hends.stage with hstage | hstage <;> cases hstage <;> exact ⟨rfl, rfl⟩
  have hany : (front ++ [last]).any Deed.setsUp = front.any Deed.setsUp := by
    simp [hsetsUp]
  have hlast : (front ++ [last]).getLast? = some last := List.getLast?_concat ..
  have hdrawn : ∀ d ∈ front ++ [last],
      (d.told.map EntityEvent.units).sum + t.reserve d.left = t.reserve d.found := by
    intro d hd
    rcases List.mem_append.mp hd with hd | hd
    · exact hplays.drawn d hd
    · have hzero : (last.told.map EntityEvent.units).sum = 0 := by
        rw [List.sum_eq_zero_iff_forall_eq_nat]
        simpa using hends.units
      rw [List.mem_singleton.mp hd, hzero, hends.drawn, Nat.zero_add]
  refine ⟨cycles, last.told, by simp [hall], hcycles, by simp [hlength, hexecution],
    fun h => Bool.noConfusion h, fun _ hsetUp => ⟨last, hlast, hends.stage, ?_⟩,
    fun _ hsetUp => ⟨?_, last, hlast, hends.stage, ?_, ?_⟩, hdrawn, sum_drawn hdrawn⟩
  · exact hends.told (hany ▸ hsetUp)
  -- a command that was never set up was never executed either
  · have hnone : front.countP Deed.isExecution = 0 := by
      rw [List.countP_eq_zero]
      intro d hd hexecutes
      have hready := hplays.setUp (List.any_eq_true.mpr ⟨d, hd, hexecutes⟩)
      rw [← hany, hsetUp] at hready
      cases hready
    exact List.eq_nil_of_length_eq_zero (hlength.trans hnone)
  · exact hends.stopped (hany ▸ hsetUp)
  · exact hends.failed (hany ▸ hsetUp)

end Task

/-! ### Ships that are told -/

namespace Entities

/-- All of these are ships. -/
def HasShips (es : Entities) (ids : List EntityId) : Prop :=
  ∀ id ∈ ids, ∃ s, es.get? id = some (.ship s)

variable {es es' : Entities} {ids : List EntityId}

theorem HasShips.retains (h : es.HasShips ids) (hes : es.Retains es') : es'.HasShips ids := by
  intro id hid
  obtain ⟨s, hs⟩ := h id hid
  obtain ⟨s', hs', -⟩ := hes.exists_ship hs
  exact ⟨s', hs'⟩

/-- Ships that have listeners hear of everything that they are told. -/
theorem HasShips.filter_hears (h : es.HasShips ids) (hattended : es.Attended)
    {events : List EntityEvent} (hevents : ∀ e ∈ events, e.entity ∈ ids) :
    events.filter es.hears = events := by
  refine List.filter_eq_self.mpr fun e he => ?_
  obtain ⟨s, hs⟩ := h e.entity (hevents e he)
  exact hattended.hears hs

end Entities

namespace Command

/-- What is known of a command that is on the schedule after it has done `ds`. -/
structure Stands (t : Task κ) (ds : List (Deed κ)) (c : Command κ) (es : Entities) : Prop where
  task : c.task = t
  builtIn : c.BuiltIn
  /-- The audience is there. -/
  ready : c.progress.isSetUp = true → es.HasShips t.audience
  /-- The schedule remembers whether it has been set up. -/
  setUp : ds.any Deed.setsUp = c.progress.isSetUp
  /-- What it has done so far. -/
  plays : t.Plays ds

/-- What is known of it in the midst of an operation, `past` being what it had done before. -/
structure Serves (t : Task κ) (past : List (Deed κ)) (c : Command κ) (s : Setting κ ε) : Prop
    extends Stands t (past ++ deedsOf s.chronicle c.id) c s.entities where
  /-- Ships have listeners. -/
  attended : s.entities.Attended

variable {t : Task κ} {past : List (Deed κ)} {c : Command κ} {s : Setting κ ε}
  {acts : Stage → Act Unit} (host : CommandHost κ ε)

/-- The deed of a hook. -/
def deed (c : Command κ) (acts : Stage → Act Unit) (stage : Stage) (s : Setting κ ε) : Deed κ :=
  .hook c stage ((acts stage).run.run s.scene).1 s.scene ((acts stage).run.run s.scene).2

theorem deedsOf_run (hacts : c.task.acts? = some acts) (stage : Stage) (s : Setting κ ε) :
    past ++ deedsOf (c.run host stage s).2.2.chronicle c.id =
      (past ++ deedsOf s.chronicle c.id) ++ [c.deed acts stage s] := by
  obtain ⟨-, -, -, hafter⟩ := run_of_acts host hacts stage s
  have hself : deedsOf [c.deed acts stage s] c.id = [c.deed acts stage s] :=
    deedsOf_self (by simp [deed, Deed.id, Deed.command])
  rw [hafter.chronicle, deedsOf_append, List.append_assoc]
  exact congrArg (fun ds => past ++ (deedsOf s.chronicle c.id ++ ds)) hself

/-- Of what a hook raises, those are told who listen in the end. -/
theorem told_deed (hacts : c.task.acts? = some acts) (stage : Stage) (s : Setting κ ε) :
    (c.deed acts stage s).told = ((acts stage).run.run s.scene).2.raised.filter
      ((acts stage).run.run s.scene).2.entities.hears :=
  (Task.announces_acts (s := s.scene) hacts stage ⟨rfl, rfl⟩).map_event

/-- A quiet hook is silent. -/
theorem told_deed_of_quiet (hacts : c.task.acts? = some acts) {stage : Stage}
    (h : stage = .setup ∨ stage = .before ∨ stage = .after) (s : Setting κ ε) :
    (c.deed acts stage s).told = [] := by
  rw [told_deed hacts, Task.raised_of_quiet hacts h]
  rfl

include host in
theorem BuiltIn.retains_acts (hc : c.BuiltIn) (hacts : c.task.acts? = some acts) (stage : Stage)
    (s : Setting κ ε) : s.entities.Retains ((acts stage).run.run s.scene).2.entities := by
  have hretains := (hc.run_spares host stage s).2
  rwa [(run_of_acts host hacts stage s).2.1] at hretains

/-- A command that is set up has its audience. -/
theorem hasShips_of_setup (hacts : c.task.acts? = some acts)
    (h : ((acts .setup).run.run s.scene).1 = .ok ()) : s.entities.HasShips c.task.audience := by
  obtain ⟨progress, task⟩ := c
  cases task with
  | attack a =>
    cases hacts
    obtain ⟨x, d, hx, hd⟩ := a.ships_of_setup h
    intro id hid
    simp only [Task.audience, List.mem_cons, List.not_mem_nil, or_false] at hid
    rcases hid with rfl | rfl
    · exact ⟨x, Entities.ship_eq_ok.mp hx⟩
    · exact ⟨d, Entities.ship_eq_ok.mp hd⟩
  | mining m =>
    cases hacts
    obtain ⟨x, hx⟩ := m.ship_of_setup h
    intro id hid
    rw [List.mem_singleton.mp hid]
    exact ⟨x, Entities.ship_eq_ok.mp hx⟩
  | custom => cases hacts

/-- Whoever is told by a command is one of the entities that it acts on. -/
theorem concerns_of_mem_audience {id : EntityId} (h : id ∈ c.task.audience) :
    c.concerns id = true := by
  obtain ⟨progress, task⟩ := c
  cases task with
  | attack a => simpa [Task.audience, Command.concerns, Attack.concerns] using h
  | mining m =>
    rw [Task.audience, List.mem_singleton] at h
    simp [Command.concerns, Mining.concerns, h]
  | custom => cases h

namespace Serves

include host in
/-- What a hook says that has something to say, if the command is set up. -/
theorem told_deed (h : Serves t past c s) (hacts : c.task.acts? = some acts)
    (hsetUp : c.progress.isSetUp = true) {stage : Stage} (haudience :
      ∀ e ∈ ((acts stage).run.run s.scene).2.raised, e.entity ∈ t.audience) :
    (c.deed acts stage s).told = ((acts stage).run.run s.scene).2.raised := by
  have hretains := h.builtIn.retains_acts host hacts stage s
  rw [Command.told_deed hacts]
  exact ((h.ready hsetUp).retains hretains).filter_hears (h.attended.retains hretains) haudience

/-- A hook that neither sets the command up nor executes it is silent as long as it is not the
last. -/
theorem hook (h : Serves t past c s) (hacts : c.task.acts? = some acts)
    {stage : Stage} (hstage : stage = .setup ∨ stage = .before ∨ stage = .after)
    (hsetsUp : (c.deed acts stage s).setsUp = false) :
    Serves t past (c.run host stage s).2.1 (c.run host stage s).2.2 := by
  have hretains := (h.builtIn.run_spares host stage s).2
  have hexecute : stage ≠ .execute := by
    rcases hstage with rfl | rfl | rfl <;> decide
  have hexecution : (c.deed acts stage s).isExecution = false := by
    rcases hstage with rfl | rfl | rfl <;> rfl
  rw [h.builtIn.run_eq_self host stage s]
  refine ⟨⟨h.task, h.builtIn, fun hsetUp => (h.ready hsetUp).retains hretains, ?_, ?_⟩,
    h.attended.retains hretains⟩
  · rw [deedsOf_run host hacts, List.any_append, h.setUp, List.any_cons, hsetsUp]
    simp
  · rw [deedsOf_run host hacts]
    exact h.plays.silent hexecution (told_deed_of_quiet hacts hstage s)
      (h.task ▸ Task.reserve_acts hacts hexecute)

/-- When a command has been set up, its audience is there. -/
theorem setup (h : Serves t past c s) (hacts : c.task.acts? = some acts)
    (hok : ((acts .setup).run.run s.scene).1 = .ok ()) :
    Serves t past { c with progress := { c.progress with isSetUp := true } }
      (c.run host .setup s).2.2 := by
  have hretains := (h.builtIn.run_spares host .setup s).2
  have hids : past ++ deedsOf (c.run host .setup s).2.2.chronicle
      ({ c with progress := { c.progress with isSetUp := true } } : Command κ).id =
        (past ++ deedsOf s.chronicle c.id) ++ [c.deed acts .setup s] :=
    deedsOf_run host hacts .setup s
  refine ⟨⟨h.task, h.builtIn, fun _ => ?_, ?_, ?_⟩, h.attended.retains hretains⟩
  · rw [← h.task]
    exact (hasShips_of_setup hacts hok).retains hretains
  · rw [hids]
    simp [deed, hok, Deed.setsUp]
  · rw [hids]
    exact h.plays.silent rfl (told_deed_of_quiet hacts (.inl rfl) s)
      (h.task ▸ Task.reserve_acts hacts (by decide))

/-- An execution of a command that is set up is a cycle. -/
theorem execute (h : Serves t past c s) (hacts : c.task.acts? = some acts)
    (hsetUp : c.progress.isSetUp = true)
    (hcycle : c.task.IsCycle ((acts .execute).run.run s.scene).2.raised ∧
      (((acts .execute).run.run s.scene).2.raised.map EntityEvent.units).sum +
        c.task.reserve ((acts .execute).run.run s.scene).2 = c.task.reserve s.scene) :
    Serves t past (c.run host .execute s).2.1 (c.run host .execute s).2.2 := by
  have hretains := (h.builtIn.run_spares host .execute s).2
  rw [h.task] at hcycle
  have htold : (c.deed acts .execute s).told = ((acts .execute).run.run s.scene).2.raised :=
    h.told_deed host hacts hsetUp hcycle.1.audience
  rw [h.builtIn.run_eq_self host .execute s]
  refine ⟨⟨h.task, h.builtIn, fun hsetUp => (h.ready hsetUp).retains hretains, ?_, ?_⟩,
    h.attended.retains hretains⟩
  · rw [deedsOf_run host hacts, List.any_append, h.setUp, hsetUp, Bool.true_or]
  · rw [deedsOf_run host hacts]
    refine h.plays.cycle (h.setUp.trans hsetUp) rfl ?_ ?_
    · rw [htold]
      exact hcycle.1
    · rw [htold]
      exact hcycle.2

/-- With its last hook a command ends what it has done. -/
theorem ended (h : Serves t past c s) (hacts : c.task.acts? = some acts)
    {stage : Stage} (hstage : stage = .teardown ∨ stage = .stop)
    (hraised : c.progress.isSetUp = false ∧ ((acts stage).run.run s.scene).2.raised = [] ∨
      t.IsEnding s.scene ((acts stage).run.run s.scene).2.raised ∧
        (stage = .stop → c.progress.isSetUp = true)) :
    t.Ended (past ++ deedsOf (c.run host stage s).2.2.chronicle c.id) := by
  refine ⟨_, _, deedsOf_run host hacts stage s, h.plays, ?_⟩
  have hexecute : stage ≠ .execute := by
    rcases hstage with rfl | rfl <;> decide
  have hstages : (c.deed acts stage s).stage? = some .teardown ∨
      (c.deed acts stage s).stage? = some .stop := hstage.imp (congrArg some) (congrArg some)
  have hdrawn : t.reserve ((acts stage).run.run s.scene).2 = t.reserve s.scene :=
    h.task ▸ Task.reserve_acts hacts hexecute
  have hfilter := Command.told_deed hacts stage s
  rw [h.setUp]
  rcases hraised with ⟨hsetUp, hnone⟩ | ⟨hending, hstop⟩
  -- it was stopped before it was set up, and says nothing; or it comes to its end
  · rw [hnone] at hfilter
    have hother := Task.raised_teardown (s := s.scene) hacts ⟨rfl, rfl⟩
    rw [h.task] at hother
    refine ⟨hstages, fun h => ?_, fun _ => ⟨_, hother, ?_⟩, fun _ _ => hfilter, hdrawn⟩
    · rw [hsetUp] at h
      cases h
    · rw [hfilter]
      exact List.nil_sublist _
  · refine ⟨hstages, fun hsetUp => ?_, fun _ => ⟨_, hending, ?_⟩, fun hsetUp hlast => ?_, hdrawn⟩
    · rw [h.told_deed host hacts hsetUp hending.audience]
      exact hending
    · rw [hfilter]
      exact List.filter_sublist
    · rw [hstop (Option.some.inj hlast)] at hsetUp
      cases hsetUp

/-- A command that is stopped has ended, if the mark of its actor is its own. -/
theorem halt (h : Serves t past c s) {k : Activity} {actor target : EntityId}
    (hdrives : c.task.drives? = some (k, actor, target))
    (hmark : k.mark? s.entities.outline? actor =
      if c.progress.isSetUp then some target else none) :
    t.Ended (past ++ deedsOf (c.halt host s).chronicle c.id) := by
  obtain ⟨acts, hacts⟩ := h.builtIn.exists_acts
  have hstop := Task.raised_stop (s := s.scene) hdrives hacts ⟨rfl, rfl⟩
  rw [show s.scene.entities = s.entities from rfl, hmark, h.task] at hstop
  refine h.ended host hacts (.inr rfl) ?_
  cases hsetUp : c.progress.isSetUp with
  | true =>
    rw [hsetUp] at hstop
    simp only [↓reduceIte] at hstop
    exact .inr ⟨hstop, fun _ => rfl⟩
  | false =>
    rw [hsetUp] at hstop
    simp only [Bool.false_eq_true, ↓reduceIte, reduceCtorEq] at hstop
    exact .inl ⟨rfl, hstop⟩

theorem start (h : Serves t past c s) : Serves t past c (s.note (.turn c s.scene)) := by
  have hturn : past ++ deedsOf (s.note (.turn c s.scene)).chronicle c.id =
      (past ++ deedsOf s.chronicle c.id) ++ [.turn c s.scene] := by
    have hself : deedsOf [Deed.turn c s.scene] c.id = [.turn c s.scene] :=
      deedsOf_self (by simp [Deed.id, Deed.command])
    rw [(s.after_note_turn c s.scene).chronicle, deedsOf_append, hself, List.append_assoc]
  refine ⟨⟨h.task, h.builtIn, h.ready, ?_, ?_⟩, h.attended⟩
  · rw [hturn, List.any_append, h.setUp]
    simp [Deed.setsUp]
  · rw [hturn]
    exact h.plays.silent rfl rfl rfl

/-- The command and the setting in the midst of a tick. -/
theorem keeps_perform {stage : Stage} (hstage : stage = .before ∨ stage = .after) :
    Keeps (fun p : Performance κ ε =>
        Serves t past p.command p.setting ∧ p.command.progress.isSetUp = true)
      (Performance.perform host stage) := by
  intro p ⟨hp, hsetUp⟩
  obtain ⟨acts, hacts⟩ := hp.builtIn.exists_acts
  rw [Performance.run_perform]
  refine ⟨hp.hook host hacts (.inr hstage) ?_, ?_⟩
  · rcases hstage with rfl | rfl <;> rfl
  · rw [hp.builtIn.run_eq_self host stage p.setting]
    exact hsetUp

theorem keeps_execute :
    Keeps (fun p : Performance κ ε =>
        Serves t past p.command p.setting ∧ p.command.progress.isSetUp = true)
      (Performance.execute host) := by
  refine Performance.keeps_execute_of_mayExecute (fun p hmay ⟨hp, hsetUp⟩ => ?_) (fun _ hp => hp)
  obtain ⟨acts, hacts⟩ := hp.builtIn.exists_acts
  have hnoted : Serves t past p.noteRun.command p.noteRun.setting :=
    ⟨⟨hp.task, hp.builtIn, hp.ready, hp.setUp, hp.plays⟩, hp.attended⟩
  rw [Performance.run_perform]
  refine ⟨hnoted.execute host hacts hsetUp (raised_execute host hacts hmay), ?_⟩
  rw [hnoted.builtIn.run_eq_self host .execute]
  exact hsetUp

theorem performance (h : Serves t past c s) :
    Serves t past (c.performance host s).command (c.performance host s).setting := by
  obtain ⟨acts, hacts⟩ := h.builtIn.exists_acts
  have hstart : Serves t past (c.start s).command (c.start s).setting := h.start
  obtain ⟨hcommand, -, houtcome, -⟩ :=
    run_of_acts host (c := (c.start s).command) hacts .setup (c.start s).setting
  refine performance_of_setUp (P := fun p => Serves t past p.command p.setting) host
    (fun e p hrun => ?_) (fun p hrun => ?_) (keeps_perform host (.inl rfl)) (keeps_execute host)
    (keeps_perform host (.inr rfl)) (fun p hp => hp.1)
  · rw [Performance.run_setUp] at hrun
    split at hrun
    · cases hrun
    · -- the command could not be set up
      rcases hset : (c.start s).command.run host .setup (c.start s).setting with ⟨r, c', s'⟩
      rw [hset] at hrun houtcome
      obtain ⟨rfl, rfl⟩ := Prod.mk.inj hrun
      have hunset : ((c.start s).command.deed acts .setup (c.start s).setting).setsUp = false := by
        simp [deed, ← houtcome, Deed.setsUp]
      have hsilent := hstart.hook host hacts (.inl rfl) hunset
      rwa [hset] at hsilent
  · rw [Performance.run_setUp] at hrun
    split at hrun
    · next hsetUp =>
      cases hrun
      exact ⟨hstart, hsetUp⟩
    · rcases hset : (c.start s).command.run host .setup (c.start s).setting with ⟨r, c', s'⟩
      rw [hset] at hrun houtcome hcommand
      obtain ⟨rfl, rfl⟩ := Prod.mk.inj hrun
      have hdone := hstart.setup host hacts houtcome.symm
      rw [hset] at hdone
      rw [show c' = _ from hcommand]
      exact ⟨hdone, rfl⟩

theorem tick (h : Serves t past c s) :
    ((c.tick host s).1.removed = false ∧
        Serves t past (c.tick host s).2.1 (c.tick host s).2.2) ∨
      ((c.tick host s).1.removed = true ∧
        t.Ended (past ++ deedsOf (c.tick host s).2.2.chronicle c.id)) := by
  have hp := h.performance host
  cases hover : (c.performance host s).command.isOver host (c.performance host s).setting with
  | false =>
    obtain ⟨hremoved, htick⟩ := tick_of_not_isOver host hover
    rw [htick]
    exact .inl ⟨hremoved, hp⟩
  | true =>
    obtain ⟨hremoved, htick⟩ := tick_of_isOver host hover
    obtain ⟨acts, hacts⟩ := hp.builtIn.exists_acts
    have hid : (c.performance host s).command.id = c.id := by
      unfold Command.id
      rw [hp.task, h.task]
    rw [htick, ← hid]
    refine .inr ⟨hremoved, hp.ended host hacts (.inl rfl) (.inr ⟨?_, by simp⟩)⟩
    exact hp.task ▸ Task.raised_teardown hacts ⟨rfl, rfl⟩

end Serves

end Command

/-! ### Sessions -/

/-- A command serves still, or has ended and left the schedule. -/
inductive Session.Chapter (c : Command κ) (past : List (Deed κ)) (x : Session κ ε) : Prop
  | serves {c' : Command κ} (hget : x.schedule.get? c.id = some c')
    (h : c'.Serves c.task past x.setting)
  | ended (hget : x.schedule.get? c.id = none)
    (h : c.task.Ended (past ++ deedsOf x.setting.chronicle c.id))

namespace Session.Chapter

variable {c c' : Command κ} {past : List (Deed κ)} {x : Session κ ε} (host : CommandHost κ ε)

/-- What other commands do is no matter. -/
theorem other (h : x.Chapter c past) {schedule : Schedule κ} {s : Setting κ ε} {ds : List (Deed κ)}
    {id : CommandId} (hne : c.id ≠ id) (hget : schedule.get? c.id = x.schedule.get? c.id)
    (hafter : x.setting.After ds s) (hds : ∀ d ∈ ds, d.id = id)
    (hretains : x.setting.entities.Retains s.entities) :
    Session.Chapter c past ⟨schedule, s⟩ := by
  have hlog : deedsOf s.chronicle c.id = deedsOf x.setting.chronicle c.id := by
    rw [hafter.chronicle, deedsOf_append, deedsOf_of_ne hds hne, List.append_nil]
  cases h with
  | @serves c' hfound h =>
    have hid : c'.id = c.id := (Schedule.get?_eq_some_iff.mp hfound).2
    refine .serves (hget.trans hfound)
      ⟨⟨h.task, h.builtIn, fun hsetUp => (h.ready hsetUp).retains hretains, ?_, ?_⟩,
        h.attended.retains hretains⟩
    · rw [hid, hlog, ← hid]
      exact h.setUp
    · rw [hid, hlog, ← hid]
      exact h.plays
  | ended hnone h =>
    refine .ended (hget.trans hnone) ?_
    rw [hlog]
    exact h

/-- It keeps its chapter while requests are met. -/
theorem stopAt {killed : Bool} {victim : EntityId} {w : Sweep κ ε} (hw : w.Agrees killed victim)
    (h : w.session.Chapter c past) (i : Nat) (hi : i < w.commands.length) :
    (w.stopAt host i w.commands[i]).session.Chapter c past := by
  have hget := w.session.schedule.get?_eraseAt hi c.id
  by_cases hid : c.id = w.commands[i].id
  · -- the command itself is stopped
    obtain ⟨k, actor, target, hdrives⟩ := hw.builtIn _ (List.getElem_mem hi)
    have hself : w.session.schedule.get? c.id = some w.commands[i] :=
      Schedule.get?_eq_some_iff.mpr ⟨List.getElem_mem hi, hid.symm⟩
    cases h with
    | ended hnone h =>
      rw [hself] at hnone
      cases hnone
    | serves hfound h =>
      rw [hself] at hfound
      cases hfound
      refine .ended (hget.trans (if_pos hid)) ?_
      rw [hid]
      exact h.halt host hdrives (hw.matching.mark?_of_mem (List.getElem_mem hi) hdrives)
  · obtain ⟨outcome, left, hafter⟩ := Command.after_halt host w.commands[i] w.session.setting
    exact other h hid (hget.trans (if_neg hid)) hafter (by simp [Deed.id, Deed.command])
      ((hw.builtIn _ (List.getElem_mem hi)).run_spares host .stop w.session.setting).2

theorem withRequests {w : Sweep κ ε} (h : w.session.Chapter c past) (queue : List EntityId) :
    (w.withRequests queue).session.Chapter c past := by
  cases h with
  | serves hget h =>
    exact .serves hget ⟨⟨h.task, h.builtIn, h.ready, h.setUp, h.plays⟩, h.attended⟩
  | ended hget h => exact .ended hget h

theorem meetRequests {killed : Bool} {victim : EntityId} {w : Sweep κ ε}
    (hw : w.Agrees killed victim) (h : w.session.Chapter c past) :
    (Sweep.meetRequests host w).session.Chapter c past :=
  (Sweep.keeps_meetRequests
    (P := fun w : Sweep κ ε => w.Agrees killed victim ∧ w.session.Chapter c past)
    (fun _ i hi hw => ⟨hw.1.stopAt host i hi, hw.2.stopAt host hw.1 i hi⟩)
    (fun _ queue hw => ⟨⟨hw.1.builtIn, hw.1.matching, hw.1.sound⟩, hw.2.withRequests queue⟩) w
    ⟨hw, h⟩).2

/-- A tick is part of the chapter of its command, and of no other one. -/
theorem afterTick {r : Round κ ε} (hr : r.Agrees) (h : r.cursor < r.commands.length)
    (hx : r.session.Chapter c past) {outcome : TickOutcome} {s' : Setting κ ε} (htick :
      r.commands[r.cursor].tick host r.session.setting = (outcome, c', s')) :
    (r.afterTick outcome c' s').session.Chapter c past := by
  obtain ⟨hid', -, ds, hafter, hids, -⟩ :=
    Command.after_tick host r.commands[r.cursor] r.session.setting
  have hretains := (hr.builtIn _ (List.getElem_mem h)).retains_tick host r.session.setting
  have herase := r.session.schedule.get?_eraseAt h c.id
  have hput := r.session.schedule.get?_put c' c.id
  rw [htick] at hid' hafter hretains
  unfold Round.afterTick
  -- names tell commands apart, so the tick is its own or that of another command
  by_cases hid : c.id = r.commands[r.cursor].id
  · have hself : r.session.schedule.get? c.id = some r.commands[r.cursor] :=
      Schedule.get?_eq_some_iff.mpr ⟨List.getElem_mem h, hid.symm⟩
    cases hx with
    | ended hnone _ =>
      rw [hself] at hnone
      cases hnone
    | serves hfound hserves =>
      rw [hself] at hfound
      cases hfound
      have hways := hserves.tick host
      rw [htick] at hways
      rcases hways with ⟨hremoved, hon⟩ | ⟨hremoved, hend⟩
      · rw [if_neg (by rw [hremoved]; simp)]
        rw [if_pos (hid.trans hid'.symm), hself] at hput
        exact .serves hput hon
      · rw [if_pos hremoved]
        refine .ended (herase.trans (if_pos hid)) ?_
        rw [hid]
        exact hend
  · split
    · exact other hx hid (herase.trans (if_neg hid)) hafter hids hretains
    · exact other hx hid (hput.trans (if_neg fun heq => hid (heq.trans hid'))) hafter hids hretains

end Session.Chapter

namespace Session

variable {c : Command κ} {past : List (Deed κ)} {x : Session κ ε} (host : CommandHost κ ε)

theorem chapter_tick (hbuiltIn : x.schedule.BuiltIn)
    (hmatching : Matching x.setting.entities.outline? x.schedule) (h : x.Chapter c past) :
    (x.tick host).2.Chapter c past := by
  refine (Round.keeps_run host
    (P := fun r : Round κ ε => r.Agrees ∧ r.session.Chapter c past) (fun r hr hP => ?_)
    { session := x } ⟨⟨hbuiltIn, hmatching, by simp⟩, h⟩).1.2
  refine ⟨Round.agrees_turn host r hr hP.1, ?_⟩
  rcases htick : r.commands[r.cursor].tick host r.session.setting with ⟨outcome, c', s'⟩
  obtain ⟨killed, victim, hafter, -⟩ := Round.exists_agrees_afterTick host hP.1 hr htick
  simp only [Round.turn, htick]
  exact (Chapter.afterTick host hP.1 hr hP.2 htick).meetRequests host hafter

theorem chapter_meetRequests (hbuiltIn : x.schedule.BuiltIn)
    (hmatching : Matching x.setting.entities.outline? x.schedule) (h : x.Chapter c past) :
    (x.meetRequests host).2.Chapter c past :=
  have hagrees : Sweep.Agrees false ⟨""⟩ { session := x } := ⟨hbuiltIn, hmatching, by simp⟩
  Chapter.meetRequests host hagrees h

end Session

/-! ### Operations -/

/-- Ships have listeners whenever commands are run. -/
def Operation.IsHeard (w : World κ ε) : Operation κ ε → Prop
  | tick _ | stopCommands .. | remove .. => w.registry.entities.Attended
  | _ => True

namespace World

/-- The command of a name on the schedule of a world. -/
def command? (w : World κ ε) (id : CommandId) : Option (Command κ) := w.registry.schedule.get? id

/-- A command stands on the schedule of a world, or has ended and left it. -/
inductive Chapter (c : Command κ) (ds : List (Deed κ)) (w : World κ ε) : Prop
  | stands {c' : Command κ} (hget : w.command? c.id = some c')
    (h : c'.Stands c.task ds w.registry.entities)
  | ended (hget : w.command? c.id = none) (h : c.task.Ended ds)

end World

namespace Session.Chapter

variable {c c' : Command κ} {ds : List (Deed κ)}

/-- Where nothing has been done yet. -/
theorem start {x : Session κ ε} (hchronicle : x.setting.chronicle = [])
    (hget : x.schedule.get? c.id = some c') (h : c'.Stands c.task ds x.setting.entities)
    (hattended : x.setting.entities.Attended) : x.Chapter c ds := by
  have hlog : ds ++ deedsOf x.setting.chronicle c'.id = ds := by
    rw [hchronicle]
    exact List.append_nil ds
  refine .serves hget ⟨⟨h.task, h.builtIn, h.ready, ?_, ?_⟩, hattended⟩
  · rw [hlog]
    exact h.setUp
  · rw [hlog]
    exact h.plays

/-- What has been done is part of the chapter in the end. -/
theorem resume {x : Session κ ε} (h : x.Chapter c ds) (w : World κ ε) :
    (w.resume x).Chapter c (ds ++ deedsOf x.setting.chronicle c.id) := by
  cases h with
  | @serves c' hget h =>
    have hid : c'.id = c.id := (Schedule.get?_eq_some_iff.mp hget).2
    exact .stands hget (hid ▸ h.toStands)
  | ended hget h => exact .ended hget h

end Session.Chapter

namespace World.Chapter

variable {c : Command κ} {ds : List (Deed κ)} {w : World κ ε}

/-- The entity that is removed is none that a command acts on which is still there. -/
theorem erase (h : w.Chapter c ds) {id : EntityId}
    (hnone : ∀ c ∈ w.registry.schedule.commands, c.concerns id = false) :
    (w.erase id).Chapter c ds := by
  cases h with
  | @stands c' hget h =>
    refine .stands hget ⟨h.task, h.builtIn, fun hsetUp j hj => ?_, h.setUp, h.plays⟩
    obtain ⟨s, hs⟩ := h.ready hsetUp j hj
    have hacts : c'.concerns j = true := Command.concerns_of_mem_audience (h.task ▸ hj)
    refine ⟨s, (Entities.get?_erase _ id j).trans ?_⟩
    rw [if_neg, hs]
    rintro rfl
    rw [hnone c' (Schedule.get?_eq_some_iff.mp hget).1] at hacts
    cases hacts
  | ended hget h => exact .ended hget h

end World.Chapter

/-- Every commit is part of the chapter of a command that is on the schedule. -/
theorem Operation.chapter_commit (host : CommandHost κ ε) {c c' : Command κ} {ds : List (Deed κ)}
    {w : World κ ε} {op : Operation κ ε} (hheard : op.IsHeard w) (hw : w.registry.Agrees)
    (hget : w.command? c.id = some c') (h : c'.Stands c.task ds w.registry.entities) :
    (op.commit host w).2.Chapter c (ds ++ deedsOf (op.commit host w).1 c.id) := by
  have hstill : ∀ {es : Entities}, (∀ ids, w.registry.entities.HasShips ids → es.HasShips ids) →
      c'.Stands c.task (ds ++ deedsOf [] c.id) es := by
    intro es hes
    simp only [deedsOf, List.filter_nil, List.append_nil]
    exact ⟨h.task, h.builtIn, fun hsetUp => hes _ (h.ready hsetUp), h.setUp, h.plays⟩
  have heffect := op.effect_commit host w
  generalize op.commit host w = r at heffect ⊢
  cases heffect with
  | refused | drift => exact .stands hget (hstill fun _ h => h)
  | @create e es hadd =>
    refine .stands hget (hstill fun ids hships id hmem => ?_)
    obtain ⟨x, hx⟩ := hships id hmem
    refine ⟨x, ((Entities.get?_of_add hadd).2 id).trans ?_⟩
    -- its name is taken
    rw [if_neg, hx]
    rintro rfl
    rw [(Entities.get?_of_add hadd).1] at hx
    cases hx
  | @schedule d s hadd =>
    refine .stands (((Schedule.get?_of_add hadd).2 c.id).trans ?_) (hstill fun _ h => h)
    rw [if_neg]
    · exact hget
    · intro heq
      have hnone := (Schedule.get?_of_add hadd).1
      rw [← heq] at hnone
      rw [World.command?, hnone] at hget
      cases hget
  | tick now =>
    exact (Session.chapter_tick host (x := w.session now) hw.builtIn hw.matching
      (.start rfl hget h hheard)).resume w
  | stopCommands now id =>
    exact (Session.chapter_meetRequests host (x := w.stopping now id) hw.builtIn hw.matching
      (.start rfl hget h hheard)).resume w
  | remove now id =>
    exact ((Session.chapter_meetRequests host (x := w.stopping now id) hw.builtIn hw.matching
      (.start rfl hget h hheard)).resume w).erase
        (Sweep.heeds_meetRequests host _ (.inl (List.mem_singleton_self id)))
  | transfer src dst material quantity =>
    exact .stands hget (hstill fun _ h => h.retains (Registry.retains_moveMaterial ..))
  | listen id events =>
    refine .stands hget (hstill fun ids hships j hmem => ?_)
    obtain ⟨x, hx⟩ := hships j hmem
    show ∃ x, (w.registry.entities.adjust id (·.withEvents events)).get? j = some (.ship x)
    rw [Entities.get?_adjust, hx]
    split
    · exact ⟨_, rfl⟩
    · exact ⟨x, rfl⟩

/-! ### What is announced -/

/-- What is announced in the course of an operation is what deeds announce. -/
def Setting.IsAnnounced (s : Setting κ ε) : Prop :=
  s.announcements = s.chronicle.flatMap Deed.announcements

namespace Session

variable (host : CommandHost κ ε) {x : Session κ ε}

theorem isAnnounced_run (stage : Stage) (c : Command κ) {s : Setting κ ε} (hs : s.IsAnnounced) :
    (c.run host stage s).2.2.IsAnnounced := by
  unfold Setting.IsAnnounced at hs ⊢
  simp [Command.run, Setting.resume, Setting.note, hs, Deed.announcements]

theorem isAnnounced_tick (hs : x.setting.IsAnnounced) : (x.tick host).2.setting.IsAnnounced := by
  refine (tick_keeps host (Q := fun _ => True) (fun c s _ hs => ⟨trivial, ?_⟩)
    (fun c s _ hs => isAnnounced_run host .stop c hs) (fun _ _ hs => hs) (fun _ _ => trivial)
    hs).2
  refine Command.tick_keeps (P := fun _ s => s.IsAnnounced) host
    (fun stage c s hs => isAnnounced_run host stage c hs) (fun _ _ _ hs => hs) ?_
  unfold Setting.IsAnnounced at hs ⊢
  simp [Setting.note, hs, Deed.announcements]

theorem isAnnounced_meetRequests (hs : x.setting.IsAnnounced) :
    (x.meetRequests host).2.setting.IsAnnounced :=
  (Sweep.meetRequests_keeps (Q := fun _ => True) (w := { session := x })
    (fun c _ _ hs => isAnnounced_run host .stop c hs) (fun _ _ hs => hs) (fun _ _ => trivial) hs).2

end Session

/-! ### Runs -/

namespace World

variable (host : CommandHost κ ε)

/-- What the command of a name does in a run of operations, until it leaves the schedule.  Another
one may take the name afterwards. -/
def career (id : CommandId) (w : World κ ε) : List (Operation κ ε) → List (Deed κ)
  | [] => []
  | op :: ops =>
    if (w.command? id).isSome then
      deedsOf (op.commit host w).1 id ++ career id (op.commit host w).2 ops
    else []

/-- Whether it is on the schedule all the time. -/
def serves (id : CommandId) (w : World κ ε) : List (Operation κ ε) → Bool
  | [] => (w.command? id).isSome
  | op :: ops => (w.command? id).isSome && serves id (op.commit host w).2 ops

variable {c : Command κ} {w : World κ ε} {ds : List (Deed κ)}

theorem career_of_left {id : CommandId} (h : w.command? id = none) (ops : List (Operation κ ε)) :
    w.career host id ops = [] ∧ w.serves host id ops = false := by
  cases ops <;> simp [career, serves, h]

/-- All that a command does is its career, which has ended if and only if it does not serve any
more. -/
theorem career_spec {c' : Command κ} (hw : w.registry.Agrees) (hget : w.command? c.id = some c')
    (h : c'.Stands c.task ds w.registry.entities) {ops : List (Operation κ ε)}
    (hops : w.Allows host (fun w op => op.IsFresh ∧ op.IsHeard w) ops) :
    if w.serves host c.id ops then c.task.Plays (ds ++ w.career host c.id ops)
    else c.task.Ended (ds ++ w.career host c.id ops) := by
  induction ops generalizing w ds c' with
  | nil =>
    simp only [serves, hget, Option.isSome_some, ↓reduceIte, career, List.append_nil]
    exact h.plays
  | cons op ops ih =>
    obtain ⟨⟨hfresh, hheard⟩, hrest⟩ := hops
    simp only [serves, career, hget, Option.isSome_some, Bool.true_and, ↓reduceIte]
    rw [← List.append_assoc]
    cases Operation.chapter_commit host hheard hw hget h with
    | stands hget' h' => exact ih (hw.commit host w op hfresh) hget' h' hrest
    | ended hnone hend =>
      obtain ⟨hcareer, hserves⟩ := career_of_left host hnone ops
      rw [hcareer, hserves, List.append_nil]
      exact hend

/-- A command that is not on the schedule does nothing. -/
theorem deedsOf_commit_of_absent {id : CommandId} (h : w.command? id = none)
    (op : Operation κ ε) : deedsOf (op.commit host w).1 id = [] := by
  have hother : ∀ c ∈ w.registry.schedule.commands, c.id ≠ id := Schedule.get?_eq_none_iff.mp h
  have hnone : ∀ {ds : List (Deed κ)}, (∀ d ∈ ds, d.id ≠ id) → deedsOf ds id = [] := fun hds =>
    List.filter_eq_nil_iff.mpr fun d hd => by simpa using hds d hd
  have hadd : ∀ {s s' : Setting κ ε} {ds : List (Deed κ)} {other : CommandId}, other ≠ id →
      s.After ds s' → (∀ d ∈ ds, d.id = other) → (∀ d ∈ s.chronicle, d.id ≠ id) →
      ∀ d ∈ s'.chronicle, d.id ≠ id := by
    intro s s' ds other hne hafter hds hs d hd
    rw [hafter.chronicle] at hd
    rcases List.mem_append.mp hd with hd | hd
    · exact hs d hd
    · rw [hds d hd]
      exact hne
  have hhalt : ∀ (c : Command κ) (s : Setting κ ε), c.id ≠ id → (∀ d ∈ s.chronicle, d.id ≠ id) →
      ∀ d ∈ (c.halt host s).chronicle, d.id ≠ id := by
    intro c s hc hs
    obtain ⟨outcome, left, hafter⟩ := Command.after_halt host c s
    exact hadd hc hafter (by simp [Deed.id, Deed.command]) hs
  have heffect := op.effect_commit host w
  generalize op.commit host w = r at heffect ⊢
  -- only three kinds of operations have commands do anything
  cases heffect with
  | refused | create | schedule | transfer | listen | drift => rfl
  | tick now =>
    refine hnone (Session.tick_keeps (x := w.session now) host (Q := fun c => c.id ≠ id)
      (fun c s hc hs => ?_) hhalt (fun _ _ hs => hs) hother (List.forall_mem_nil _)).2
    obtain ⟨hid, -, ds, hafter, hds, -⟩ := Command.after_tick host c s
    exact ⟨by rwa [hid], hadd hc hafter hds hs⟩
  | stopCommands now other | remove now other =>
    exact hnone (Sweep.meetRequests_keeps (w := { session := w.stopping now other }) hhalt
      (fun _ _ hs => hs) hother (List.forall_mem_nil _)).2

end World

namespace Skirmish

/-- Somebody who listens to everything. -/
def listeners : EventTable :=
  ⟨{ entries := EventKind.all.map fun kind => (kind, [⟨"observer", ⟨0⟩⟩])
     nodup := by decide }⟩

/-- The hunter, with listeners. -/
def watchedHunter : Ship := { hunter with events := listeners }

/-- The prey, with listeners. -/
def watchedPrey : Ship := { prey with events := listeners }

/-- A ship that is created marked with the prey. -/
def biasedHunter : Ship := { watchedHunter with attacking := some prey.id }

/-- A world of some ships, one of which is to attack another one. -/
def raid (ships : List Ship) : World Unit Unit :=
  World.after Host.still.toCommandHost { tracker := tracker, outside := () }
    (ships.map (fun s => .create (.ship s)) ++ [.schedule (.attack attack)])

/-- What the attack does in the course of one operation. -/
def attackIn (ships : List Ship) (op : Operation Unit Unit) : List (Deed Unit) :=
  (raid ships).career Host.still.toCommandHost attack.commandId [op]

theorem attackIn_tick {ships : List Ship} (hcheck : (raid ships).registry.check = .ok ())
    (hschedule : (raid ships).registry.schedule = onslaught) (hremoved :
      ((Command.attack attack).tick Host.still.toCommandHost
        ((raid ships).session 0).setting).1.removed = true) :
    attackIn ships (.tick 0) = deedsOf ((Command.attack attack).tick Host.still.toCommandHost
      ((raid ships).session 0).setting).2.2.chronicle attack.commandId := by
  have hcommand : (raid ships).command? attack.commandId = some (.attack attack) := by
    rw [World.command?, hschedule]
    rfl
  simp only [attackIn, World.career, hcommand, Option.isSome_some, ↓reduceIte, List.append_nil]
  rw [Operation.commit_tick_singleton _ hcheck (congrArg Schedule.commands hschedule) hremoved]

theorem attackIn_stop {ships : List Ship} (hcheck : (raid ships).registry.check = .ok ())
    (hschedule : (raid ships).registry.schedule = onslaught) :
    attackIn ships (.stopCommands 0 prey.id) =
      deedsOf ((Command.attack attack).halt Host.still.toCommandHost
        ((raid ships).session 0).setting).chronicle attack.commandId := by
  have hcommand : (raid ships).command? attack.commandId = some (.attack attack) := by
    rw [World.command?, hschedule]
    rfl
  simp only [attackIn, World.career, hcommand, Option.isSome_some, ↓reduceIte, List.append_nil,
    Operation.commit, hcheck]
  rw [Session.meetRequests_singleton Host.still.toCommandHost
    (congrArg Schedule.commands hschedule : _ = [.attack attack])
    (rfl : ((raid ships).stopping 0 prey.id).setting.stopRequests = [prey.id]) rfl]
  rfl

/-- Both ships have listeners. -/
theorem attended_raid : (raid [watchedHunter, watchedPrey]).registry.entities.Attended := by
  have hentries : (raid [watchedHunter, watchedPrey]).registry.entities.table.entries =
      [(hunter.id, .ship watchedHunter), (prey.id, .ship watchedPrey)] := rfl
  intro id s hs kind
  have hmem := Table.get?_eq_some_iff.mp hs
  rw [hentries] at hmem
  simp only [List.mem_cons, List.not_mem_nil, or_false, Prod.mk.injEq, Entity.ship.injEq] at hmem
  rcases hmem with ⟨-, rfl⟩ | ⟨-, rfl⟩ <;> cases kind <;> decide

end Skirmish

namespace World

/-- The events of an attack or a mining run are bracketed.  While it is on the schedule its
listeners are told of one cycle for each of its executions, and of nothing else: of a hit, to the
attacker and then to the defender, or of an amount of material.  If it leaves the schedule after it
was set up they are told once of the end, and that is the last that they hear of it; the listeners
of a wreck then also learn who destroyed it.  A command that is stopped before it was set up tells
nothing, and one that cannot be set up nothing but the end.  What a mining run says that it has
collected is what it has taken off the deposit.

This is so in all runs of operations that start with an empty registry, in which ships come without
marks and commands have not been set up, as long as ships have listeners whenever commands are run.
All announcements are those of deeds, a command that is not on the schedule does nothing, and
whatever listeners do in the course of an operation can be part of such a run. -/
theorem events_bracketed (host : Host κ ε) :
    let allowed := fun (w : World κ ε) (op : Operation κ ε) => op.IsFresh ∧ op.IsHeard w
    (∀ (tracker : Tracker) (outside : ε) (earlier later : List (Operation κ ε)),
      (∀ op ∈ earlier, op.IsFresh) →
      let w₀ := World.after host.toCommandHost { tracker := tracker, outside := outside } earlier
      ∀ (c : Command κ) (r : Registry κ), c.BuiltIn → c.progress.isSetUp = false →
        w₀.registry.addCommand c = .ok r →
        let w := w₀.withRegistry r
        w.Allows host.toCommandHost allowed later →
        ∃ cycles ending, c.task.Brackets (w.serves host.toCommandHost c.id later)
          (w.career host.toCommandHost c.id later) cycles ending) ∧
    (∀ (w : World κ ε) (now : Float),
      ((w.session now).tick host.toCommandHost).2.setting.IsAnnounced ∧
      ∀ id, ((w.stopping now id).meetRequests host.toCommandHost).2.setting.IsAnnounced) ∧
    (∀ (w : World κ ε) (op : Operation κ ε) (id : CommandId), w.command? id = none →
      deedsOf (op.commit host.toCommandHost w).1 id = []) ∧
    (host.Follows allowed → ∀ (w : World κ ε) (op : Operation κ ε), allowed w op →
      ∃ ops, w.Allows host.toCommandHost allowed (op :: ops) ∧
        op.perform host w = w.after host.toCommandHost (op :: ops)) := by
  intro allowed
  refine ⟨?_, fun w now =>
      ⟨Session.isAnnounced_tick _ rfl, fun id => Session.isAnnounced_meetRequests _ rfl⟩,
    fun w op id h => deedsOf_commit_of_absent _ h op,
    fun hhost w op hop => perform_follows hhost (fun _ _ _ => ⟨trivial, trivial⟩) hop⟩
  intro tracker outside earlier later hearlier w₀ c r hbuiltIn hfresh hadd w hlater
  have hstart : ({ tracker := tracker, outside := outside } : World κ ε).registry.Agrees :=
    ⟨rfl, by simp [Schedule.BuiltIn], fun k id => rfl⟩
  have hw₀ : w₀.registry.Agrees := after_induction (P := (·.registry.Agrees)) host.toCommandHost
    (fun w op hop h => h.commit host.toCommandHost w op hop) hstart hearlier
  obtain ⟨schedule, hschedule, rfl⟩ := Registry.addCommand_eq_ok hadd
  have hw : w.registry.Agrees :=
    ⟨hw₀.intact, hw₀.builtIn.add hbuiltIn hschedule,
      Registry.Agrees.matching_addCommand hw₀.matching hschedule hfresh⟩
  have hget : w.command? c.id = some c :=
    ((Schedule.get?_of_add hschedule).2 c.id).trans (if_pos rfl)
  have hstands : c.Stands c.task [] w.registry.entities :=
    ⟨rfl, hbuiltIn, fun h => absurd h (by simp [hfresh]), hfresh.symm, Task.Plays.nil _⟩
  have hcareer := career_spec host.toCommandHost hw hget hstands hlater
  rw [List.nil_append] at hcareer
  -- its career goes on, or it has ended
  cases hserves : w.serves host.toCommandHost c.id later with
  | true =>
    rw [hserves] at hcareer
    exact ⟨_, _, (Task.Plays.brackets hcareer).choose_spec⟩
  | false =>
    rw [hserves] at hcareer
    exact Task.Ended.brackets hcareer

/-- In particular so if one ship destroys another one with a hit. -/
theorem events_bracketed_skirmish :
    let host := Host.still.toCommandHost
    let ships := [Skirmish.watchedHunter, Skirmish.watchedPrey]
    let w := Skirmish.raid ships
    let allowed := fun (w : World Unit Unit) (op : Operation Unit Unit) =>
      op.IsFresh ∧ op.IsHeard w
    (w.Allows host allowed [.tick 0] ∧ ∃ cycles ending,
      Task.Brackets (.attack Skirmish.attack) false (Skirmish.attackIn ships (.tick 0)) cycles
        ending ∧ cycles.length = 1) ∧
    ∃ ops, w.Allows host allowed (.tick 0 :: ops) ∧
      (Operation.tick 0).perform Host.still w = w.after host (.tick 0 :: ops) := by
  intro host ships w allowed
  obtain ⟨hbracketed, -, -, hperform⟩ := events_bracketed Host.still
  have hstill : Host.still.Follows allowed := fun _ _ _ => ⟨[], trivial, rfl⟩
  have hlater : w.Allows host allowed [.tick 0] :=
    ⟨⟨trivial, Skirmish.attended_raid⟩, trivial⟩
  have hticked : Skirmish.attackIn ships (.tick 0) = _ :=
    Skirmish.attackIn_tick (by rfl) (by rfl) (by decide +kernel)
  have hserves : w.serves host Skirmish.attack.commandId [.tick 0] = false := by
    have hremoved : ((Command.attack Skirmish.attack).tick host (w.session 0).setting).1.removed =
        true := by decide +kernel
    have hcommit := Operation.commit_tick_singleton host (by rfl) (by rfl) hremoved
    simp only [serves, hcommit]
    exact Bool.and_false _
  obtain ⟨cycles, ending, hbrackets⟩ := hbracketed Skirmish.tracker ()
    (ships.map fun s => .create (.ship s)) [.tick 0]
    (by simp [ships, Operation.IsFresh, Skirmish.watchedHunter, Skirmish.watchedPrey,
      Skirmish.hunter, Skirmish.prey])
    (.attack Skirmish.attack) w.registry ⟨_, _, _, rfl⟩ rfl rfl hlater
  have hbrackets' : Task.Brackets (.attack Skirmish.attack)
      (w.serves host Skirmish.attack.commandId [.tick 0])
      (Skirmish.attackIn ships (.tick 0)) cycles ending := hbrackets
  rw [hserves] at hbrackets'
  refine ⟨⟨hlater, cycles, ending, hbrackets', ?_⟩,
    hperform hstill w (.tick 0) ⟨trivial, Skirmish.attended_raid⟩⟩
  rw [hbrackets'.length, hticked]
  decide +kernel

/-- A ship that is created with a mark makes a stop tell the end of an attack that has not been set
up; an attack that cannot be set up tells the end to whoever is there; and the destruction of a ship
is told after the end. -/
theorem events_unbracketed :
    let told := fun (ds : List (Deed Unit)) => ds.flatMap Deed.told
    let hunter := Skirmish.hunter.id
    let prey := Skirmish.prey.id
    let stopped := Skirmish.attackIn [Skirmish.biasedHunter, Skirmish.watchedPrey]
      (.stopCommands 0 prey)
    let failed := Skirmish.attackIn [Skirmish.watchedHunter] (.tick 0)
    let won := Skirmish.attackIn [Skirmish.watchedHunter, Skirmish.watchedPrey] (.tick 0)
    (stopped.any Deed.setsUp = false ∧ told stopped =
      [Attack.eventTo .attackedStop hunter prey, Attack.eventTo .defendedStop prey hunter]) ∧
    (failed.any Deed.setsUp = false ∧ told failed =
      [Attack.eventTo .attackedStop hunter prey]) ∧
    (won.any Deed.setsUp = true ∧ told won = Skirmish.attack.blow ++
      [Attack.eventTo .attackedStop hunter prey, Attack.eventTo .defendedStop prey hunter,
        Attack.eventTo .destroyedBy prey hunter]) := by
  intro told hunter prey stopped failed won
  have hstopped : stopped = _ := Skirmish.attackIn_stop (by rfl) (by rfl)
  have hfailed : failed = _ := Skirmish.attackIn_tick (by rfl) (by rfl) (by decide +kernel)
  have hwon : won = _ := Skirmish.attackIn_tick (by rfl) (by rfl) (by decide +kernel)
  rw [hstopped, hfailed, hwon]
  decide +kernel

end World

end Orrery
