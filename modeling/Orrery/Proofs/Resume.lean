import Orrery.Proofs.Request

/-!
# A restored simulation resumes where the saved one was

A simulation is saved, and an empty one takes the snapshot over.  The two may differ in all that is
not saved: who listens to them, whether a watch has seen its target in range, what is around them.
From then on they are asked for the same things, and nothing else that is done to them has to be the
same.  Still they answer alike, and the same would be saved of them (`Simulation.restored_resumes`),
provided that all commands are attacks and mining runs and that listeners only reply.

What is done to a simulation from the outside keeps everything in its place
(`Simulation.Reachable.isOrderly`), so that it can be saved and taken over.  In silence there is no
difference between the saved world and the restored one (`World.Holds.silenced_eq`), and in silence
only the requests matter (`World.follow_silenced`).
-/

namespace Orrery

variable {κ ε ε' : Type}

/-! ### What is saved -/

theorem Command.BuiltIn.exists_record {c : Command κ} (hc : c.BuiltIn) :
    ∃ r, c.record? = some r ∧ r.command = c := by
  obtain ⟨progress, task⟩ := c
  obtain ⟨k, actor, target, hdrives⟩ := hc
  cases task with
  | attack a => exact ⟨.attack a progress, rfl, rfl⟩
  | mining m => exact ⟨.mining m progress, rfl, rfl⟩
  | custom => cases hdrives

theorem Schedule.BuiltIn.of_records {s : Schedule κ} {records : List CommandRecord}
    (h : s.commands = records.map CommandRecord.command) : s.BuiltIn := by
  intro c hc
  rw [h] at hc
  obtain ⟨r, -, rfl⟩ := List.mem_map.mp hc
  cases r <;> exact ⟨_, _, _, rfl⟩

/-- Attacks and mining runs are made again of their records. -/
theorem Command.eq_map_records {cs : List (Command κ)} (h : ∀ c ∈ cs, c.BuiltIn) :
    cs = (cs.filterMap record?).map CommandRecord.command := by
  induction cs with
  | nil => rfl
  | cons c cs ih =>
    obtain ⟨hc, hcs⟩ := List.forall_mem_cons.mp h
    obtain ⟨r, hr, hcommand⟩ := hc.exists_record
    rw [List.filterMap_cons_some hr, List.map_cons, hcommand, ← ih hcs]

/-- Whether a snapshot is sound does not depend on listeners. -/
theorem Snapshot.isSound_silenced {s : Snapshot} : s.silenced.IsSound ↔ s.IsSound := by
  have hids : s.silenced.positions.map (·.position.id) = s.positions.map (·.position.id) := by
    simp [silenced, Function.comp_def, Tracked.silenced, Position.silenced]
  have hnames : s.silenced.entities.map Entity.id = s.entities.map Entity.id := by
    simp [silenced, Function.comp_def]
  constructor
  · rintro ⟨hrules, hpositions, hentities, hcommands⟩
    refine ⟨fun slot h => ?_, hids ▸ hpositions, hnames ▸ hentities, hcommands⟩
    exact hrules slot.silenced (List.mem_map_of_mem h)
  · rintro ⟨hrules, hpositions, hentities, hcommands⟩
    refine ⟨fun slot h => ?_, hids ▸ hpositions, hnames ▸ hentities, hcommands⟩
    obtain ⟨slot', hslot', rfl⟩ := List.mem_map.mp h
    exact hrules slot' hslot'

namespace World

variable {w : World κ ε}

/-- What is in order can be saved, and is what the snapshot says. -/
theorem IsOrderly.exists_snapshot (hw : w.IsOrderly) :
    ∃ s, w.snapshot = .ok s ∧ w.Holds s ∧
      ∀ slot ∈ s.positions, slot.position.rule.validate = .ok () := by
  refine ⟨⟨w.tracker.slots.values, w.registry.entities.all,
    w.registry.schedule.commands.filterMap Command.record?⟩, ?_, ⟨?_, ?_, ?_⟩, ?_⟩
  · simp [snapshot, Registry.snapshot, Registry.check_of_intact hw.registry, Tracker.snapshot,
      Tracker.open?_eq_ok hw.tracker.intact, bind, Except.bind, pure, Except.pure]
  · exact Table.entries_eq_map_values fun id slot h => (hw.tracker.filed id slot h).id
  · exact Table.entries_eq_map_values hw.entities
  · exact Command.eq_map_records hw.builtIn
  · intro slot hslot
    obtain ⟨⟨id, slot'⟩, hentry, rfl⟩ := List.mem_map.mp hslot
    exact (hw.tracker.filed id slot' (Table.get?_eq_some_iff.mpr hentry)).rule

theorem Holds.isOrderly {s : Snapshot} (h : w.Holds s) (htracker : w.tracker.poisoned = false)
    (hregistry : w.registry.poisoned = false)
    (hrules : ∀ slot ∈ s.positions, slot.position.rule.validate = .ok ()) : w.IsOrderly where
  tracker := .of_entries htracker hrules h.positions
  registry := hregistry
  entities := .of_entries h.entities
  builtIn := .of_records h.commands

theorem isOrderly_empty (outside : ε) : ({ outside := outside } : World κ ε).IsOrderly :=
  have hholds : ({ outside := outside } : World κ ε).Holds ⟨[], [], []⟩ := ⟨rfl, rfl, rfl⟩
  hholds.isOrderly rfl rfl (by simp)

theorem snapshot_silenced (w : World κ ε) :
    w.silenced.snapshot = w.snapshot.map Snapshot.silenced := by
  have htracker :
      w.silenced.tracker.snapshot = w.tracker.snapshot.map (·.map Tracked.silenced) := by
    show w.tracker.silenced.snapshot = _
    unfold Tracker.snapshot
    rw [Tracker.open?_silenced]
    cases w.tracker.open? with
    | error e => rfl
    | ok slots => exact congrArg Except.ok (Table.values_map slots Tracked.silenced)
  have hregistry : w.silenced.registry.snapshot =
      w.registry.snapshot.map fun r => (r.1.map Entity.silenced, r.2) := by
    unfold Registry.snapshot
    rw [registry_silenced, Registry.check_silenced, Registry.entities_silenced,
      Entities.all_silenced]
    cases w.registry.check <;> rfl
  unfold snapshot
  rw [htracker, hregistry]
  cases w.registry.snapshot with
  | error e => rfl
  | ok r => cases w.tracker.snapshot <;> rfl

theorem Holds.silenced {s : Snapshot} (h : w.Holds s) : w.silenced.Holds s.silenced where
  positions := by
    simp only [World.silenced, Tracker.silenced, Table.map, h.positions, Snapshot.silenced,
      List.map_map]
    rfl
  entities := by
    simp only [World.silenced, Registry.silenced, Entities.silenced, Table.map, h.entities,
      Snapshot.silenced, List.map_map]
    refine List.map_congr_left fun e _ => ?_
    exact congrArg (·, e.silenced) e.id_silenced.symm
  commands := h.commands

/-- A snapshot leaves nothing open that can be saved. -/
theorem Holds.unique {w' : World κ ε} {s : Snapshot} (h : w.Holds s) (h' : w'.Holds s)
    (htracker : w.tracker.poisoned = w'.tracker.poisoned)
    (hregistry : w.registry.poisoned = w'.registry.poisoned) (houtside : w.outside = w'.outside) :
    w = w' := by
  obtain ⟨⟨slots, poisoned⟩, ⟨⟨table⟩, schedule, poisoned'⟩, outside⟩ := w
  obtain ⟨⟨slots', _⟩, ⟨⟨table'⟩, schedule', _⟩, _⟩ := w'
  have hslots : slots = slots' := Table.ext_entries (h.positions.trans h'.positions.symm)
  have htable : table = table' := Table.ext_entries (h.entities.trans h'.entities.symm)
  have hschedule : schedule = schedule' := Schedule.ext (h.commands.trans h'.commands.symm)
  cases htracker
  cases hregistry
  cases houtside
  rw [hslots, htable, hschedule]

/-- Worlds of which the same is saved are the same in silence. -/
theorem Holds.silenced_eq {w' : World κ ε'} {s s' : Snapshot} (hw : w.IsOrderly)
    (hw' : w'.IsOrderly) (h : w.Holds s) (h' : w'.Holds s') (hs : s.silenced = s'.silenced) :
    w.silenced = w'.silenced := by
  have hsame : w.silenced.Holds s'.silenced := hs ▸ h.silenced
  exact hsame.unique h'.silenced (hw.tracker.intact.trans hw'.tracker.intact.symm)
    (hw.registry.trans hw'.registry.symm) rfl

end World

/-! ### Steps -/

/-- What can happen to a world: it is asked for something, somebody wants to listen to it or to
listen no more, or its surroundings change. -/
inductive Step (κ ε : Type) where
  | ask (r : Request κ)
  | enrol (x : Enrolment)
  | drift (outside : ε)

/-- The requests among some steps. -/
def Step.requests (steps : List (Step κ ε)) : List (Request κ) :=
  steps.filterMap fun
    | ask r => some r
    | _ => none

/-- Follows some steps, and returns the answers to the requests. -/
def World.follow (host : Host κ ε) (w : World κ ε) : List (Step κ ε) → List Answer × World κ ε
  | [] => ([], w)
  | .ask r :: steps =>
    let (answer, w) := w.serve host r
    let (answers, w) := w.follow host steps
    (answer :: answers, w)
  | .enrol x :: steps => (w.enrol x).follow host steps
  | .drift outside :: steps => { w with outside := outside }.follow host steps

/-- Surroundings in which nothing happens and nobody listens. -/
def Host.mute : Host κ Unit where
  hook _ progress body scene outside := ⟨.ok (), progress, body, scene, outside⟩
  mayExecute _ _ _ := false
  isOver _ _ _ := true
  credit _ outside := outside
  hearPosition _ _ w := (.ok (), w)
  hearEntity _ _ w := (.ok (), w)

namespace World

/-- In silence only the requests matter. -/
theorem follow_silenced {host : Host κ ε} (hhost : host.OnlyReplies) {w : World κ ε}
    (hw : w.IsOrderly) (steps : List (Step κ ε))
    (hsteps : ∀ r ∈ Step.requests steps, r.IsBuiltIn) :
    w.silenced.follow Host.mute ((Step.requests steps).map fun r => .ask r.silenced) =
        ((w.follow host steps).1.map Answer.silenced, (w.follow host steps).2.silenced) ∧
      (w.follow host steps).2.IsOrderly := by
  induction steps generalizing w with
  | nil => exact ⟨rfl, hw⟩
  | cons step steps ih =>
    cases step with
    | ask r =>
      obtain ⟨hr, hrest⟩ := List.forall_mem_cons.mp hsteps
      obtain ⟨hsame, hserved⟩ := serve_silenced Host.mute hhost hw hr
      obtain ⟨hfollow, hkept⟩ := ih hserved hrest
      refine ⟨?_, hkept⟩
      show follow Host.mute w.silenced (.ask r.silenced :: (Step.requests steps).map _) = _
      simp only [follow, hsame, hfollow, List.map_cons]
    | enrol x =>
      obtain ⟨hsame, henrolled⟩ := enrol_silenced hw x
      have hfollow := ih henrolled hsteps
      rw [hsame] at hfollow
      exact hfollow
    | drift outside =>
      have hdrifted : { w with outside := outside }.IsOrderly :=
        ⟨hw.tracker, hw.registry, hw.entities, hw.builtIn⟩
      exact ih hdrifted hsteps

end World

/-! ### Simulations -/

namespace Simulation

/-- Follows some steps, and returns the answers to the requests. -/
def follow (host : Host κ ε) (s : Simulation κ ε) (steps : List (Step κ ε)) :
    List Answer × Simulation κ ε :=
  let (answers, world) := s.world.follow host steps
  (answers, { s with world := world })

/-- What a simulation can become by all that can be done to it from the outside.  Only attacks and
mining runs are scheduled, what reads and changes the entities leaves each of them under its own
name, and no operation breaks off half-way. -/
inductive Reachable (host : Host κ ε) : Simulation κ ε → Prop
  | new {settings : Settings} {outside : ε} {s : Simulation κ ε}
      (hs : Simulation.new settings outside = .ok s) : Reachable host s
  | follow {s : Simulation κ ε} (hs : Reachable host s) (steps : List (Step κ ε))
      (hsteps : ∀ r ∈ Step.requests steps, r.IsBuiltIn) : Reachable host (s.follow host steps).2
  /-- Stops a position in place. -/
  | halt {s : Simulation κ ε} (hs : Reachable host s) (id : PositionId) :
      Reachable host { s with world := { s.world with tracker := s.world.tracker.halt id } }
  /-- Ends tracking a position that nothing needs any more. -/
  | release {s : Simulation κ ε} (hs : Reachable host s) (id : PositionId) :
      Reachable host { s with world := { s.world with tracker := s.world.tracker.release id } }
  /-- Reads and changes the entities as one unit. -/
  | access {s : Simulation κ ε} (hs : Reachable host s) {α : Type} {f : Entities → α × Entities}
      (hf : ∀ es : Entities, es.IsFiled → (f es).2.IsFiled) {a : α} {registry : Registry κ}
      (haccess : s.world.registry.access f = .ok (a, registry)) :
      Reachable host { s with world := { s.world with registry := registry } }
  | updateCommand {s : Simulation κ ε} (hs : Reachable host s) {id : CommandId}
      {progress : Progress} {registry : Registry κ}
      (hupdate : s.world.registry.updateCommand id progress = .ok registry) :
      Reachable host { s with world := { s.world with registry := registry } }
  /-- Replaces all tracked positions. -/
  | replacePositions {s : Simulation κ ε} (hs : Reachable host s) {slots : List Tracked}
      {tracker : Tracker} (hrestore : s.world.tracker.restore slots = .ok tracker) :
      Reachable host { s with world := { s.world with tracker := tracker } }
  /-- Replaces all entities and commands. -/
  | replaceEntities {s : Simulation κ ε} (hs : Reachable host s) {entities : List Entity}
      {commands : List CommandRecord} {registry : Registry κ}
      (hrestore : s.world.registry.restore entities commands = .ok registry) :
      Reachable host { s with world := { s.world with registry := registry } }
  | start {s : Simulation κ ε} (hs : Reachable host s) (elapsed now : Float) :
      Reachable host (s.start host elapsed now).2
  | shutdown {s : Simulation κ ε} (hs : Reachable host s) : Reachable host s.shutdown.2
  | restore {s : Simulation κ ε} (hs : Reachable host s) (snapshot : Snapshot) :
      Reachable host (s.restore snapshot).2

/-- What was taken over is held, and is in order. -/
theorem holds_restore {s : Simulation κ ε} {snapshot : Snapshot}
    (h : (s.restore snapshot).1 = .ok ()) :
    (s.restore snapshot).2.world.Holds snapshot ∧ (s.restore snapshot).2.world.IsOrderly := by
  rcases s.restore_cases snapshot with ⟨⟨e, hrefused⟩, -⟩ | ⟨hrestored, -⟩
  · rw [hrefused] at h
    cases h
  · rw [hrestored] at h ⊢
    obtain ⟨-, -, hrules, htracker, hregistry, -, hholds⟩ :=
      World.restore_eq_ok_iff.mp (Prod.ext h rfl : s.world.restore snapshot = (.ok (), _))
    exact ⟨hholds, hholds.isOrderly htracker hregistry hrules⟩

theorem new_eq_ok {settings : Settings} {outside : ε} {s : Simulation κ ε}
    (h : Simulation.new settings outside = .ok s) :
    s = { settings := settings, world := { outside := outside } } := by
  unfold Simulation.new at h
  cases hvalid : settings.validate with
  | error e =>
    rw [hvalid] at h
    cases h
  | ok u =>
    rw [hvalid] at h
    cases h
    rfl

theorem looksEmpty_new {settings : Settings} {outside : ε} {s : Simulation κ ε}
    (h : Simulation.new settings outside = .ok s) : s.LooksEmpty := by
  rw [new_eq_ok h]
  exact ⟨rfl, rfl, rfl, rfl, rfl⟩

variable {host : Host κ ε}

/-- As long as listeners only reply, everything stays in its place. -/
theorem Reachable.isOrderly (hhost : host.OnlyReplies) {s : Simulation κ ε}
    (hs : s.Reachable host) : s.world.IsOrderly := by
  induction hs with
  | @new settings outside s hs =>
    rw [new_eq_ok hs]
    exact World.isOrderly_empty outside
  | follow hs steps hsteps ih => exact (World.follow_silenced hhost ih steps hsteps).2
  | halt hs id ih => exact ⟨ih.tracker.halt id, ih.registry, ih.entities, ih.builtIn⟩
  | release hs id ih => exact ⟨ih.tracker.release id, ih.registry, ih.entities, ih.builtIn⟩
  | @access s hs α f hf a registry haccess ih =>
    simp only [Registry.access, Registry.check_of_intact ih.registry, bind, Except.bind, pure,
      Except.pure] at haccess
    cases haccess
    exact ⟨ih.tracker, ih.registry, hf _ ih.entities, ih.builtIn⟩
  | @updateCommand s hs id progress registry hupdate ih =>
    obtain ⟨c, hc, rfl⟩ := Registry.updateCommand_eq_ok hupdate
    -- the command is the same apart from its progress
    have hbuiltIn : { c with progress := progress }.BuiltIn := ih.builtIn c hc
    exact ⟨ih.tracker, ih.registry, ih.entities, ih.builtIn.put hbuiltIn⟩
  | replacePositions hs hrestore ih =>
    obtain ⟨-, hrules, hintact, hentries⟩ := Tracker.restore_eq_ok_iff.mp hrestore
    exact ⟨.of_entries hintact hrules hentries, ih.registry, ih.entities, ih.builtIn⟩
  | replaceEntities hs hrestore ih =>
    obtain ⟨-, hintact, hentities, hcommands⟩ := Registry.restore_eq_ok_iff.mp hrestore
    exact ⟨ih.tracker, hintact, .of_entries hentities, .of_records hcommands⟩
  | @start s hs elapsed now ih =>
    unfold Simulation.start
    split
    · exact ih
    · have hmoved := (World.tick_silenced Host.mute hhost ih elapsed).2
      exact (World.tickCommands_silenced Host.mute hhost hmoved now).2
  | @shutdown s hs ih =>
    unfold Simulation.shutdown
    split <;> exact ih
  | @restore s hs snapshot ih =>
    cases houtcome : (s.restore snapshot).1 with
    | error e =>
      rw [restore_of_error houtcome]
      exact ih
    | ok u => exact (holds_restore houtcome).2

/-! ### Going on -/

/-- Two simulations that cannot be told apart but by listeners.  The same requests are answered in
the same way and leave the same to be saved, whoever enrols in between and whatever happens to the
surroundings. -/
def BehavesLike (s : Simulation κ ε) (host : Host κ ε) (t : Simulation κ ε') (host' : Host κ ε') :
    Prop :=
  ∀ steps steps', Step.requests steps = Step.requests steps' →
    (∀ r ∈ Step.requests steps, r.IsBuiltIn) →
    (s.follow host steps).1.map Answer.silenced = (t.follow host' steps').1.map Answer.silenced ∧
      ∃ saved saved', (s.follow host steps).2.snapshot = .ok saved ∧
        (t.follow host' steps').2.snapshot = .ok saved' ∧ saved.silenced = saved'.silenced

variable {host' : Host κ ε'}

theorem behavesLike_of_silenced {s : Simulation κ ε} {t : Simulation κ ε'}
    (hhost : host.OnlyReplies) (hhost' : host'.OnlyReplies) (hs : s.world.IsOrderly)
    (ht : t.world.IsOrderly) (h : s.world.silenced = t.world.silenced) :
    s.BehavesLike host t host' := by
  intro steps steps' hsame hsteps
  obtain ⟨hfollow, hkept⟩ := World.follow_silenced hhost hs steps hsteps
  obtain ⟨hfollow', hkept'⟩ := World.follow_silenced hhost' ht steps' (hsame ▸ hsteps)
  obtain ⟨saved, hsaved, -⟩ := hkept.exists_snapshot
  obtain ⟨saved', hsaved', -⟩ := hkept'.exists_snapshot
  -- both are followed by the same silent world
  rw [h, hsame, hfollow'] at hfollow
  obtain ⟨hanswers, hworlds⟩ := Prod.mk.inj hfollow
  have hsnapshots := congrArg World.snapshot hworlds
  rw [World.snapshot_silenced, World.snapshot_silenced, hsaved, hsaved'] at hsnapshots
  exact ⟨hanswers.symm, saved, saved', hsaved, hsaved', (Except.ok.inj hsnapshots).symm⟩

/-- Whatever has been done to a simulation, it can be saved.  If what was saved is read, apart from
its listeners, every simulation that looks empty takes it over and behaves like the saved one. -/
theorem restored_resumes (hhost : host.OnlyReplies) {s : Simulation κ ε} (hs : s.Reachable host)
    (hhost' : host'.OnlyReplies) {t : Simulation κ ε'} (ht : t.LooksEmpty) :
    ∃ saved, s.snapshot = .ok saved ∧ ∀ read : Snapshot, read.silenced = saved.silenced →
      ∃ t', t.restore read = (.ok (), t') ∧ s.BehavesLike host t' host' := by
  have horderly := hs.isOrderly hhost
  obtain ⟨saved, hsaved, hholds, hrules⟩ := horderly.exists_snapshot
  refine ⟨saved, hsaved, fun read hread => ?_⟩
  have hsound : read.IsSound := by
    rw [← Snapshot.isSound_silenced, hread, Snapshot.isSound_silenced]
    exact hholds.isSound hrules
  have hrestored : (t.restore read).1 = .ok () := restore_eq_ok_iff.mpr ⟨ht, hsound⟩
  refine ⟨(t.restore read).2, Prod.ext hrestored rfl, ?_⟩
  obtain ⟨hheld, hkept⟩ := holds_restore hrestored
  exact behavesLike_of_silenced hhost hhost' horderly hkept
    (hholds.silenced_eq horderly hkept hheld hread.symm)

end Simulation

namespace Skirmish

/-- A simulation in which nothing is. -/
def vacant : Simulation Unit Unit where
  world := { outside := () }

/-- Both ships appear in their place, and the attack is scheduled. -/
def deployment : List (Step Unit Unit) :=
  [.ask (.track { id := place }), .ask (.create (.ship hunter)), .ask (.create (.ship prey)),
    .ask (.addCommand (.attack attack))]

/-- The simulation in which the attack is scheduled. -/
def deployed : Simulation Unit Unit := (vacant.follow Host.still deployment).2

/-- The attack can be saved, and goes on in an empty simulation. -/
theorem deployed_resumes : ∃ saved t, deployed.snapshot = .ok saved ∧
    saved.commands = [.attack attack {}] ∧ vacant.restore saved = (.ok (), t) ∧
    deployed.BehavesLike Host.still t Host.still := by
  have hvacant : Simulation.new {} () = .ok vacant := rfl
  have hattack : (Command.attack attack : Command Unit).BuiltIn := ⟨_, _, _, rfl⟩
  have hsteps : ∀ r ∈ Step.requests deployment, r.IsBuiltIn := by
    simp [Step.requests, deployment, Request.IsBuiltIn, hattack]
  have hdeployed : deployed.Reachable Host.still := .follow (.new hvacant) deployment hsteps
  obtain ⟨saved, hsaved, hresumes⟩ := Simulation.restored_resumes Host.onlyReplies_still hdeployed
    Host.onlyReplies_still (Simulation.looksEmpty_new hvacant)
  obtain ⟨t, hrestored, hbehaves⟩ := hresumes saved rfl
  have hcommands : deployed.snapshot.map Snapshot.commands = .ok [.attack attack {}] := by
    decide +kernel
  rw [hsaved] at hcommands
  exact ⟨saved, t, hsaved, Except.ok.inj hcommands, hrestored, hbehaves⟩

end Skirmish

end Orrery
