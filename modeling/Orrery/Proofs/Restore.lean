import Orrery.Proofs.Entities
import Orrery.Proofs.Operation
import Orrery.Simulation

/-!
# Restoring a snapshot

What a snapshot is rebuilt into (`Tracker.addAll_eq_ok_iff`, `Entities.addAll_eq_ok_iff`,
`Schedule.addAll_eq_ok_iff`), when a simulation takes one over (`Simulation.restore_eq_ok_iff`), and
that a simulation which refuses one keeps all that it holds (`Simulation.restore_of_error`).

A simulation looks empty if it has no positions and no entities.  It may still have commands, since
a command can be scheduled before there are the entities that it acts on, and these are lost when a
snapshot is taken over.  Apart from that restoring is safe (`Simulation.restoresSafely_iff`).
-/

namespace Orrery

variable {κ ε : Type}

/-! ### Rebuilding -/

/-- Positions are rebuilt one after the other, and only if all of them have valid rules.  That no
identity repeats is part of there being such a table. -/
theorem Tracker.addAll_eq_ok_iff {slots slots' : Table PositionId Tracked} {items : List Tracked} :
    addAll slots items = .ok slots' ↔
      (∀ slot ∈ items, slot.position.rule.validate = .ok ()) ∧
      slots'.entries = slots.entries ++ items.map fun slot => (slot.position.id, slot) := by
  induction items generalizing slots with
  | nil =>
    simp only [addAll, Except.ok.injEq, List.map_nil, List.append_nil, List.not_mem_nil,
      false_implies, implies_true, true_and]
    exact ⟨fun h => h ▸ rfl, fun h => (Table.ext_entries h).symm⟩
  | cons slot rest ih =>
    cases hvalid : slot.position.rule.validate with
    | error f => simp [addAll, hvalid, bind, Except.bind, throw, throwThe, MonadExceptOf.throw]
    | ok u =>
      cases hget : slots.get? slot.position.id with
      | none =>
        have hstep : addAll slots (slot :: rest) =
            addAll (slots.insert slot.position.id slot) rest := by
          simp [addAll, hvalid, Table.contains_eq_false_iff.mpr hget]
        rw [hstep, ih, Table.insert_of_get?_none hget, List.append_assoc]
        simp [hvalid]
      | some old =>
        -- an identity that is taken is refused, and no table has it twice
        have hstep : addAll slots (slot :: rest) = .error (.alreadyTracked slot.position.id) := by
          have hcontains : slots.contains slot.position.id = true :=
            Table.contains_iff.mpr (by rw [hget]; rfl)
          simp [addAll, hvalid, hcontains, bind, Except.bind, throw, throwThe, MonadExceptOf.throw]
        rw [hstep]
        refine ⟨by rintro ⟨⟩, ?_⟩
        rintro ⟨-, h⟩
        rw [List.map_cons] at h
        rw [Table.get?_eq_none_of_append h] at hget
        cases hget

theorem Entities.add_eq_ok_iff {es es' : Entities} {e : Entity} :
    es.add e = .ok es' ↔ es'.table.entries = es.table.entries ++ [(e.id, e)] := by
  constructor
  · intro h
    have hfree : es.table.get? e.id = none := (get?_of_add h).1
    unfold add at h
    rw [if_neg (by simpa [contains] using Table.contains_eq_false_iff.mpr hfree)] at h
    cases h
    exact Table.insert_of_get?_none hfree
  · intro h
    have hfree : es.table.get? e.id = none := Table.get?_eq_none_of_append h
    unfold add
    rw [if_neg (by simpa [contains] using Table.contains_eq_false_iff.mpr hfree)]
    refine congrArg (Except.ok ∘ Entities.mk) (Table.ext_entries ?_)
    rw [h, Table.insert_of_get?_none hfree]

/-- Entities are rebuilt one after the other, if no name repeats. -/
theorem Entities.addAll_eq_ok_iff {es es' : Entities} {items : List Entity} :
    es.addAll items = .ok es' ↔
      es'.table.entries = es.table.entries ++ items.map fun e => (e.id, e) := by
  induction items generalizing es with
  | nil =>
    simp only [addAll, Except.ok.injEq, List.map_nil, List.append_nil]
    exact ⟨fun h => h ▸ rfl, fun h => congrArg Entities.mk (Table.ext_entries h).symm⟩
  | cons e rest ih =>
    cases hadd : es.add e with
    | ok added =>
      have hstep : es.addAll (e :: rest) = added.addAll rest := by
        simp [addAll, hadd, bind, Except.bind]
      rw [hstep, ih, add_eq_ok_iff.mp hadd, List.append_assoc]
      rfl
    | error err =>
      have hstep : es.addAll (e :: rest) = .error err := by
        simp [addAll, hadd, bind, Except.bind]
      rw [hstep]
      refine ⟨by rintro ⟨⟩, fun h => ?_⟩
      rw [List.map_cons] at h
      have hfree := Table.get?_eq_none_of_append h
      unfold add at hadd
      rw [if_neg (by simpa [contains] using Table.contains_eq_false_iff.mpr hfree)] at hadd
      cases hadd

theorem Schedule.add_eq_ok_iff {s s' : Schedule κ} {c : Command κ} :
    s.add c = .ok s' ↔ s'.commands = s.commands ++ [c] := by
  unfold add
  split
  · next h =>
    refine ⟨by rintro ⟨⟩, fun h' => ?_⟩
    have hnodup := s'.distinct
    rw [h', List.map_append, List.nodup_append] at hnodup
    simp only [contains, List.any_eq_true, decide_eq_true_eq] at h
    obtain ⟨d, hd, hid⟩ := h
    exact absurd hid (hnodup.2.2 _ (List.mem_map_of_mem hd) _ (by simp))
  · simp only [Except.ok.injEq]
    exact ⟨fun h => h ▸ rfl, fun h => Schedule.ext h.symm⟩

/-- Commands are rebuilt one after the other, if no name repeats. -/
theorem Schedule.addAll_eq_ok_iff {s s' : Schedule κ} {cs : List (Command κ)} :
    s.addAll cs = .ok s' ↔ s'.commands = s.commands ++ cs := by
  induction cs generalizing s with
  | nil =>
    simp only [addAll, Except.ok.injEq, List.append_nil]
    exact ⟨fun h => h ▸ rfl, fun h => Schedule.ext h.symm⟩
  | cons c rest ih =>
    cases hadd : s.add c with
    | ok added =>
      have hstep : s.addAll (c :: rest) = added.addAll rest := by
        simp [addAll, hadd, bind, Except.bind]
      rw [hstep, ih, add_eq_ok_iff.mp hadd, List.append_assoc, List.singleton_append]
    | error err =>
      have hstep : s.addAll (c :: rest) = .error err := by
        simp [addAll, hadd, bind, Except.bind]
      rw [hstep]
      refine ⟨by rintro ⟨⟩, fun h => ?_⟩
      -- the first commands of the new schedule would be a schedule as well
      have hnodup := s'.distinct
      rw [h, List.append_cons, List.map_append, List.nodup_append] at hnodup
      have hfirst : s.add c = .ok ⟨s.commands ++ [c], hnodup.1⟩ := add_eq_ok_iff.mpr rfl
      rw [hfirst] at hadd
      cases hadd

/-! ### Snapshots that can be taken over -/

/-- The name of a command. -/
def CommandRecord.id : CommandRecord → CommandId
  | attack a _ => a.commandId
  | mining m _ => m.commandId

theorem CommandRecord.id_command (r : CommandRecord) : (r.command : Command κ).id = r.id := by
  cases r <;> rfl

/-- All rules are valid, and no identity repeats. -/
structure Snapshot.IsSound (s : Snapshot) : Prop where
  /-- The rules of the positions are valid. -/
  rules : ∀ slot ∈ s.positions, slot.position.rule.validate = .ok ()
  /-- No two positions have the same identity. -/
  positions : (s.positions.map (·.position.id)).Nodup
  /-- No two entities have the same name. -/
  entities : (s.entities.map Entity.id).Nodup
  /-- No two commands have the same name. -/
  commands : (s.commands.map CommandRecord.id).Nodup

/-- What a world holds is what a snapshot says. -/
structure World.Holds (w : World κ ε) (s : Snapshot) : Prop where
  /-- The tracked positions are those of the snapshot. -/
  positions : w.tracker.slots.entries = s.positions.map fun slot => (slot.position.id, slot)
  /-- The entities are those of the snapshot. -/
  entities : w.registry.entities.table.entries = s.entities.map fun e => (e.id, e)
  /-- The commands are those of the snapshot. -/
  commands : w.registry.schedule.commands = s.commands.map CommandRecord.command

theorem Tracker.restore_eq_ok_iff {t t' : Tracker} {items : List Tracked} :
    t.restore items = .ok t' ↔
      t.poisoned = false ∧ (∀ slot ∈ items, slot.position.rule.validate = .ok ()) ∧
      t'.poisoned = false ∧ t'.slots.entries = items.map fun slot => (slot.position.id, slot) := by
  obtain ⟨slots', poisoned'⟩ := t'
  obtain ⟨slots, poisoned⟩ := t
  have hadd : addAll {} items = .ok slots' ↔ _ := addAll_eq_ok_iff
  rw [List.nil_append] at hadd
  cases hrebuilt : addAll {} items with
  | error e =>
    -- nothing that the rules and identities allow is refused
    simp only [restore, hrebuilt, bind, Except.bind]
    refine ⟨by rintro ⟨⟩, ?_⟩
    rintro ⟨-, hrules, -, hentries⟩
    rw [hadd.mpr ⟨hrules, hentries⟩] at hrebuilt
    cases hrebuilt
  | ok rebuilt =>
    rw [hrebuilt, Except.ok.injEq] at hadd
    cases poisoned with
    | true => simp [restore, hrebuilt, open?, bind, Except.bind]
    | false =>
      simp only [restore, hrebuilt, open?, bind, Except.bind, pure, Except.pure, Bool.false_eq_true,
        ↓reduceIte, Except.ok.injEq, Tracker.mk.injEq, hadd, true_and]
      tauto

theorem Registry.restore_eq_ok_iff {r r' : Registry κ} {entities : List Entity}
    {commands : List CommandRecord} :
    r.restore entities commands = .ok r' ↔
      r.poisoned = false ∧ r'.poisoned = false ∧
      r'.entities.table.entries = entities.map (fun e => (e.id, e)) ∧
      r'.schedule.commands = commands.map CommandRecord.command := by
  obtain ⟨es', schedule', poisoned'⟩ := r'
  obtain ⟨es, schedule, poisoned⟩ := r
  have hadd : ({} : Entities).addAll entities = .ok es' ↔ _ := Entities.addAll_eq_ok_iff
  have hschedule :
    ({} : Schedule κ).addAll (commands.map CommandRecord.command) = .ok schedule' ↔ _ :=
      Schedule.addAll_eq_ok_iff
  rw [List.nil_append] at hadd hschedule
  cases hes : ({} : Entities).addAll entities with
  | error e =>
    simp only [restore, hes, bind, Except.bind]
    refine ⟨by rintro ⟨⟩, ?_⟩
    rintro ⟨-, -, hentries, -⟩
    rw [hadd.mpr hentries] at hes
    cases hes
  | ok rebuilt =>
    rw [hes, Except.ok.injEq] at hadd
    cases hcs : ({} : Schedule κ).addAll (commands.map CommandRecord.command) with
    | error e =>
      simp only [restore, hes, hcs, bind, Except.bind]
      refine ⟨by rintro ⟨⟩, ?_⟩
      rintro ⟨-, -, -, hcommands⟩
      rw [hschedule.mpr hcommands] at hcs
      cases hcs
    | ok scheduled =>
      rw [hcs, Except.ok.injEq] at hschedule
      cases poisoned with
      | true => simp [restore, hes, hcs, check, bind, Except.bind]
      | false =>
        simp only [restore, hes, hcs, check, bind, Except.bind, pure, Except.pure,
          Bool.false_eq_true, ↓reduceIte, Except.ok.injEq, Registry.mk.injEq, hadd, hschedule,
          true_and]
        tauto

/-- A world takes a sound snapshot over, unless something broke off half-way before, and then holds
what the snapshot says. -/
theorem World.restore_eq_ok_iff {w w' : World κ ε} {s : Snapshot} :
    w.restore s = (.ok (), w') ↔
      w.tracker.poisoned = false ∧ w.registry.poisoned = false ∧
      (∀ slot ∈ s.positions, slot.position.rule.validate = .ok ()) ∧
      w'.tracker.poisoned = false ∧ w'.registry.poisoned = false ∧ w'.outside = w.outside ∧
      w'.Holds s := by
  obtain ⟨tracker', registry', outside'⟩ := w'
  have htracker : w.tracker.restore s.positions = .ok tracker' ↔ _ := Tracker.restore_eq_ok_iff
  have hregistry : w.registry.restore s.entities s.commands = .ok registry' ↔ _ :=
    Registry.restore_eq_ok_iff
  -- what each side is restored to is determined, so both have to be restored
  constructor
  · intro h
    unfold restore at h
    split at h
    · cases h
    · next tracker hrestored =>
      split at h
      · next registry hregistered =>
        cases h
        obtain ⟨h1, h2, h3, h4⟩ := htracker.mp hrestored
        obtain ⟨h5, h6, h7, h8⟩ := hregistry.mp hregistered
        exact ⟨h1, h5, h2, h3, h6, rfl, h4, h7, h8⟩
      · split at h <;> cases h
  · rintro ⟨h1, h5, h2, h3, h6, rfl, h4, h7, h8⟩
    unfold restore
    rw [htracker.mpr ⟨h1, h2, h3, h4⟩]
    simp only []
    rw [hregistry.mpr ⟨h5, h6, h7, h8⟩]

/-- A world without positions that refuses a snapshot is as it was before. -/
theorem World.restore_of_error {w : World κ ε} {s : Snapshot} {e : SnapshotError}
    (hempty : w.tracker.poisoned = true ∨ w.tracker.slots.entries = [])
    (h : (w.restore s).1 = .error e) : (w.restore s).2 = w := by
  unfold restore at h ⊢
  cases htracker : w.tracker.restore s.positions with
  | error e => rfl
  | ok tracker =>
    obtain ⟨hintact, -, hpoisoned, -⟩ := Tracker.restore_eq_ok_iff.mp htracker
    have hslots : w.tracker.slots.entries = [] := hempty.resolve_left (by simp [hintact])
    -- positions that were taken over before the registry refused are given up again
    have hcleared : tracker.restore [] = .ok w.tracker :=
      Tracker.restore_eq_ok_iff.mpr ⟨hpoisoned, by simp, hintact, hslots⟩
    simp only [htracker] at h ⊢
    cases hregistry : w.registry.restore s.entities s.commands with
    | ok registry =>
      rw [hregistry] at h
      cases h
    | error e => simp only [hcleared]

/-! ### Simulations -/

namespace Simulation

/-- A simulation to which a snapshot can be restored: it is stopped, nothing broke off half-way, and
it has no positions and no entities. -/
structure LooksEmpty (s : Simulation κ ε) : Prop where
  /-- No tickers run. -/
  stopped : s.isRunning = false
  /-- The tracked positions can be trusted. -/
  tracker : s.world.tracker.poisoned = false
  /-- The registry can be trusted. -/
  registry : s.world.registry.poisoned = false
  /-- Nothing is tracked. -/
  positions : s.world.tracker.slots.entries = []
  /-- There is no entity. -/
  entities : s.world.registry.entities.table.entries = []

end Simulation

theorem Tracker.isEmpty_iff {t : Tracker} :
    t.isEmpty = true ↔ t.poisoned = true ∨ t.slots.entries = [] := by
  cases h : t.poisoned <;> simp [isEmpty, size, Table.size, h]

theorem Registry.isEmpty_iff {r : Registry κ} :
    r.isEmpty = true ↔ r.poisoned = true ∨ r.entities.table.entries = [] := by
  cases h : r.poisoned <;> simp [isEmpty, size, Table.size, h]

/-- What a world holds determines a sound snapshot. -/
theorem World.Holds.isSound {w : World κ ε} {s : Snapshot} (h : w.Holds s)
    (hrules : ∀ slot ∈ s.positions, slot.position.rule.validate = .ok ()) : s.IsSound where
  rules := hrules
  positions := by simpa [h.positions, Function.comp_def] using w.tracker.slots.nodup
  entities := by simpa [h.entities, Function.comp_def] using w.registry.entities.table.nodup
  commands := by
    simpa [h.commands, Function.comp_def, CommandRecord.id_command] using
      w.registry.schedule.distinct

/-- Some world holds what a sound snapshot says. -/
theorem Snapshot.IsSound.exists_holds {s : Snapshot} (h : s.IsSound) (outside : ε) :
    ∃ w : World κ ε, w.tracker.poisoned = false ∧ w.registry.poisoned = false ∧
      w.outside = outside ∧ w.Holds s := by
  let tracker : Tracker :=
    { slots :=
        { entries := s.positions.map fun slot => (slot.position.id, slot)
          nodup := by simpa [Function.comp_def] using h.positions } }
  let registry : Registry κ :=
    { entities :=
        ⟨{ entries := s.entities.map fun e => (e.id, e)
           nodup := by simpa [Function.comp_def] using h.entities }⟩
      schedule :=
        { commands := s.commands.map CommandRecord.command
          distinct := by simpa [Function.comp_def, CommandRecord.id_command] using h.commands } }
  exact ⟨⟨tracker, registry, outside⟩, rfl, rfl, rfl, rfl, rfl, rfl⟩

namespace Simulation

/-- A simulation that is running or does not even look empty refuses every snapshot; otherwise its
world decides. -/
theorem restore_cases (s : Simulation κ ε) (snapshot : Snapshot) :
    ((∃ e, s.restore snapshot = (.error e, s)) ∧
      ¬ (s.isRunning = false ∧ s.world.tracker.isEmpty = true ∧ s.world.registry.isEmpty = true)) ∨
    (s.restore snapshot =
        ((s.world.restore snapshot).1, { s with world := (s.world.restore snapshot).2 }) ∧
      s.isRunning = false ∧ s.world.tracker.isEmpty = true ∧ s.world.registry.isEmpty = true) := by
  unfold restore
  cases hrunning : s.isRunning <;> cases htracker : s.world.tracker.isEmpty <;>
    cases hregistry : s.world.registry.isEmpty <;> simp

/-- Exactly the sound snapshots are taken over, and by a simulation that looks empty. -/
theorem restore_eq_ok_iff {s : Simulation κ ε} {snapshot : Snapshot} :
    (s.restore snapshot).1 = .ok () ↔ s.LooksEmpty ∧ snapshot.IsSound := by
  have hworld : ∀ w', s.world.restore snapshot = (.ok (), w') ↔ _ :=
    fun _ => World.restore_eq_ok_iff
  rcases s.restore_cases snapshot with ⟨⟨e, h⟩, hbusy⟩ | ⟨h, hstopped, htracker, hregistry⟩
  · rw [h]
    refine ⟨by rintro ⟨⟩, fun h => absurd ⟨h.1.stopped, ?_, ?_⟩ hbusy⟩
    · exact Tracker.isEmpty_iff.mpr (.inr h.1.positions)
    · exact Registry.isEmpty_iff.mpr (.inr h.1.entities)
  · rw [h]
    constructor
    · intro hok
      obtain ⟨hintact, hintact', hrules, -, -, -, hholds⟩ :=
        (hworld (s.world.restore snapshot).2).mp (Prod.ext hok rfl)
      exact ⟨⟨hstopped, hintact, hintact',
        (Tracker.isEmpty_iff.mp htracker).resolve_left (by simp [hintact]),
        (Registry.isEmpty_iff.mp hregistry).resolve_left (by simp [hintact'])⟩,
        hholds.isSound hrules⟩
    · rintro ⟨hempty, hsound⟩
      obtain ⟨w', hpoisoned, hpoisoned', houtside, hholds⟩ := hsound.exists_holds s.world.outside
      exact congrArg Prod.fst ((hworld w').mpr
        ⟨hempty.tracker, hempty.registry, hsound.rules, hpoisoned, hpoisoned', houtside, hholds⟩)

/-- A simulation that refuses a snapshot is as it was before. -/
theorem restore_of_error {s : Simulation κ ε} {snapshot : Snapshot} {e : SnapshotError}
    (h : (s.restore snapshot).1 = .error e) : (s.restore snapshot).2 = s := by
  rcases s.restore_cases snapshot with ⟨⟨e', hrefused⟩, -⟩ | ⟨hworld, -, htracker, -⟩
  · rw [hrefused]
  · rw [hworld] at h ⊢
    rw [World.restore_of_error (Tracker.isEmpty_iff.mp htracker) h]

/-- A restore is safe: the snapshot is taken over only by a simulation that is stopped and holds
nothing, and if it is refused, everything that the simulation holds stays as it was. -/
structure RestoresSafely (s : Simulation κ ε) (snapshot : Snapshot) : Prop where
  /-- Nothing can be lost. -/
  accepted : (s.restore snapshot).1 = .ok () →
    s.isRunning = false ∧ s.world.tracker.slots.entries = [] ∧
      s.world.registry.entities.table.entries = [] ∧ s.world.registry.schedule.commands = []
  /-- Nothing changes. -/
  refused : ∀ e, (s.restore snapshot).1 = .error e →
    (s.restore snapshot).2.world.tracker.slots = s.world.tracker.slots ∧
      (s.restore snapshot).2.world.registry.entities = s.world.registry.entities ∧
      (s.restore snapshot).2.world.registry.schedule = s.world.registry.schedule

/-- A restore is safe unless commands are scheduled in a simulation that looks empty, and the
snapshot is sound: then these commands are lost. -/
theorem restoresSafely_iff (s : Simulation κ ε) (snapshot : Snapshot) :
    s.RestoresSafely snapshot ↔
      ¬ (s.LooksEmpty ∧ snapshot.IsSound ∧ s.world.registry.schedule.commands ≠ []) := by
  constructor
  · rintro hsafe ⟨hempty, hsound, hcommands⟩
    exact hcommands (hsafe.accepted (restore_eq_ok_iff.mpr ⟨hempty, hsound⟩)).2.2.2
  · intro h
    refine ⟨fun hok => ?_, fun e herror => ?_⟩
    · obtain ⟨hempty, hsound⟩ := restore_eq_ok_iff.mp hok
      refine ⟨hempty.stopped, hempty.positions, hempty.entities, ?_⟩
      by_contra hcommands
      exact h ⟨hempty, hsound, hcommands⟩
    · rw [restore_of_error herror]
      exact ⟨rfl, rfl, rfl⟩

/-- A simulation in which an attack is scheduled before there are any ships. -/
def premature : Simulation Unit Unit where
  world := { registry := { schedule := Skirmish.onslaught }, outside := () }

/-- The attack is lost when an empty snapshot is taken over. -/
theorem restore_loses_commands :
    (premature.restore ⟨[], [], []⟩).1 = .ok () ∧
      premature.world.registry.schedule.commands ≠ [] ∧
      (premature.restore ⟨[], [], []⟩).2.world.registry.schedule.commands = [] ∧
      ¬ premature.RestoresSafely ⟨[], [], []⟩ := by
  refine ⟨rfl, by simp [premature, Skirmish.onslaught], rfl, fun hsafe => ?_⟩
  have hcommands := (hsafe.accepted rfl).2.2.2
  simp [premature, Skirmish.onslaught] at hcommands

end Simulation

end Orrery
