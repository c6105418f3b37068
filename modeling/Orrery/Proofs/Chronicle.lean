import Orrery.Proofs.Action

/-!
# The chronicle

Whatever commands do is noted as it happens: the beginning of each turn, and each hook with the
scene that it found and the one that it left.  So a property of a round is a property of the deeds
that the round adds to the chronicle.  A tick adds the turn of one command (`Command.after_tick`),
and a command that is stopped adds its last hook (`Command.after_halt`).
-/

namespace Orrery

/-- Whether the hook belongs to a turn that may go on, rather than to the end of the command. -/
def Stage.isOfTurn : Stage → Bool
  | setup | before | execute | after => true
  | teardown | stop => false

variable {κ ε : Type}

/-! ### Deeds -/

namespace Deed

/-- The command as it was. -/
def command : Deed κ → Command κ
  | turn c _ => c
  | hook c .. => c

/-- The name of the command. -/
def id (d : Deed κ) : CommandId := d.command.id

/-- The scene that it finds. -/
def found : Deed κ → Scene
  | turn _ found => found
  | hook _ _ _ found _ => found

/-- The scene that it leaves; the beginning of a turn changes nothing. -/
def left : Deed κ → Scene
  | turn _ found => found
  | hook _ _ _ _ left => left

/-- The command whose turn begins. -/
def turnOf? : Deed κ → Option CommandId
  | turn c _ => some c.id
  | hook .. => none

/-- The hook that is run. -/
def stage? : Deed κ → Option Stage
  | turn .. => none
  | hook _ stage .. => some stage

/-- The entities on which the hook asks that commands be stopped. -/
def requests : Deed κ → List EntityId
  | turn .. => []
  | hook _ _ _ _ left => left.stopRequests

end Deed

/-- The deeds of one command, in order. -/
def deedsOf (log : List (Deed κ)) (id : CommandId) : List (Deed κ) := log.filter (·.id = id)

/-- The commands whose turns begin, in order. -/
def turnsOf (log : List (Deed κ)) : List CommandId := log.filterMap Deed.turnOf?

/-- Deeds that make up one turn of a command which goes on: the turn begins, and then only hooks are
run that do not end it. -/
def IsTurn (ds : List (Deed κ)) : Prop :=
  ∃ c found hooks, ds = .turn c found :: hooks ∧
    ∀ d ∈ hooks, ∃ stage : Stage, d.stage? = some stage ∧ stage.isOfTurn = true

/-- What becomes of a command in a round. -/
inductive Fate where
  /-- It stays on the schedule. -/
  | kept
  /-- It is over. -/
  | finished
  /-- It is stopped from outside. -/
  | stopped

/-- The deeds that go with a fate.  A command that stays has one turn; one that is over has one
turn, which ends with `teardown`; one that is stopped runs `stop` and nothing after it, and has had
one turn before or none. -/
def Fate.Fits : Fate → List (Deed κ) → Prop
  | kept, ds => IsTurn ds
  | finished, ds => ∃ turn last, ds = turn ++ [last] ∧ IsTurn turn ∧ last.stage? = some .teardown
  | stopped, ds =>
    ∃ turn last, ds = turn ++ [last] ∧ (turn = [] ∨ IsTurn turn) ∧ last.stage? = some .stop

theorem deedsOf_append (log ds : List (Deed κ)) (id : CommandId) :
    deedsOf (log ++ ds) id = deedsOf log id ++ deedsOf ds id := List.filter_append ..

/-- Of the deeds of one command, all are its own. -/
theorem deedsOf_self {ds : List (Deed κ)} {id : CommandId} (h : ∀ d ∈ ds, d.id = id) :
    deedsOf ds id = ds := List.filter_eq_self.mpr fun d hd => by simpa using h d hd

/-- Of the deeds of one command, none is another one's. -/
theorem deedsOf_of_ne {ds : List (Deed κ)} {id other : CommandId} (h : ∀ d ∈ ds, d.id = id)
    (hne : other ≠ id) : deedsOf ds other = [] :=
  List.filter_eq_nil_iff.mpr fun d hd => by
    have hid := h d hd
    simp only [decide_eq_true_eq]
    rintro rfl
    exact hne hid

theorem turnsOf_append (log ds : List (Deed κ)) : turnsOf (log ++ ds) = turnsOf log ++ turnsOf ds :=
  List.filterMap_append ..

theorem turnsOf_eq_nil {ds : List (Deed κ)} (h : ∀ d ∈ ds, ∃ stage, d.stage? = some stage) :
    turnsOf ds = [] := by
  rw [turnsOf, List.filterMap_eq_nil_iff]
  intro d hd
  obtain ⟨stage, hstage⟩ := h d hd
  cases d with
  | turn => cases hstage
  | hook => rfl

theorem IsTurn.turnsOf_eq {ds : List (Deed κ)} {id : CommandId} (h : IsTurn ds)
    (hid : ∀ d ∈ ds, d.id = id) : turnsOf ds = [id] := by
  obtain ⟨c, found, hooks, rfl, hhooks⟩ := h
  have hc : c.id = id := hid _ (List.mem_cons_self ..)
  have hrest : turnsOf hooks = [] :=
    turnsOf_eq_nil fun d hd => (hhooks d hd).imp fun _ h => h.1
  rw [turnsOf, List.filterMap_cons, ← turnsOf, hrest]
  simp [Deed.turnOf?, hc]

/-! ### Settings -/

namespace Setting

/-- A setting after some deeds: they have been noted, and the requests of their hooks queue up
behind those that were still to be met. -/
structure After (s : Setting κ ε) (ds : List (Deed κ)) (s' : Setting κ ε) : Prop where
  /-- Time does not pass. -/
  now : s'.now = s.now
  /-- The deeds are noted. -/
  chronicle : s'.chronicle = s.chronicle ++ ds
  /-- Their requests are queued. -/
  stopRequests : s'.stopRequests = s.stopRequests ++ ds.flatMap Deed.requests

theorem After.trans {s s' s'' : Setting κ ε} {ds ds' : List (Deed κ)} (h : s.After ds s')
    (h' : s'.After ds' s'') : s.After (ds ++ ds') s'' where
  now := h'.now.trans h.now
  chronicle := by rw [h'.chronicle, h.chronicle, List.append_assoc]
  stopRequests := by
    rw [h'.stopRequests, h.stopRequests, List.flatMap_append, List.append_assoc]

theorem after_note_turn (s : Setting κ ε) (c : Command κ) (found : Scene) :
    s.After [.turn c found] (s.note (.turn c found)) where
  now := rfl
  chronicle := rfl
  stopRequests := by simp [note, Deed.requests]

end Setting

/-! ### Hooks and ticks -/

namespace Command

variable (host : CommandHost κ ε)

/-- A hook changes neither the name of its command nor the entities that it acts on. -/
theorem run_id_concerns (stage : Stage) (c : Command κ) (s : Setting κ ε) :
    (c.run host stage s).2.1.id = c.id ∧ (c.run host stage s).2.1.concerns = c.concerns := by
  obtain ⟨progress, task⟩ := c
  cases task <;> exact ⟨rfl, rfl⟩

/-- A hook adds itself to the chronicle. -/
theorem after_run (stage : Stage) (c : Command κ) (s : Setting κ ε) :
    s.After [.hook c stage (c.hook host stage s.scene s.outside).1 s.scene
      (c.hook host stage s.scene s.outside).2.2.1] (c.run host stage s).2.2 where
  now := rfl
  chronicle := rfl
  stopRequests := by simp [run, Setting.resume, Setting.note, Deed.requests]

/-- A command that is stopped adds its last hook to the chronicle. -/
theorem after_halt (c : Command κ) (s : Setting κ ε) :
    ∃ outcome left, s.After [.hook c .stop outcome s.scene left] (c.halt host s) :=
  ⟨_, _, after_run host .stop c s⟩

/-- What has been reached in the midst of a tick of command `c`. -/
structure TurnSoFar (c : Command κ) (s : Setting κ ε) (p : Performance κ ε) : Prop where
  /-- The command keeps its name. -/
  id : p.command.id = c.id
  /-- It acts on the entities that it did. -/
  concerns : p.command.concerns = c.concerns
  /-- So far there is a turn of it. -/
  deeds : ∃ ds, s.After ds p.setting ∧ (∀ d ∈ ds, d.id = c.id) ∧ IsTurn ds

variable {host}

theorem keeps_perform {c : Command κ} {s : Setting κ ε} {stage : Stage}
    (hstage : stage.isOfTurn = true) :
    Keeps (TurnSoFar c s) (Performance.perform host stage) := by
  intro p hp
  obtain ⟨ds, hafter, hids, c', found, hooks, hds, hhooks⟩ := hp.deeds
  have hrun := after_run host stage p.command p.setting
  obtain ⟨hid, hconcerns⟩ := run_id_concerns host stage p.command p.setting
  refine ⟨hid.trans hp.id, hconcerns.trans hp.concerns, _, hafter.trans hrun, ?_, ?_⟩
  · intro d hd
    rcases List.mem_append.mp hd with hd | hd
    · exact hids d hd
    · rw [List.mem_singleton.mp hd]
      exact hp.id
  · subst hds
    refine ⟨c', found, _, List.cons_append .., ?_⟩
    intro d hd
    rcases List.mem_append.mp hd with hd | hd
    · exact hhooks d hd
    · rw [List.mem_singleton.mp hd]
      exact ⟨stage, rfl, hstage⟩

variable (host)

/-- A tick adds one turn of its command to the chronicle, and `teardown` at the end of it if the
command is over. -/
theorem after_tick (c : Command κ) (s : Setting κ ε) :
    (c.tick host s).2.1.id = c.id ∧ (c.tick host s).2.1.concerns = c.concerns ∧
    ∃ ds, s.After ds (c.tick host s).2.2 ∧ (∀ d ∈ ds, d.id = c.id) ∧
      turnsOf ds = [c.id] ∧
      Fate.Fits (if (c.tick host s).1.removed then .finished else .kept) ds := by
  -- the invariant holds when the turn has been noted, and every stage keeps it
  have hstart : TurnSoFar c s (c.start s) :=
    { id := rfl
      concerns := rfl
      deeds := ⟨_, s.after_note_turn c s.scene, by simp [Deed.id, Deed.command],
        c, s.scene, [], rfl, by simp⟩ }
  obtain ⟨hid, hconcerns, ds, hafter, hids, hturn⟩ :=
    performance_of_stages host
      (Performance.keeps_setUp (keeps_perform rfl) (fun _ hp => ⟨hp.id, hp.concerns, hp.deeds⟩) _
        hstart)
      (keeps_perform rfl)
      (Performance.keeps_execute (keeps_perform rfl) (fun _ hp => ⟨hp.id, hp.concerns, hp.deeds⟩)
        fun _ hp => ⟨hp.id, hp.concerns, hp.deeds⟩)
      (keeps_perform rfl)
  cases hover : (c.performance host s).command.isOver host (c.performance host s).setting with
  | false =>
    obtain ⟨hremoved, htick⟩ := tick_of_not_isOver host hover
    rw [htick, hremoved]
    exact ⟨hid, hconcerns, ds, hafter, hids, hturn.turnsOf_eq hids, hturn⟩
  | true =>
    obtain ⟨hremoved, htick⟩ := tick_of_isOver host hover
    -- one more hook follows, and then nothing
    have hrun :=
      after_run host .teardown (c.performance host s).command (c.performance host s).setting
    obtain ⟨hid', hconcerns'⟩ :=
      run_id_concerns host .teardown (c.performance host s).command (c.performance host s).setting
    rw [htick, hremoved]
    refine ⟨hid'.trans hid, hconcerns'.trans hconcerns, _, hafter.trans hrun, ?_, ?_, ?_⟩
    · intro d hd
      rcases List.mem_append.mp hd with hd | hd
      · exact hids d hd
      · rw [List.mem_singleton.mp hd]
        exact hid
    · rw [turnsOf_append, hturn.turnsOf_eq hids]
      rfl
    · exact ⟨ds, _, rfl, hturn, rfl⟩

end Command

end Orrery
