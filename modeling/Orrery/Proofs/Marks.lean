import Orrery.Proofs.Activity
import Orrery.Proofs.Operation
import Orrery.Proofs.Round

/-!
# Marks and the schedule

A ship is marked with what it attacks or mines if and only if the schedule has a command of it that
is set up and does just that.  The mark and the schedule are separate pieces of state.  That they
agree (`Matching`) is an invariant of every tick, stop and removal, since a name tells what a
command does and who does it.

A round moreover leaves no command behind that cannot go on: a command that has had its turn is
sound, and whenever a ship is destroyed every command that acts on it is stopped
(`Session.tick_sound`).
-/

namespace Orrery

variable {κ ε : Type}

/-- The target of a command that is set up. -/
def Command.target? (c : Command κ) : Option EntityId :=
  if c.progress.isSetUp then c.task.drives?.map (·.2.2) else none

/-- What the schedule has an actor do. -/
def Schedule.target? (s : Schedule κ) (k : Activity) (actor : EntityId) : Option EntityId :=
  (s.get? (.forEntity k.sort actor)).bind Command.target?

/-- Marks agree with the schedule. -/
def Matching (o : EntityId → Option Outline) (s : Schedule κ) : Prop :=
  ∀ k id, k.mark? o id = s.target? k id

section Steps

variable {o o' : EntityId → Option Outline} {s : Schedule κ} {c : Command κ} {k : Activity}
  {actor target : EntityId}

theorem Command.target?_of_drives (h : c.task.drives? = some (k, actor, target)) :
    c.target? = if c.progress.isSetUp then some target else none := by
  rw [target?, h]
  rfl

/-- The mark of the actor of a command is that of the command. -/
theorem Matching.mark?_of_mem (hm : Matching o s) (hc : c ∈ s.commands)
    (h : c.task.drives? = some (k, actor, target)) :
    k.mark? o actor = if c.progress.isSetUp then some target else none := by
  have hget : s.get? (.forEntity k.sort actor) = some c :=
    Schedule.get?_eq_some_iff.mpr ⟨hc, Command.id_of_drives h⟩
  rw [hm, Schedule.target?, hget, ← Command.target?_of_drives h]
  rfl

/-- If a command leaves the schedule and the mark is taken off its actor, the others agree still. -/
theorem Matching.eraseAt (hm : Matching o s) {i : Nat} (hi : i < s.commands.length)
    (h : s.commands[i].task.drives? = some (k, actor, target))
    (hactor : k.mark? o' actor = none)
    (hother : ∀ k' id, ¬ (k' = k ∧ id = actor) → k'.mark? o' id = k'.mark? o id) :
    Matching o' (s.eraseAt i) := by
  intro k' id
  unfold Schedule.target?
  rw [s.get?_eraseAt hi, Command.id_of_drives h]
  split
  · next hid =>
    obtain ⟨rfl, rfl⟩ := Activity.forEntity_injective hid
    exact hactor
  · next hid =>
    have hne : ¬ (k' = k ∧ id = actor) := by
      rintro ⟨rfl, rfl⟩
      exact hid rfl
    rw [hother k' id hne]
    exact hm k' id

/-- If a command takes the place of another one of its name and its actor is marked accordingly, the
others agree still. -/
theorem Matching.put (hm : Matching o s) {c' : Command κ} (hc : c ∈ s.commands)
    (h : c.task.drives? = some (k, actor, target)) (htask : c'.task = c.task)
    (hactor : k.mark? o' actor = if c'.progress.isSetUp then some target else none)
    (hother : ∀ k' id, ¬ (k' = k ∧ id = actor) → k'.mark? o' id = k'.mark? o id) :
    Matching o' (s.put c') := by
  have h' : c'.task.drives? = some (k, actor, target) := by rw [htask, h]
  have hget : s.get? (.forEntity k.sort actor) = some c :=
    Schedule.get?_eq_some_iff.mpr ⟨hc, Command.id_of_drives h⟩
  intro k' id
  unfold Schedule.target?
  rw [s.get?_put, Command.id_of_drives h']
  split
  · next hid =>
    obtain ⟨rfl, rfl⟩ := Activity.forEntity_injective hid
    rw [hget, hactor, ← Command.target?_of_drives h']
    rfl
  · next hid =>
    have hne : ¬ (k' = k ∧ id = actor) := by
      rintro ⟨rfl, rfl⟩
      exact hid rfl
    rw [hother k' id hne]
    exact hm k' id

end Steps

/-! ### Soundness -/

/-- Soundness depends on which ships are alive and which deposits are there, not on marks. -/
theorem Command.IsSound.of_turn {c : Command κ} {o : EntityId → Option Outline} (h : c.IsSound o)
    (cond : Bool) (k : Activity) (actor : EntityId) (target : Option EntityId) :
    c.IsSound (reviseIf cond actor (k.turn target) o) := by
  intro k' actor' target' hdrives
  rw [any_reviseIf (Activity.isLive_turn k target),
    any_reviseIf (Activity.accepts_turn k k' target)]
  exact h k' actor' target' hdrives

/-- The destruction of a ship matters only to commands that act on it. -/
theorem Command.IsSound.of_destroy {c : Command κ} {o : EntityId → Option Outline} (h : c.IsSound o)
    {victim : EntityId} (hvictim : c.concerns victim = false) (cond : Bool) (id : EntityId) :
    c.IsSound (reviseIf cond victim (·.destroy id) o) := by
  intro k actor target hdrives
  rw [concerns_of_drives hdrives, Bool.or_eq_false_iff, beq_eq_false_iff_ne, beq_eq_false_iff_ne]
    at hvictim
  unfold reviseIf
  rw [if_neg fun hcond => hvictim.1 hcond.2.symm, if_neg fun hcond => hvictim.2 hcond.2.symm]
  exact h k actor target hdrives

/-! ### Sweeps -/

/-- What is true while requests are met: marks agree with the schedule, and the commands before the
cursor are sound, apart from those that act on a ship that was destroyed just now. -/
structure Sweep.Agrees (killed : Bool) (victim : EntityId) (w : Sweep κ ε) : Prop where
  /-- All commands are attacks or mining runs. -/
  builtIn : w.session.schedule.BuiltIn
  /-- Marks agree with the schedule. -/
  matching : Matching w.session.setting.entities.outline? w.session.schedule
  /-- The commands that have had their turn. -/
  sound : ∀ c ∈ w.commands.take w.cursor, c.IsSound w.session.setting.entities.outline? ∨
    (killed = true ∧ c.concerns victim = true)

theorem Sweep.Agrees.stopAt (host : CommandHost κ ε) {killed : Bool} {victim : EntityId}
    {w : Sweep κ ε} (hw : w.Agrees killed victim) (i : Nat) (hi : i < w.commands.length) :
    (w.stopAt host i w.commands[i]).Agrees killed victim := by
  obtain ⟨k, actor, target, hdrives⟩ := hw.builtIn _ (List.getElem_mem hi)
  have hout := Command.halt_drives host hdrives w.session.setting
  refine ⟨fun c hc => hw.builtIn c ((List.eraseIdx_sublist ..).subset hc), ?_, ?_⟩
  · refine hw.matching.eraseAt hi hdrives ?_ ?_
    · show k.mark? (w.commands[i].halt host w.session.setting).entities.outline? actor = none
      rw [hout]
      cases hmark : k.mark? w.session.setting.entities.outline? actor == some target with
      | true => exact Activity.mark?_reviseIf_none k actor _
      | false =>
        -- the mark of the actor is that of the command, so it is not set up
        have hsetup := hw.matching.mark?_of_mem (List.getElem_mem hi) hdrives
        rw [reviseIf_false, hsetup]
        cases hs : w.commands[i].progress.isSetUp with
        | true =>
          rw [hsetup] at hmark
          simp [hs] at hmark
        | false => rfl
    · intro k' id hne
      show k'.mark? (w.commands[i].halt host w.session.setting).entities.outline? id = _
      rw [hout, Activity.mark?_reviseIf_of_ne hne]
  · intro c hc
    -- a stop takes marks away, which soundness does not depend on
    have hbefore := (cut_eraseIdx w.commands i w.cursor).1.subset hc
    rcases hw.sound c hbefore with hsound | hvictim
    · left
      show c.IsSound (w.commands[i].halt host w.session.setting).entities.outline?
      rw [hout]
      exact hsound.of_turn _ _ _ _
    · exact .inr hvictim

theorem Sweep.Agrees.meetRequests (host : CommandHost κ ε) {killed : Bool} {victim : EntityId}
    {w : Sweep κ ε} (hw : w.Agrees killed victim) :
    (Sweep.meetRequests host w).Agrees killed victim :=
  keeps_meetRequests (P := (·.Agrees killed victim)) (fun _ i hi h => h.stopAt host i hi)
    (fun _ _ h => ⟨h.builtIn, h.matching, h.sound⟩) w hw

/-! ### Rounds -/

/-- What is true between two turns: marks agree with the schedule, and the commands that have had
their turn are sound. -/
structure Round.Agrees (r : Round κ ε) : Prop where
  /-- All commands are attacks or mining runs. -/
  builtIn : r.session.schedule.BuiltIn
  /-- Marks agree with the schedule. -/
  matching : Matching r.session.setting.entities.outline? r.session.schedule
  /-- The commands that have had their turn. -/
  sound : ∀ c ∈ r.commands.take r.cursor, c.IsSound r.session.setting.entities.outline?

namespace Round

variable {r : Round κ ε} {k : Activity} {actor target : EntityId} {outcome : TickOutcome}
  {c' : Command κ} {s' : Setting κ ε}

/-- Right after the tick of a command that is over. -/
theorem agrees_afterTick_of_ends (hr : r.Agrees) (h : r.cursor < r.commands.length)
    (hdrives : r.commands[r.cursor].task.drives? = some (k, actor, target))
    (hremoved : outcome.removed = true) {killed : Bool}
    (hends : Command.Ends k actor target r.session.setting s' killed) :
    (r.afterTick outcome c' s').Agrees killed target := by
  obtain ⟨engaged, hout⟩ := hends.outlines
  unfold afterTick
  rw [if_pos hremoved]
  refine ⟨fun c hc => hr.builtIn c ((List.eraseIdx_sublist ..).subset hc), ?_, ?_⟩
  · refine hr.matching.eraseAt h hdrives ?_ ?_
    · rw [hout]
      exact Activity.mark?_reviseIf_none k actor _
    · intro k' id hne
      rw [hout, Activity.mark?_reviseIf_of_ne hne, Activity.mark?_destroy,
        Activity.mark?_reviseIf_of_ne hne]
  · intro c hc
    have hbefore : c ∈ r.commands.take r.cursor := by
      rw [← List.take_eraseIdx_eq_take_of_le r.commands r.cursor r.cursor (Nat.le_refl _)]
      exact hc
    have hsound := (hr.sound c hbefore).of_turn engaged k actor target
    rw [hout]
    -- if the target was destroyed, what acts on it is no longer sound but about to be stopped
    cases killed with
    | false =>
      rw [reviseIf_false]
      exact .inl (hsound.of_turn _ _ _ _)
    | true =>
      cases hvictim : c.concerns target with
      | true => exact .inr ⟨rfl, rfl⟩
      | false => exact .inl ((hsound.of_destroy hvictim _ _).of_turn _ _ _ _)

/-- Right after the tick of a command that goes on. -/
theorem agrees_afterTick_of_goesOn (hr : r.Agrees) (h : r.cursor < r.commands.length)
    (hdrives : r.commands[r.cursor].task.drives? = some (k, actor, target))
    (htask : c'.task = r.commands[r.cursor].task) (hremoved : outcome.removed = false)
    (hon : Command.GoesOn r.commands[r.cursor] k actor target r.session.setting c' s') :
    (r.afterTick outcome c' s').Agrees false target := by
  have hdrives' : c'.task.drives? = some (k, actor, target) := by rw [htask, hdrives]
  have hid : c'.id = r.commands[r.cursor].id := by
    rw [Command.id_of_drives hdrives', Command.id_of_drives hdrives]
  have hmark := hr.matching.mark?_of_mem (List.getElem_mem h) hdrives
  unfold afterTick
  rw [if_neg (by rw [hremoved]; simp)]
  refine ⟨?_, ?_, ?_⟩
  · intro c hc
    obtain ⟨e, he, rfl⟩ := List.mem_map.mp hc
    split
    · exact ⟨k, actor, target, hdrives'⟩
    · exact hr.builtIn e he
  · refine hr.matching.put (List.getElem_mem h) hdrives htask ?_ ?_
    · have hship : (r.session.setting.entities.outline? actor).any Outline.isShip = true := by
        obtain ⟨x, hx, hlive⟩ := (Option.any_eq_true ..).mp hon.actor
        exact (Option.any_eq_true ..).mpr ⟨x, hx, Outline.isShip_of_isLive hlive⟩
      rw [hon.outlines]
      -- the actor is marked now if the command was set up just now, and was marked before otherwise
      cases hbefore : r.commands[r.cursor].progress.isSetUp with
      | true =>
        rw [hbefore] at hmark
        rw [Bool.not_true, Bool.false_and, reviseIf_false, hmark, hon.isSetUp hbefore]
      | false =>
        rw [hbefore] at hmark
        cases hafter : c'.progress.isSetUp with
        | true => exact Activity.mark?_reviseIf_of_isShip hship _
        | false =>
          rw [Bool.and_false, reviseIf_false, hmark]
    · intro k' id hne
      rw [hon.outlines, Activity.mark?_reviseIf_of_ne hne]
  · intro c hc
    left
    rw [hon.outlines]
    refine Command.IsSound.of_turn ?_ _ _ _ _
    have htake : c ∈ (r.commands.map fun d => if d.id = c'.id then c' else d).take (r.cursor + 1) :=
      hc
    rw [← List.map_take] at htake
    obtain ⟨e, he, rfl⟩ := List.mem_map.mp htake
    split
    · intro k' actor' target' hd
      rw [hdrives'] at hd
      cases hd
      exact ⟨hon.actor, hon.target⟩
    · next hne =>
      -- of the commands up to the cursor only that at the cursor has the name of `c'`
      rw [List.take_succ_eq_append_getElem h] at he
      rcases List.mem_append.mp he with he | he
      · exact hr.sound e he
      · rw [List.mem_singleton.mp he, hid] at hne
        exact absurd rfl hne

/-- Right after a tick marks and schedule agree, and if a ship was destroyed what acts on it is to
be stopped. -/
theorem exists_agrees_afterTick (host : CommandHost κ ε) (hr : r.Agrees)
    (h : r.cursor < r.commands.length) (htick :
      r.commands[r.cursor].tick host r.session.setting = (outcome, c', s')) :
    ∃ killed victim, (r.afterTick outcome c' s').Agrees killed victim ∧
      (killed = true → (r.afterTick outcome c' s').Heeds victim) := by
  obtain ⟨k, actor, target, hdrives⟩ := hr.builtIn _ (List.getElem_mem h)
  obtain ⟨htask, hways⟩ := Command.tick_drives host hdrives r.session.setting
  rw [htick] at htask hways
  rcases hways with ⟨hremoved, hon⟩ | ⟨hremoved, killed, hends⟩
  · exact ⟨false, target, agrees_afterTick_of_goesOn hr h hdrives htask hremoved hon,
      fun hkilled => Bool.noConfusion hkilled⟩
  · refine ⟨killed, target, agrees_afterTick_of_ends hr h hdrives hremoved hends,
      fun hkilled => .inl ?_⟩
    unfold afterTick
    rw [if_pos hremoved]
    exact hends.stopRequests hkilled

/-- A turn keeps marks and schedule in agreement. -/
theorem agrees_turn (host : CommandHost κ ε) (r : Round κ ε) (h : r.cursor < r.commands.length)
    (hr : r.Agrees) : (r.turn host r.commands[r.cursor]).Agrees := by
  rcases htick : r.commands[r.cursor].tick host r.session.setting with ⟨outcome, c', s'⟩
  obtain ⟨killed, victim, hafter, hheeds⟩ := exists_agrees_afterTick host hr h htick
  have hagrees := hafter.meetRequests host
  simp only [turn, htick]
  refine ⟨hagrees.builtIn, hagrees.matching, fun c hc => (hagrees.sound c hc).resolve_right ?_⟩
  rintro ⟨hkilled, hvictim⟩
  -- the destruction of a ship has stopped every command that acts on it
  have hnone := Sweep.heeds_meetRequests host _ (hheeds hkilled) c (List.mem_of_mem_take hc)
  rw [hnone] at hvictim
  cases hvictim

end Round

/-- A round keeps marks and schedule in agreement, and leaves sound commands only. -/
theorem Session.tick_sound (host : CommandHost κ ε) {x : Session κ ε}
    (hbuiltIn : x.schedule.BuiltIn)
    (hmatching : Matching x.setting.entities.outline? x.schedule) :
    (x.tick host).2.schedule.BuiltIn ∧
    Matching (x.tick host).2.setting.entities.outline? (x.tick host).2.schedule ∧
    ∀ c ∈ (x.tick host).2.schedule.commands,
      c.IsSound (x.tick host).2.setting.entities.outline? := by
  obtain ⟨⟨hb, hm, hsound⟩, hend⟩ := Round.keeps_run host (Round.agrees_turn host) { session := x }
    ⟨hbuiltIn, hmatching, by simp⟩
  rw [List.take_of_length_le hend] at hsound
  exact ⟨hb, hm, hsound⟩

/-- Meeting requests keeps marks and schedule in agreement. -/
theorem Session.meetRequests_matching (host : CommandHost κ ε) {x : Session κ ε}
    (hbuiltIn : x.schedule.BuiltIn)
    (hmatching : Matching x.setting.entities.outline? x.schedule) :
    (x.meetRequests host).2.schedule.BuiltIn ∧
    Matching (x.meetRequests host).2.setting.entities.outline?
      (x.meetRequests host).2.schedule := by
  have hagrees : Sweep.Agrees false ⟨""⟩ { session := x } := ⟨hbuiltIn, hmatching, by simp⟩
  exact ⟨(hagrees.meetRequests host).builtIn, (hagrees.meetRequests host).matching⟩

/-! ### Operations -/

/-- Ships come without marks, and commands have not been set up. -/
def Operation.IsFresh : Operation κ ε → Prop
  | create (.ship s) => s.attacking = none ∧ s.mining = none
  | schedule c => c.BuiltIn ∧ c.progress.isSetUp = false
  | _ => True

/-- Marks agree with the schedule, which has attacks and mining runs only. -/
structure Registry.Agrees (r : Registry κ) : Prop where
  /-- The registry can be used. -/
  intact : r.poisoned = false
  /-- All commands are attacks or mining runs. -/
  builtIn : r.schedule.BuiltIn
  /-- Marks agree with the schedule. -/
  matching : Matching r.entities.outline? r.schedule

namespace Registry.Agrees

variable {r : Registry κ} {es es' : Entities} {s s' : Schedule κ}

/-- A new entity has no mark, and its name was free. -/
theorem matching_add (hm : Matching es.outline? s) {e : Entity} (h : es.add e = .ok es')
    (hfresh : ∀ k : Activity, e.outline?.bind k.target? = none) : Matching es'.outline? s := by
  intro k id
  unfold Activity.mark?
  rw [Entities.outline?_of_add h]
  split
  · next hid =>
    rw [hfresh, ← hm k id, Activity.mark?, hid, Entities.outline?, (Entities.get?_of_add h).1]
    rfl
  · exact hm k id

/-- A new command is not set up, and its name was free. -/
theorem matching_addCommand (hm : Matching es.outline? s) {c : Command κ} (h : s.add c = .ok s')
    (hfresh : c.progress.isSetUp = false) : Matching es.outline? s' := by
  obtain ⟨hfree, hget⟩ := Schedule.get?_of_add h
  intro k id
  unfold Schedule.target?
  rw [hget]
  split
  · next hid =>
    have hold := hm k id
    rw [Schedule.target?, hid, hfree] at hold
    rw [hold]
    simp [Command.target?, hfresh]
  · exact hm k id

/-- An entity that no command acts on may go. -/
theorem matching_erase (hs : s.BuiltIn) (hm : Matching es.outline? s) {id : EntityId}
    (hnone : ∀ c ∈ s.commands, c.concerns id = false) : Matching (es.erase id).outline? s := by
  intro k j
  unfold Activity.mark?
  rw [Entities.outline?_erase]
  split
  · next hj =>
    unfold Schedule.target?
    cases hget : s.get? (.forEntity k.sort j) with
    | none => rfl
    | some c =>
      -- a command named after the entity acts on it
      obtain ⟨hmem, hid⟩ := Schedule.get?_eq_some_iff.mp hget
      obtain ⟨k', actor, target, hdrives⟩ := hs c hmem
      rw [Command.id_of_drives hdrives] at hid
      obtain ⟨-, rfl⟩ := Activity.forEntity_injective hid
      have hconcerns := hnone c hmem
      rw [Command.concerns_of_drives hdrives, hj] at hconcerns
      simp at hconcerns
  · exact hm k j

/-- Every commit keeps marks and schedule in agreement. -/
theorem commit (host : CommandHost κ ε) (w : World κ ε) (op : Operation κ ε) (hop : op.IsFresh)
    (h : w.registry.Agrees) : (op.commit host w).2.registry.Agrees := by
  obtain ⟨hp, hs, hm⟩ := h
  have heffect := op.effect_commit host w
  generalize op.commit host w = r at heffect
  cases heffect with
  | refused | drift => exact ⟨hp, hs, hm⟩
  | @create e es hadd =>
    refine ⟨hp, hs, matching_add hm hadd fun k => ?_⟩
    cases e with
    | ship ship =>
      cases k
      · exact hop.1
      · exact hop.2
    | station | loot => rfl
    | deposit => cases k <;> rfl
  | schedule hadd => exact ⟨hp, hs.add hop.1 hadd, matching_addCommand hm hadd hop.2⟩
  | tick now =>
    obtain ⟨hs', hm', -⟩ := Session.tick_sound host (x := w.session now) hs hm
    exact ⟨hp, hs', hm'⟩
  | stopCommands now id =>
    obtain ⟨hs', hm'⟩ := Session.meetRequests_matching host (x := w.stopping now id) hs hm
    exact ⟨hp, hs', hm'⟩
  | remove now id =>
    obtain ⟨hs', hm'⟩ := Session.meetRequests_matching host (x := w.stopping now id) hs hm
    refine ⟨hp, hs', matching_erase hs' hm' ?_⟩
    exact Sweep.heeds_meetRequests host _ (.inl (List.mem_singleton_self id))
  | transfer src dst material quantity =>
    refine ⟨hp, hs, ?_⟩
    show Matching (Registry.moveMaterial ..).2.outline? _
    rwa [Registry.outline?_moveMaterial]
  | listen id events =>
    refine ⟨hp, hs, ?_⟩
    show Matching (w.registry.entities.putEvents id events).outline? _
    rwa [Entities.outline?_putEvents]

end Registry.Agrees

/-! ### Soundness between ticks -/

/-- Every command on the schedule is sound. -/
def Registry.Sound (r : Registry κ) : Prop :=
  ∀ c ∈ r.schedule.commands, c.IsSound r.entities.outline?

/-- Nothing is scheduled. -/
def Operation.SchedulesNothing : Operation κ ε → Prop
  | schedule _ => False
  | _ => True

/-- A command is sound as long as whatever it depends on is as before. -/
theorem Command.IsSound.of_eq {c : Command κ} {o o' : EntityId → Option Outline} (h : c.IsSound o)
    (heq : ∀ id, c.concerns id = true → (o id).isSome → o' id = o id) : c.IsSound o' := by
  intro k actor target hdrives
  obtain ⟨hactor, htarget⟩ := h k actor target hdrives
  have hsome : ∀ {x : Option Outline} {p : Outline → Bool}, x.any p = true → x.isSome := by
    intro x p hx
    obtain ⟨y, rfl, -⟩ := (Option.any_eq_true ..).mp hx
    rfl
  rw [heq actor (by simp [concerns_of_drives hdrives]) (hsome hactor),
    heq target (by simp [concerns_of_drives hdrives]) (hsome htarget)]
  exact ⟨hactor, htarget⟩

/-- Stopping commands leaves the others sound. -/
theorem Session.meetRequests_sound (host : CommandHost κ ε) {x : Session κ ε}
    (hbuiltIn : x.schedule.BuiltIn)
    (hsound : ∀ c ∈ x.schedule.commands, c.IsSound x.setting.entities.outline?) :
    ∀ c ∈ (x.meetRequests host).2.schedule.commands,
      c.IsSound (x.meetRequests host).2.setting.entities.outline? := by
  refine (Sweep.keeps_meetRequests (P := fun w : Sweep κ ε => w.session.schedule.BuiltIn ∧
    ∀ c ∈ w.commands, c.IsSound w.session.setting.entities.outline?)
    (fun w i hi hw => ?_) (fun _ _ hw => hw) { session := x } ⟨hbuiltIn, hsound⟩).2
  obtain ⟨k, actor, target, hdrives⟩ := hw.1 _ (List.getElem_mem hi)
  refine ⟨fun c hc => hw.1 c ((List.eraseIdx_sublist ..).subset hc), fun c hc => ?_⟩
  show c.IsSound (w.commands[i].halt host w.session.setting).entities.outline?
  rw [Command.halt_drives host hdrives]
  exact (hw.2 c ((List.eraseIdx_sublist ..).subset hc)).of_turn _ _ _ _

namespace Registry

variable {r : Registry κ}

/-- After a tick every command is sound. -/
theorem Agrees.sound_tick (host : CommandHost κ ε) {w : World κ ε} (h : w.registry.Agrees)
    (now : Float) : ((Operation.tick now).commit host w).2.registry.Sound := by
  obtain ⟨-, -, hsound⟩ := Session.tick_sound host (x := w.session now) h.builtIn h.matching
  simp only [Operation.commit, check_of_intact h.intact]
  exact hsound

/-- Sound commands stay so until another one is scheduled. -/
theorem Sound.commit (host : CommandHost κ ε) {w : World κ ε} {op : Operation κ ε}
    (hop : op.SchedulesNothing) (h : w.registry.Agrees) (hsound : w.registry.Sound) :
    (op.commit host w).2.registry.Sound := by
  have heffect := op.effect_commit host w
  generalize op.commit host w = r at heffect
  cases heffect with
  | refused | drift => exact hsound
  | schedule => exact hop.elim
  | @create e es hadd =>
    -- the name of the new entity was free, so no command depends on it
    refine fun c hc => (hsound c hc).of_eq fun id _ hsome => ?_
    show es.outline? id = w.registry.entities.outline? id
    rw [Entities.outline?_of_add hadd]
    split
    · next hid =>
      rw [hid, Entities.outline?, (Entities.get?_of_add hadd).1] at hsome
      cases hsome
    · rfl
  | tick now => exact (Session.tick_sound host (x := w.session now) h.builtIn h.matching).2.2
  | stopCommands now id =>
    exact Session.meetRequests_sound host (x := w.stopping now id) h.builtIn hsound
  | remove now id =>
    have hmet := Session.meetRequests_sound host (x := w.stopping now id) h.builtIn hsound
    have hnone := Sweep.heeds_meetRequests host { session := w.stopping now id }
      (.inl (List.mem_singleton_self id))
    -- no command that is left acts on the entity
    refine fun c hc => (hmet c hc).of_eq fun j hj _ => ?_
    have hne : j ≠ id := by
      rintro rfl
      rw [hnone c hc] at hj
      cases hj
    show (Entities.erase _ id).outline? j = _
    rw [Entities.outline?_erase, if_neg hne]
    rfl
  | transfer src dst material quantity =>
    intro c hc
    show c.IsSound (moveMaterial ..).2.outline?
    rw [outline?_moveMaterial]
    exact hsound c hc
  | listen id events =>
    intro c hc
    show c.IsSound (w.registry.entities.putEvents id events).outline?
    rw [Entities.outline?_putEvents]
    exact hsound c hc

end Registry

/-! ### The main result -/

namespace Registry

/-- Ships are marked with what the schedule has them do. -/
structure MarksAgree (r : Registry κ) : Prop where
  /-- A ship attacks what its attack does, if that has been set up, and nothing otherwise. -/
  attacking : ∀ id ship, r.entities.ship id = .ok ship → ∀ defender,
    ship.attacking = some defender ↔ ∃ c, r.schedule.get? (.forEntity "attack" id) = some c ∧
      c.task = .attack ⟨id, defender⟩ ∧ c.progress.isSetUp = true
  /-- A ship mines what its mining run does, if that has been set up, and nothing otherwise. -/
  mining : ∀ id ship, r.entities.ship id = .ok ship → ∀ deposit,
    ship.mining = some deposit ↔ ∃ c, r.schedule.get? (.forEntity "mine" id) = some c ∧
      c.task = .mining ⟨id, deposit⟩ ∧ c.progress.isSetUp = true

/-- Every command on the schedule can go on. -/
structure NoZombies (r : Registry κ) : Prop where
  /-- Both ships of an attack are there and alive. -/
  attacks : ∀ c ∈ r.schedule.commands, ∀ a, c.task = .attack a →
    (∃ attacker, r.entities.ship a.attacker = .ok attacker ∧ attacker.alive = true) ∧
      ∃ defender, r.entities.ship a.defender = .ok defender ∧ defender.alive = true
  /-- The ship of a mining run is there and alive, and the deposit is there. -/
  minings : ∀ c ∈ r.schedule.commands, ∀ m, c.task = .mining m →
    (∃ miner, r.entities.ship m.miner = .ok miner ∧ miner.alive = true) ∧
      ∃ deposit, r.entities.deposit m.deposit = .ok deposit

variable {r : Registry κ}

theorem target?_eq_some_iff {s : Schedule κ} (hs : s.BuiltIn) {k : Activity}
    {actor target : EntityId} :
    s.target? k actor = some target ↔ ∃ c, s.get? (.forEntity k.sort actor) = some c ∧
      c.task.drives? = some (k, actor, target) ∧ c.progress.isSetUp = true := by
  unfold Schedule.target?
  rw [Option.bind_eq_some_iff]
  constructor
  · rintro ⟨c, hget, htarget⟩
    obtain ⟨hmem, hid⟩ := Schedule.get?_eq_some_iff.mp hget
    obtain ⟨k', actor', target', hdrives⟩ := hs c hmem
    rw [Command.id_of_drives hdrives] at hid
    obtain ⟨rfl, rfl⟩ := Activity.forEntity_injective hid
    rw [Command.target?_of_drives hdrives] at htarget
    split at htarget
    · next hsetup =>
      cases htarget
      exact ⟨c, hget, hdrives, hsetup⟩
    · cases htarget
  · rintro ⟨c, hget, hdrives, hsetup⟩
    exact ⟨c, hget, by rw [Command.target?_of_drives hdrives, if_pos hsetup]⟩

theorem drives?_eq_attacking {t : Task κ} {actor target : EntityId} :
    t.drives? = some (.attacking, actor, target) ↔ t = .attack ⟨actor, target⟩ := by
  cases t with
  | attack a =>
    obtain ⟨attacker, defender⟩ := a
    simp [Task.drives?]
  | mining m => simp [Task.drives?]
  | custom => simp [Task.drives?]

theorem drives?_eq_mining {t : Task κ} {actor target : EntityId} :
    t.drives? = some (.mining, actor, target) ↔ t = .mining ⟨actor, target⟩ := by
  cases t with
  | attack a => simp [Task.drives?]
  | mining m =>
    obtain ⟨miner, deposit⟩ := m
    simp [Task.drives?]
  | custom => simp [Task.drives?]

theorem Agrees.marksAgree (h : r.Agrees) : r.MarksAgree := by
  have hmark : ∀ (k : Activity) id ship target, r.entities.ship id = .ok ship →
      (k.target? ship.outline = some target ↔
        ∃ c, r.schedule.get? (.forEntity k.sort id) = some c ∧
          c.task.drives? = some (k, id, target) ∧ c.progress.isSetUp = true) := by
    intro k id ship target hship
    rw [← target?_eq_some_iff h.builtIn, ← h.matching, Activity.mark?,
      Entities.outline?_of_ship hship]
    rfl
  constructor
  · intro id ship hship defender
    have h := hmark .attacking id ship defender hship
    simp only [drives?_eq_attacking] at h
    exact h
  · intro id ship hship deposit
    have h := hmark .mining id ship deposit hship
    simp only [drives?_eq_mining] at h
    exact h

theorem Sound.noZombies (h : r.Sound) : r.NoZombies := by
  constructor
  · intro c hc a ha
    obtain ⟨hattacker, hdefender⟩ :=
      h c hc .attacking a.attacker a.defender (drives?_eq_attacking.mpr ha)
    exact ⟨Entities.exists_ship_of_isLive hattacker, Entities.exists_ship_of_isLive hdefender⟩
  · intro c hc m hm
    obtain ⟨hminer, hdeposit⟩ := h c hc .mining m.miner m.deposit (drives?_eq_mining.mpr hm)
    exact ⟨Entities.exists_ship_of_isLive hminer, Entities.exists_deposit_of_outline hdeposit⟩

end Registry

/-- Whatever is done to a registry that was empty at first, its marks agree with its schedule.
After a tick there is no command on the schedule that cannot go on, and as long as the listeners
schedule none themselves this is still so when all of them have been told. -/
theorem World.marksAgree_performAll (host : Host κ ε) (hhost : host.ActsBy Operation.IsFresh)
    (tracker : Tracker) (outside : ε) (ops : List (Operation κ ε))
    (hops : ∀ op ∈ ops, op.IsFresh) :
    let w := World.performAll host { tracker := tracker, outside := outside } ops
    w.registry.MarksAgree ∧ ∀ now,
      ((Operation.tick now).commit host.toCommandHost w).2.registry.NoZombies ∧
      (host.ActsBy (fun op => op.IsFresh ∧ op.SchedulesNothing) →
        ((Operation.tick now).perform host w).registry.NoZombies) := by
  intro w
  have hcommit : ∀ (w : World κ ε) (op : Operation κ ε), op.IsFresh → w.registry.Agrees →
      (op.commit host.toCommandHost w).2.registry.Agrees :=
    fun w op hop h => h.commit host.toCommandHost w op hop
  have hstart : ({ tracker := tracker, outside := outside } : World κ ε).registry.Agrees :=
    ⟨rfl, by simp [Schedule.BuiltIn], fun k id => rfl⟩
  -- whatever listeners do is fresh too, so the invariant survives them
  have hagrees : w.registry.Agrees :=
    performAll_induction (P := (·.registry.Agrees)) hhost (fun _ _ => trivial) hcommit hstart hops
  refine ⟨hagrees.marksAgree, fun now => ?_⟩
  have hsound := hagrees.sound_tick host.toCommandHost now
  refine ⟨hsound.noZombies, fun hpassive => ?_⟩
  have hboth := Operation.perform_of_commit
    (P := fun w : World κ ε => w.registry.Agrees ∧ w.registry.Sound) hpassive
    (fun _ _ => ⟨trivial, trivial⟩)
    (fun w op hop h => ⟨hcommit w op hop.1 h.1, h.2.commit host.toCommandHost hop.2 h.1⟩)
    (.tick now) ⟨hcommit w (.tick now) trivial hagrees, hsound⟩
  exact hboth.2.noZombies

/-- In particular so if one ship is sent against another one. -/
theorem World.marksAgree_skirmish :
    let ops : List (Operation Unit Unit) :=
      [.create (.ship Skirmish.hunter), .create (.ship Skirmish.prey),
        .schedule (.attack Skirmish.attack), .tick 0]
    let w := World.performAll Host.still { tracker := Skirmish.tracker, outside := () } ops
    (∀ op ∈ ops, op.IsFresh) ∧ w.registry.MarksAgree ∧ ∀ now,
      ((Operation.tick now).perform Host.still w).registry.NoZombies := by
  intro ops w
  have hops : ∀ op ∈ ops, op.IsFresh := by
    simp [ops, Operation.IsFresh, Skirmish.hunter, Skirmish.prey, Command.BuiltIn, Task.drives?,
      Command.attack]
  obtain ⟨hmarks, hnone⟩ := World.marksAgree_performAll Host.still (Host.actsBy_still _)
    Skirmish.tracker () ops hops
  exact ⟨hops, hmarks, fun now => (hnone now).2 (Host.actsBy_still _)⟩

end Orrery
