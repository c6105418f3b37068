import Orrery.Proofs.Chronicle

/-!
# The course of a tick

In a tick a command is asked one thing after another: to run a hook, which succeeds or fails, or one
of the two questions whether it is to be executed now and whether it is over.  What is asked next
depends on the last answer only (`Phase.next?`), so a tick is a walk through that table
(`Command.tick_eq`), and everything about the order of the hooks is read off it (`IsCourse`).

Two things of what the schedule remembers of the command change on the way: that it is set up, and
when it was last executed.  They carry what holds of a whole run of ticks: `setup` does not run
again once it has succeeded, and executions are as far apart as the rate demands
(`Command.ticks_regular`).
-/

namespace Orrery

/-! ### What is asked in a tick -/

/-- What a command can be asked in a tick. -/
inductive Phase where
  | setup
  | before
  /-- Whether it is to be executed now. -/
  | check
  | execute
  | after
  /-- Whether it is over. -/
  | review
  | teardown
deriving DecidableEq

/-- Something that was asked, with the answer.  Of a hook the answer is whether it succeeded. -/
structure Cue where
  phase : Phase
  answer : Bool
deriving DecidableEq

namespace Phase

/-- The place in a tick. -/
def rank : Phase → Nat
  | setup => 0
  | before => 1
  | check => 2
  | execute => 3
  | after => 4
  | review => 5
  | teardown => 6

/-- The hook that is run. -/
def stage? : Phase → Option Stage
  | setup => some .setup
  | before => some .before
  | check => none
  | execute => some .execute
  | after => some .after
  | review => none
  | teardown => some .teardown

/-- What is asked after an answer.  A failure leaves out the stages that remain. -/
def next? : Phase → Bool → Option Phase
  | setup, true => some before
  | before, true => some check
  | check, true => some execute
  | check, false => some after
  | execute, true => some after
  | review, true => some teardown
  | review, false => none
  | teardown, _ => none
  | _, _ => some review

theorem rank_le (phase : Phase) : phase.rank ≤ 6 := by cases phase <;> decide

theorem rank_lt_of_next? {phase phase' : Phase} {answer : Bool}
    (h : phase.next? answer = some phase') : phase.rank < phase'.rank := by
  cases phase <;> cases answer <;> cases h <;> decide

end Phase

namespace Cue

/-- What is asked next. -/
def next? (q : Cue) : Option Phase := q.phase.next? q.answer

/-- Whether a hook failed. -/
def isFailure (q : Cue) : Bool := q.phase.stage?.isSome && !q.answer

/-- The hook that was run, and whether it succeeded. -/
def trial? (q : Cue) : Option (Stage × Bool) := q.phase.stage?.map (·, q.answer)

/-- What the schedule remembers of the command afterwards: that `setup` has succeeded, and that
`execute` has been run, even if it failed. -/
def mark (now : Float) (p : Progress) (q : Cue) : Progress :=
  { p with
    lastRun := if q.phase = .execute then some now else p.lastRun
    isSetUp := p.isSetUp || q = ⟨.setup, true⟩ }

end Cue

/-- Whether something is asked in the course of a tick. -/
def Asked (cues : List Cue) (phase : Phase) : Prop := ∃ answer, ⟨phase, answer⟩ ∈ cues

instance (cues : List Cue) (phase : Phase) : Decidable (Asked cues phase) :=
  decidable_of_iff (⟨phase, true⟩ ∈ cues ∨ ⟨phase, false⟩ ∈ cues) <| by
    constructor
    · rintro (h | h)
      · exact ⟨_, h⟩
      · exact ⟨_, h⟩
    · rintro ⟨_ | _, h⟩
      · exact .inr h
      · exact .inl h

theorem Asked.exists_mem {cues : List Cue} {phase : Phase} :
    Asked cues phase ↔ ∃ q ∈ cues, q.phase = phase :=
  ⟨fun ⟨_, h⟩ => ⟨_, h, rfl⟩, fun ⟨⟨_, answer⟩, h, hphase⟩ => ⟨answer, hphase ▸ h⟩⟩

/-- What a tick reports of its course. -/
def outcomeOf (cues : List Cue) : TickOutcome where
  executed := cues.contains ⟨.execute, true⟩
  failed := cues.any Cue.isFailure
  removed := cues.contains ⟨.review, true⟩

/-! ### Legal courses -/

/-- A walk through the table: what is asked first, and so on to the end. -/
inductive Walk : Phase → List Cue → Prop where
  | last {phase : Phase} {answer : Bool} (h : phase.next? answer = none) :
    Walk phase [⟨phase, answer⟩]
  | step {phase phase' : Phase} {answer : Bool} {cues : List Cue}
    (h : phase.next? answer = some phase') (rest : Walk phase' cues) :
    Walk phase (⟨phase, answer⟩ :: cues)

namespace Walk

variable {phase : Phase} {cues : List Cue}

/-- The walk goes forwards. -/
theorem rank_le (h : Walk phase cues) : ∀ q ∈ cues, phase.rank ≤ q.phase.rank := by
  induction h with
  | last => simp
  | step hnext _ ih =>
    intro q hq
    rcases List.mem_cons.mp hq with rfl | hq
    · exact Nat.le_refl _
    · exact Nat.le_trans (Nat.le_of_lt (Phase.rank_lt_of_next? hnext)) (ih q hq)

theorem pairwise (h : Walk phase cues) :
    cues.Pairwise fun q q' => q.phase.rank < q'.phase.rank := by
  induction h with
  | last => exact List.pairwise_singleton ..
  | step hnext rest ih =>
    exact List.pairwise_cons.mpr
      ⟨fun q hq => Nat.lt_of_lt_of_le (Phase.rank_lt_of_next? hnext) (rest.rank_le q hq), ih⟩

/-- Something is asked if the walk begins with it, or if an answer leads to it. -/
theorem asked_iff (h : Walk phase cues) (phase' : Phase) :
    Asked cues phase' ↔ phase' = phase ∨ ∃ q ∈ cues, q.next? = some phase' := by
  rw [Asked.exists_mem]
  induction h with
  | @last phase answer hnext =>
    have : (⟨phase, answer⟩ : Cue).next? = none := hnext
    simp [this, eq_comm]
  | @step phase next answer cues hnext _ ih =>
    have : (⟨phase, answer⟩ : Cue).next? = some next := hnext
    simp only [List.mem_cons, or_and_right, exists_or, exists_eq_left, ih, this,
      Option.some.injEq, @eq_comm _ phase phase', @eq_comm _ next phase']

/-- Only after `teardown` the command is not asked any more whether it is over. -/
theorem asked_review (h : Walk phase cues) (hphase : phase ≠ .teardown) : Asked cues .review := by
  induction h with
  | @last phase answer hnext =>
    -- the table ends at that question and at `teardown`
    have hreview : phase = .review := by
      cases phase <;> cases answer <;> first | rfl | exact absurd rfl hphase | cases hnext
    exact ⟨answer, hreview ▸ List.mem_cons_self ..⟩
  | @step phase phase' answer cues hnext _ ih =>
    by_cases hreview : phase = .review
    · exact ⟨answer, hreview ▸ List.mem_cons_self ..⟩
    · -- only that question leads to `teardown`
      have hphase' : phase' ≠ .teardown := by
        rintro rfl
        cases phase <;> cases answer <;> cases hnext
        exact hreview rfl
      obtain ⟨answer', hmem⟩ := ih hphase'
      exact ⟨answer', List.mem_cons_of_mem _ hmem⟩

/-- The stages of a tick go on as long as the hooks succeed. -/
theorem answer_of_sublist (h : Walk phase cues) {q q' : Cue} (hsub : [q, q'].Sublist cues)
    (hrank : q'.phase.rank ≤ Phase.after.rank) (hcheck : q.phase ≠ .check) : q.answer = true := by
  induction h with
  | last => exact absurd hsub.length_le (by simp)
  | @step phase phase' answer cues hnext rest ih =>
    cases hsub with
    | cons _ hsub => exact ih hsub
    | cons_cons _ hsub =>
      -- what follows is another stage, and a failure would not lead there
      have hle := Nat.le_trans (rest.rank_le q' (List.singleton_sublist.mp hsub)) hrank
      cases phase <;> cases answer <;> cases hnext <;> first | rfl | exact absurd rfl hcheck | skip
      all_goals exact absurd hle (by decide)

end Walk

/-- The course of a tick of a command that has been set up before or not. -/
structure IsCourse (isSetUp : Bool) (cues : List Cue) : Prop where
  /-- What is asked is asked in this order, and nothing is asked twice. -/
  ordered : cues.Pairwise fun q q' => q.phase.rank < q'.phase.rank
  /-- `setup` is run if it has not succeeded before. -/
  setup : Asked cues .setup ↔ isSetUp = false
  /-- The rest of the tick is for commands that are set up. -/
  before : Asked cues .before ↔ isSetUp = true ∨ ⟨.setup, true⟩ ∈ cues
  check : Asked cues .check ↔ ⟨.before, true⟩ ∈ cues
  /-- The command is executed if the answer is that it may be. -/
  execute : Asked cues .execute ↔ ⟨.check, true⟩ ∈ cues
  /-- It need not be executed in the tick, but if it is, that must have succeeded. -/
  after : Asked cues .after ↔ ⟨.check, false⟩ ∈ cues ∨ ⟨.execute, true⟩ ∈ cues
  /-- Whatever failed, the command is asked whether it is over. -/
  review : Asked cues .review
  teardown : Asked cues .teardown ↔ ⟨.review, true⟩ ∈ cues
  /-- No stage follows a hook that failed. -/
  unfailing : ∀ q q', [q, q'].Sublist cues → q'.phase.rank ≤ Phase.after.rank →
    q.phase ≠ .check → q.answer = true

/-- Which answers lead where. -/
theorem Cue.next?_eq_some_iff (q : Cue) :
    q.next? ≠ some .setup ∧
    (q.next? = some .before ↔ q = ⟨.setup, true⟩) ∧
    (q.next? = some .check ↔ q = ⟨.before, true⟩) ∧
    (q.next? = some .execute ↔ q = ⟨.check, true⟩) ∧
    (q.next? = some .after ↔
      q = ⟨.check, false⟩ ∨ q = ⟨.execute, true⟩) ∧
    (q.next? = some .teardown ↔ q = ⟨.review, true⟩) := by
  obtain ⟨phase, answer⟩ := q
  cases phase <;> cases answer <;> decide

/-- What a tick begins with. -/
def opening (isSetUp : Bool) : Phase := if isSetUp then .before else .setup

theorem Walk.isCourse {isSetUp : Bool} {cues : List Cue} (h : Walk (opening isSetUp) cues) :
    IsCourse isSetUp cues where
  ordered := h.pairwise
  setup := by
    have hnone : ¬ ∃ q ∈ cues, q.next? = some Phase.setup := fun ⟨q, _, hq⟩ =>
      q.next?_eq_some_iff.1 hq
    rw [h.asked_iff, or_iff_left hnone]
    cases isSetUp <;> decide
  before := by
    simp only [h.asked_iff, (Cue.next?_eq_some_iff _).2.1, exists_eq_right]
    cases isSetUp <;> simp [opening]
  check := by
    simp only [h.asked_iff, (Cue.next?_eq_some_iff _).2.2.1, exists_eq_right]
    cases isSetUp <;> simp [opening]
  execute := by
    simp only [h.asked_iff, (Cue.next?_eq_some_iff _).2.2.2.1, exists_eq_right]
    cases isSetUp <;> simp [opening]
  after := by
    simp only [h.asked_iff, (Cue.next?_eq_some_iff _).2.2.2.2.1, and_or_left, exists_or,
      exists_eq_right]
    cases isSetUp <;> simp [opening]
  review := h.asked_review (by cases isSetUp <;> decide)
  teardown := by
    simp only [h.asked_iff, (Cue.next?_eq_some_iff _).2.2.2.2.2, exists_eq_right]
    cases isSetUp <;> simp [opening]
  unfailing := fun _ _ => h.answer_of_sublist

/-! ### Carrying out what is asked -/

/-- The hook that was run, and whether it succeeded. -/
def Deed.trial? {κ : Type} : Deed κ → Option (Stage × Bool)
  | turn .. => none
  | hook _ stage outcome _ _ => some (stage, !hookFailed outcome)

variable {κ ε : Type}

/-- Runs a hook and tells whether it succeeded. -/
def Performance.attempt (host : CommandHost κ ε) (stage : Stage) (p : Performance κ ε) :
    Bool × Performance κ ε :=
  let (outcome, p) := (perform host stage).run.run p
  (!hookFailed outcome, p)

/-- A hook that is followed up by a note if it succeeds. -/
theorem Performance.attempt_modify (host : CommandHost κ ε) (stage : Stage)
    (note : Performance κ ε → Performance κ ε) (p : Performance κ ε) :
    ((p.attempt host stage).1,
      if (p.attempt host stage).1 then note (p.attempt host stage).2
      else (p.attempt host stage).2) =
    (!hookFailed ((do perform host stage; modify note).run.run p).1,
      ((do perform host stage; modify note).run.run p).2) := by
  unfold attempt
  rw [run_bind]
  rcases (perform host stage).run.run p with ⟨_ | _, q⟩ <;> rfl

namespace Phase

variable (host : CommandHost κ ε)

/-- Does what is asked, and notes what the schedule has to know. -/
def carryOut : Phase → Performance κ ε → Bool × Performance κ ε
  | setup, p =>
    let (answer, p) := p.attempt host .setup
    (answer, if answer then p.noteSetUp else p)
  | before, p => p.attempt host .before
  | check, p => (p.command.mayExecute host p.setting, p)
  | execute, p =>
    let (answer, p) := p.noteRun.attempt host .execute
    (answer, if answer then p.noteExecuted else p)
  | after, p => p.attempt host .after
  | review, p => (p.command.isOver host p.setting, p)
  | teardown, p => p.attempt host .teardown

/-- Goes on from something that is asked to the end of the tick. -/
def play (phase : Phase) (p : Performance κ ε) : List Cue × Performance κ ε :=
  let r := phase.carryOut host p
  match h : phase.next? r.1 with
  | none => ([⟨phase, r.1⟩], r.2)
  | some phase' =>
    have := rank_lt_of_next? h
    have := phase'.rank_le
    (⟨phase, r.1⟩ :: (play phase' r.2).1, (play phase' r.2).2)
termination_by 6 - phase.rank

theorem play_of_none {phase : Phase} {p : Performance κ ε}
    (h : phase.next? (phase.carryOut host p).1 = none) :
    phase.play host p = ([⟨phase, (phase.carryOut host p).1⟩], (phase.carryOut host p).2) := by
  rw [play]
  split
  · rfl
  · next hnext => cases h.symm.trans hnext

theorem play_of_some {phase phase' : Phase} {p : Performance κ ε}
    (h : phase.next? (phase.carryOut host p).1 = some phase') :
    phase.play host p =
      (⟨phase, (phase.carryOut host p).1⟩ :: (phase'.play host (phase.carryOut host p).2).1,
        (phase'.play host (phase.carryOut host p).2).2) := by
  rw [play]
  split
  · next hnext => cases h.symm.trans hnext
  · next hnext =>
    cases h.symm.trans hnext
    rfl

theorem walk_play (phase : Phase) (p : Performance κ ε) : Walk phase (phase.play host p).1 := by
  fun_induction play host phase p with
  | case1 phase p r hnext => exact .last hnext
  | case2 phase p r phase' hnext hlt hle ih => exact .step hnext ih

end Phase

/-! ### A tick is a walk -/

namespace Phase

variable (host : CommandHost κ ε)

/-- What is asked from some point on, up to the question whether the command is over, is what an
action does. -/
def Does (phase : Phase) (x : ExceptT CommandError (StateM (Performance κ ε)) Unit) : Prop :=
  ∀ p, ∃ cues,
    phase.play host p =
      (cues ++ (review.play host (x.run.run p).2).1, (review.play host (x.run.run p).2).2) ∧
    cues.any Cue.isFailure = hookFailed (x.run.run p).1

variable {host}

theorem does_pure : review.Does host (pure () : ExceptT _ (StateM _) _) := fun _ => ⟨[], rfl, rfl⟩

/-- A hook comes first; if it succeeds the rest follows. -/
theorem Does.hook {phase phase' : Phase}
    {x y : ExceptT CommandError (StateM (Performance κ ε)) Unit} (hx : phase'.Does host x)
    (hstage : phase.stage?.isSome = true) (htrue : phase.next? true = some phase')
    (hfalse : phase.next? false = some review)
    (hcarry : ∀ p, phase.carryOut host p = (!hookFailed (y.run.run p).1, (y.run.run p).2)) :
    phase.Does host (y >>= fun _ => x) := by
  intro p
  rw [run_bind]
  rcases hrun : y.run.run p with ⟨e | ⟨⟩, q⟩
  · have hdone : phase.carryOut host p = (false, q) := by rw [hcarry, hrun]; rfl
    have hnext : phase.next? (phase.carryOut host p).1 = some review := by rw [hdone]; exact hfalse
    have hplay := play_of_some host hnext
    rw [hdone] at hplay
    exact ⟨[⟨phase, false⟩], hplay, by simp [Cue.isFailure, hstage, hookFailed]⟩
  · have hdone : phase.carryOut host p = (true, q) := by rw [hcarry, hrun]; rfl
    have hnext : phase.next? (phase.carryOut host p).1 = some phase' := by rw [hdone]; exact htrue
    have hplay := play_of_some host hnext
    obtain ⟨cues, hrest, hfailed⟩ := hx q
    rw [hdone, hrest] at hplay
    exact ⟨⟨phase, true⟩ :: cues, hplay, by simpa [Cue.isFailure] using hfailed⟩

variable (host)

theorem does_after : after.Does host (Performance.perform host .after) := by
  rw [← bind_pure_unit (x := Performance.perform host .after)]
  exact does_pure.hook rfl rfl rfl fun p => rfl

/-- The execution, when the answer is that it may go ahead. -/
theorem does_execute : execute.Does host (do
    modify Performance.noteRun
    Performance.perform host .execute
    modify Performance.noteExecuted
    Performance.perform host .after) := by
  have h : execute.Does host ((do
      modify Performance.noteRun
      Performance.perform host .execute
      modify Performance.noteExecuted) >>= fun _ => Performance.perform host .after) :=
    (does_after host).hook rfl rfl rfl fun p =>
      Performance.attempt_modify host .execute Performance.noteExecuted p.noteRun
  simpa using h

/-- The question whether the command is to be executed decides what is run next. -/
theorem does_check : check.Does host (do
    Performance.execute host
    Performance.perform host .after) := by
  intro p
  have hnext : check.next? (check.carryOut host p).1 =
      some (if p.command.mayExecute host p.setting then execute else after) := by
    cases hmay : p.command.mayExecute host p.setting <;> simp [carryOut, hmay, next?]
  have hplay := play_of_some host hnext
  have hrun : (do Performance.execute host; Performance.perform host .after).run.run p =
      if p.command.mayExecute host p.setting then
        (do
          modify Performance.noteRun
          Performance.perform host .execute
          modify Performance.noteExecuted
          Performance.perform host .after).run.run p
      else (Performance.perform host .after).run.run p := by
    unfold Performance.execute
    rw [bind_assoc, run_bind, run_get]
    cases hmay : p.command.mayExecute host p.setting <;> simp [hmay]
  rw [hrun]
  cases hmay : p.command.mayExecute host p.setting with
  | false =>
    obtain ⟨cues, hrest, hfailed⟩ := does_after host p
    simp only [hmay, carryOut, Bool.false_eq_true, ↓reduceIte, hrest] at hplay
    exact ⟨⟨check, false⟩ :: cues, hplay, hfailed⟩
  | true =>
    obtain ⟨cues, hrest, hfailed⟩ := does_execute host p
    simp only [hmay, carryOut, ↓reduceIte, hrest] at hplay
    exact ⟨⟨check, true⟩ :: cues, hplay, hfailed⟩

theorem does_before : before.Does host (do
    Performance.perform host .before
    Performance.execute host
    Performance.perform host .after) :=
  (does_check host).hook rfl rfl rfl fun _ => rfl

/-- A tick begins with `setup`, or with `before` if the command is set up. -/
theorem does_stages (p : Performance κ ε) : ∃ cues,
    (opening p.command.progress.isSetUp).play host p =
      (cues ++ (review.play host ((Performance.stages host).run.run p).2).1,
        (review.play host ((Performance.stages host).run.run p).2).2) ∧
    cues.any Cue.isFailure = hookFailed ((Performance.stages host).run.run p).1 := by
  have hsetup : setup.Does host _ := (does_before host).hook rfl rfl rfl fun p =>
    Performance.attempt_modify host .setup Performance.noteSetUp p
  unfold Performance.stages Performance.setUp
  rw [bind_assoc, run_bind, run_get]
  cases hset : p.command.progress.isSetUp with
  | false => simpa [hset, opening] using hsetup p
  | true => simpa [hset, opening] using does_before host p

end Phase

/-! ### What a walk leaves behind -/

/-- Whether the host supplies the behaviour of the command. -/
def Task.IsCustom {κ : Type} : Task κ → Prop
  | .custom .. => True
  | _ => False

namespace CommandHost

variable (host : CommandHost κ ε)

/-- The hooks of custom commands leave alone what the schedule remembers of them. -/
def LeavesProgress : Prop :=
  ∀ stage progress body scene outside,
    (host.hook stage progress body scene outside).progress = progress

/-- Custom commands are executed only as often as their rate allows; it may be left to the rate
altogether. -/
def HeedsRate : Prop :=
  ∀ progress body scene, host.mayExecute progress body scene = true →
    progress.allows scene.now = true

end CommandHost

namespace Command

variable {host : CommandHost κ ε} {c : Command κ}

@[simp] theorem isCustom_run (stage : Stage) (s : Setting κ ε) :
    (c.run host stage s).2.1.task.IsCustom ↔ c.task.IsCustom := by
  obtain ⟨progress, task⟩ := c
  cases task <;> exact Iff.rfl

/-- A hook that leaves it alone does not change what the schedule remembers of the command. -/
theorem progress_run
    (hhook : c.task.IsCustom → host.LeavesProgress)
    (stage : Stage) (s : Setting κ ε) : (c.run host stage s).2.1.progress = c.progress := by
  obtain ⟨progress, task⟩ := c
  cases task with
  | attack a => rfl
  | mining m => rfl
  | custom name concerns body => exact hhook trivial ..

end Command

/-- What has come of some more things that were asked. -/
structure Performance.Played (host : CommandHost κ ε) (p : Performance κ ε) (cues : List Cue)
    (q : Performance κ ε) : Prop where
  now : q.setting.now = p.setting.now
  executed : q.executed = (p.executed || cues.contains ⟨.execute, true⟩)
  /-- The hooks are in the chronicle, with their outcomes. -/
  chronicle : ∃ deeds, q.setting.chronicle = p.setting.chronicle ++ deeds ∧
    deeds.map Deed.trial? = (cues.filterMap Cue.trial?).map some
  isCustom : q.command.task.IsCustom ↔ p.command.task.IsCustom
  /-- The schedule remembers of it what it has to, if the hooks leave that alone. -/
  progress : (p.command.task.IsCustom → host.LeavesProgress) →
    q.command.progress = cues.foldl (Cue.mark p.setting.now) p.command.progress

namespace Performance

variable {host : CommandHost κ ε} {p q r : Performance κ ε}

theorem Played.refl (host : CommandHost κ ε) (p : Performance κ ε) : p.Played host [] p where
  now := rfl
  executed := by simp
  chronicle := ⟨[], (List.append_nil _).symm, rfl⟩
  isCustom := Iff.rfl
  progress := fun _ => rfl

theorem Played.trans {cues cues' : List Cue} (h : p.Played host cues q)
    (h' : q.Played host cues' r) : p.Played host (cues ++ cues') r where
  now := h'.now.trans h.now
  executed := by simp [h'.executed, h.executed, Bool.or_assoc]
  chronicle := by
    obtain ⟨deeds, hchronicle, htrials⟩ := h.chronicle
    obtain ⟨deeds', hchronicle', htrials'⟩ := h'.chronicle
    refine ⟨deeds ++ deeds', ?_, ?_⟩
    · rw [hchronicle', hchronicle, List.append_assoc]
    · simp [htrials, htrials']
  isCustom := h'.isCustom.trans h.isCustom
  progress := fun hhook => by
    rw [List.foldl_append, ← h.progress hhook, ← h.now]
    exact h'.progress fun hcustom => hhook (h.isCustom.mp hcustom)

/-- A hook was run and nothing else was done. -/
structure Ran (host : CommandHost κ ε) (stage : Stage) (answer : Bool) (p q : Performance κ ε) :
    Prop where
  now : q.setting.now = p.setting.now
  executed : q.executed = p.executed
  chronicle : ∃ deed, q.setting.chronicle = p.setting.chronicle ++ [deed] ∧
    deed.trial? = some (stage, answer)
  isCustom : q.command.task.IsCustom ↔ p.command.task.IsCustom
  progress : (p.command.task.IsCustom → host.LeavesProgress) →
    q.command.progress = p.command.progress

theorem ran_attempt (host : CommandHost κ ε) (stage : Stage) (p : Performance κ ε) :
    Ran host stage (p.attempt host stage).1 p (p.attempt host stage).2 where
  now := rfl
  executed := rfl
  chronicle := ⟨_, (Command.after_run host stage p.command p.setting).chronicle, rfl⟩
  isCustom := Command.isCustom_run ..
  progress := fun hhook => Command.progress_run hhook stage p.setting

/-- Most hooks leave no other trace than that in the chronicle. -/
theorem Ran.played {phase : Phase} {stage : Stage} {answer : Bool} (h : Ran host stage answer p q)
    (hstage : phase.stage? = some stage) (hsetup : phase ≠ .setup) (hexecute : phase ≠ .execute) :
    p.Played host [⟨phase, answer⟩] q where
  now := h.now
  executed := by simp [h.executed, hexecute.symm]
  chronicle := by
    obtain ⟨deed, hchronicle, htrial⟩ := h.chronicle
    exact ⟨[deed], hchronicle, by simp [Cue.trial?, hstage, htrial]⟩
  isCustom := h.isCustom
  progress := fun hhook => by simp [Cue.mark, hsetup, hexecute, h.progress hhook]

/-- That `setup` has succeeded is noted. -/
theorem Ran.played_setup {answer : Bool} (h : Ran host .setup answer p q) :
    p.Played host [⟨.setup, answer⟩] (if answer then q.noteSetUp else q) where
  now := by cases answer <;> exact h.now
  executed := by cases answer <;> simpa [noteSetUp] using h.executed
  chronicle := by
    obtain ⟨deed, hchronicle, htrial⟩ := h.chronicle
    refine ⟨[deed], ?_, by simp [Cue.trial?, Phase.stage?, htrial]⟩
    cases answer <;> exact hchronicle
  isCustom := by cases answer <;> exact h.isCustom
  progress := fun hhook => by
    cases answer <;> simp [Cue.mark, noteSetUp, h.progress hhook]

/-- The execution is noted before it begins, its success when it is over. -/
theorem Ran.played_execute {answer : Bool} (h : Ran host .execute answer p.noteRun q) :
    p.Played host [⟨.execute, answer⟩] (if answer then q.noteExecuted else q) where
  now := by cases answer <;> exact h.now
  executed := by
    cases answer with
    | false => simpa [noteRun] using h.executed
    | true => simp [noteExecuted]
  chronicle := by
    obtain ⟨deed, hchronicle, htrial⟩ := h.chronicle
    refine ⟨[deed], ?_, by simp [Cue.trial?, Phase.stage?, htrial]⟩
    cases answer <;> exact hchronicle
  isCustom := by cases answer <;> exact h.isCustom
  progress := fun hhook => by
    cases answer <;> simp [Cue.mark, noteExecuted, h.progress hhook] <;> rfl

/-- A question changes nothing. -/
theorem played_question {phase : Phase} (hstage : phase.stage? = none) (answer : Bool) :
    p.Played host [⟨phase, answer⟩] p := by
  have hsetup : phase ≠ .setup := by rintro rfl; cases hstage
  have hexecute : phase ≠ .execute := by rintro rfl; cases hstage
  exact
    { now := rfl
      executed := by simp [hexecute.symm]
      chronicle := ⟨[], (List.append_nil _).symm, by simp [Cue.trial?, hstage]⟩
      isCustom := Iff.rfl
      progress := fun _ => by simp [Cue.mark, hsetup, hexecute] }

theorem played_carryOut (host : CommandHost κ ε) (phase : Phase) (p : Performance κ ε) :
    p.Played host [⟨phase, (phase.carryOut host p).1⟩] (phase.carryOut host p).2 := by
  cases phase with
  | setup => exact (ran_attempt host .setup p).played_setup
  | before => exact (ran_attempt host .before p).played rfl (by decide) (by decide)
  | check => exact played_question rfl _
  | execute => exact (ran_attempt host .execute p.noteRun).played_execute
  | after => exact (ran_attempt host .after p).played rfl (by decide) (by decide)
  | review => exact played_question rfl _
  | teardown => exact (ran_attempt host .teardown p).played rfl (by decide) (by decide)

theorem played_play (host : CommandHost κ ε) (phase : Phase) (p : Performance κ ε) :
    p.Played host (phase.play host p).1 (phase.play host p).2 := by
  fun_induction Phase.play host phase p with
  | case1 phase p r hnext => exact played_carryOut host phase p
  | case2 phase p r phase' hnext hlt hle ih => exact (played_carryOut host phase p).trans ih

/-- Whatever is asked in a walk is answered by the performance that has been reached. -/
theorem exists_of_mem_play {host : CommandHost κ ε} {phase : Phase} {p : Performance κ ε}
    {cue : Cue} (h : cue ∈ (phase.play host p).1) : ∃ pre post q,
      (phase.play host p).1 = pre ++ cue :: post ∧ p.Played host pre q ∧
      cue.answer = (cue.phase.carryOut host q).1 := by
  fun_induction Phase.play host phase p with
  | case1 phase p r hnext =>
    obtain rfl := List.mem_singleton.mp h
    exact ⟨[], [], p, rfl, .refl host p, rfl⟩
  | case2 phase p r phase' hnext hlt hle ih =>
    rcases List.mem_cons.mp h with rfl | h
    · exact ⟨[], _, p, rfl, .refl host p, rfl⟩
    · obtain ⟨pre, post, q, hsplit, hplayed, hanswer⟩ := ih h
      exact ⟨_ :: pre, post, q, by rw [hsplit]; rfl, (played_carryOut host phase p).trans hplayed,
        hanswer⟩

end Performance

/-! ### Ticks -/

namespace Command

variable (host : CommandHost κ ε) (c : Command κ) (s : Setting κ ε)

/-- The walk that a tick is. -/
def walk : List Cue × Performance κ ε :=
  (opening c.progress.isSetUp).play host (c.start s)

theorem played_walk : (c.start s).Played host (c.walk host s).1 (c.walk host s).2 :=
  Performance.played_play ..

theorem isCourse_walk : IsCourse c.progress.isSetUp (c.walk host s).1 :=
  (Phase.walk_play ..).isCourse

/-- A tick walks through the table, and reports what it was told there. -/
theorem tick_eq : c.tick host s =
    (outcomeOf (c.walk host s).1, (c.walk host s).2.command, (c.walk host s).2.setting) := by
  have hexecuted := (c.played_walk host s).executed
  have hordered := (c.isCourse_walk host s).ordered
  obtain ⟨cues, hplay, hfailed⟩ := Phase.does_stages host (c.start s)
  rw [walk, show c.progress = (c.start s).command.progress from rfl, hplay] at hexecuted hordered ⊢
  unfold tick
  rcases hrun : (Performance.stages host).run.run (c.start s) with ⟨outcome, p⟩
  simp only [hrun] at hexecuted hordered hfailed ⊢
  unfold start at hrun
  simp only [hrun]
  cases hover : p.command.isOver host p.setting with
  | false =>
    have hreview : Phase.review.play host p = ([⟨.review, false⟩], p) := by
      rw [Phase.play_of_none] <;> simp [Phase.carryOut, hover, Phase.next?]
    rw [hreview] at hexecuted hordered ⊢
    -- what is asked at the end was not asked before
    have hnot : ⟨.review, true⟩ ∉ cues := fun hmem =>
      absurd ((List.pairwise_append.mp hordered).2.2 _ hmem _ (List.mem_singleton_self _))
        (by decide)
    have hexecuted : p.executed = cues.contains ⟨.execute, true⟩ := by
      simpa [start] using hexecuted
    simp [outcomeOf, Cue.isFailure, Phase.stage?, hexecuted, hfailed, hnot]
  | true =>
    have hreview : Phase.review.play host p =
        ([⟨.review, true⟩, ⟨.teardown, (p.attempt host .teardown).1⟩],
          (p.attempt host .teardown).2) := by
      have hnext : Phase.review.next? (Phase.review.carryOut host p).1 = some .teardown := by
        simp [Phase.carryOut, hover, Phase.next?]
      rw [Phase.play_of_some host hnext, Phase.play_of_none] <;>
        simp [Phase.carryOut, hover, Phase.next?]
    rw [hreview] at hexecuted ⊢
    have hexecuted : p.executed = cues.contains ⟨.execute, true⟩ := by
      simpa [start, Performance.attempt] using hexecuted
    simp [outcomeOf, Cue.isFailure, Phase.stage?, hexecuted, hfailed, Performance.attempt]

end Command

/-! ### Runs of ticks -/

/-- One tick in a run: what it found, what was asked, and what it came to. -/
structure CommandTick (κ ε : Type) where
  command : Command κ
  setting : Setting κ ε
  cues : List Cue
  outcome : TickOutcome
  /-- The command afterwards. -/
  next : Command κ
  /-- The setting afterwards. -/
  left : Setting κ ε

/-- What a tick of a command comes to. -/
structure CommandTick.IsRegular (host : CommandHost κ ε) (t : CommandTick κ ε) : Prop where
  /-- The tick is the walk through what is asked. -/
  walked : t.command.walk host t.setting = (t.cues, ⟨t.next, t.left, t.outcome.executed⟩)
  course : IsCourse t.command.progress.isSetUp t.cues
  /-- The hooks are in the chronicle, each with its outcome. -/
  chronicle : ∃ deeds,
    t.left.chronicle = t.setting.chronicle ++ .turn t.command t.setting.scene :: deeds ∧
    deeds.map Deed.trial? = (t.cues.filterMap Cue.trial?).map some
  outcome : t.outcome = outcomeOf t.cues
  /-- The execution is noted, whatever came of it, and nothing else is taken for one. -/
  lastRun : t.next.progress.lastRun =
    if Asked t.cues .execute then some t.setting.now else t.command.progress.lastRun
  isSetUp : t.next.progress.isSetUp = (t.command.progress.isSetUp || t.cues.contains ⟨.setup, true⟩)
  rate : t.next.progress.rate = t.command.progress.rate

/-- The marks of a course, taken together. -/
theorem Cue.foldl_mark (now : Float) (cues : List Cue) (p : Progress) :
    cues.foldl (Cue.mark now) p =
      { p with
        lastRun := if Asked cues .execute then some now else p.lastRun
        isSetUp := p.isSetUp || cues.contains ⟨.setup, true⟩ } := by
  induction cues generalizing p with
  | nil => simp [Asked]
  | cons q cues ih =>
    have hasked : Asked (q :: cues) .execute ↔ q.phase = .execute ∨ Asked cues .execute := by
      simp [Asked.exists_mem]
    rw [List.foldl_cons, ih]
    by_cases hq : q.phase = .execute <;> by_cases hcues : Asked cues .execute <;>
      simp [mark, hasked, hq, hcues, Bool.or_assoc, @eq_comm _ q]

namespace Command

variable (host : CommandHost κ ε)

/-- A tick of the command, with what was asked. -/
def ticked (c : Command κ) (s : Setting κ ε) : CommandTick κ ε where
  command := c
  setting := s
  cues := (c.walk host s).1
  outcome := (c.tick host s).1
  next := (c.tick host s).2.1
  left := (c.tick host s).2.2

/-- The ticks of a command, each in a setting of its own. -/
def ticks : Command κ → List (Setting κ ε) → List (CommandTick κ ε)
  | _, [] => []
  | c, s :: settings => c.ticked host s :: ticks (c.tick host s).2.1 settings

variable {host} {c : Command κ}

theorem isCustom_tick (host : CommandHost κ ε) (c : Command κ) (s : Setting κ ε) :
    (c.tick host s).2.1.task.IsCustom ↔ c.task.IsCustom := by
  rw [tick_eq]
  exact (c.played_walk host s).isCustom

theorem ticked_isRegular
    (hhook : c.task.IsCustom → host.LeavesProgress)
    (s : Setting κ ε) : (c.ticked host s).IsRegular host := by
  have hplayed := c.played_walk host s
  have hprogress : (c.tick host s).2.1.progress =
      { c.progress with
        lastRun := if Asked (c.walk host s).1 .execute then some s.now else c.progress.lastRun
        isSetUp := c.progress.isSetUp || (c.walk host s).1.contains ⟨.setup, true⟩ } := by
    rw [tick_eq]
    exact (hplayed.progress hhook).trans (Cue.foldl_mark ..)
  exact
    { walked := by
        have hexecuted : (c.walk host s).2.executed = (c.tick host s).1.executed := by
          rw [tick_eq, hplayed.executed]
          rfl
        simp only [ticked, ← hexecuted]
        rw [tick_eq]
      course := c.isCourse_walk host s
      chronicle := by
        obtain ⟨deeds, hchronicle, htrials⟩ := hplayed.chronicle
        refine ⟨deeds, ?_, htrials⟩
        show (c.tick host s).2.2.chronicle = _
        rw [tick_eq, hchronicle]
        simp [start, Setting.note, ticked]
      outcome := by
        show (c.tick host s).1 = _
        rw [tick_eq]
        rfl
      lastRun := congrArg Progress.lastRun hprogress
      isSetUp := congrArg Progress.isSetUp hprogress
      rate := (congrArg Progress.rate hprogress).trans rfl }

/-- After the first ticks of a run the others are a run of the command as it is then. -/
theorem ticks_eq_append_cons
    (hhook : c.task.IsCustom → host.LeavesProgress)
    {settings : List (Setting κ ε)} {pre post : List (CommandTick κ ε)} {t : CommandTick κ ε}
    (h : c.ticks host settings = pre ++ t :: post) :
    ∃ (d : Command κ) (s : Setting κ ε) (settings' : List (Setting κ ε)),
      t = d.ticked host s ∧ post = ticks host (d.tick host s).2.1 settings' ∧
      (d.task.IsCustom ↔ c.task.IsCustom) ∧
      d.progress.rate = c.progress.rate ∧
      d.progress.isSetUp = (c.progress.isSetUp || pre.any (·.cues.contains ⟨.setup, true⟩)) ∧
      ((∀ t ∈ pre, ¬ Asked t.cues .execute) → d.progress.lastRun = c.progress.lastRun) := by
  induction pre generalizing c settings with
  | nil =>
    cases settings with
    | nil => cases h
    | cons s settings =>
      obtain ⟨rfl, rfl⟩ := List.cons.inj h
      exact ⟨c, s, settings, rfl, rfl, Iff.rfl, rfl, by simp, fun _ => rfl⟩
  | cons t' pre ih =>
    cases settings with
    | nil => cases h
    | cons s settings =>
      obtain ⟨rfl, hrest⟩ := List.cons.inj h
      have ht := ticked_isRegular hhook s
      have hcustom := isCustom_tick host c s
      obtain ⟨d, s', settings', ht', hpost, hd, hrate, hset, hlast⟩ :=
        ih (fun hc => hhook (hcustom.mp hc)) hrest
      refine ⟨d, s', settings', ht', hpost, hd.trans hcustom, hrate.trans ht.rate, ?_,
        fun hnot => ?_⟩
      · rw [hset, List.any_cons, ← Bool.or_assoc]
        exact congrArg (· || _) ht.isSetUp
      · obtain ⟨hfirst, hothers⟩ := List.forall_mem_cons.mp hnot
        rw [hlast hothers]
        exact ht.lastRun.trans (if_neg hfirst)

/-- Attacks and mining runs are executed only as often as their rate allows, and so are custom
commands that leave the decision to it. -/
theorem allows_of_mayExecute (hmay : c.task.IsCustom → host.HeedsRate)
    {s : Setting κ ε} (h : c.mayExecute host s = true) : c.progress.allows s.now = true := by
  obtain ⟨progress, task⟩ := c
  cases task with
  | attack a =>
    simp only [mayExecute, Bool.and_eq_true] at h
    exact h.1
  | mining m =>
    simp only [mayExecute, Bool.and_eq_true] at h
    exact h.1
  | custom name concerns body => exact hmay trivial progress body s.scene h

/-- A command is executed only if the time since the last execution allows it. -/
theorem allows_of_asked
    (hhook : c.task.IsCustom → host.LeavesProgress)
    (hmay : c.task.IsCustom → host.HeedsRate)
    {s : Setting κ ε} (h : Asked (c.walk host s).1 .execute) : c.progress.allows s.now = true := by
  have hcourse := c.isCourse_walk host s
  obtain ⟨pre, post, q, hsplit, hplayed, hanswer⟩ :=
    Performance.exists_of_mem_play (hcourse.execute.mp h)
  simp only [Phase.carryOut] at hanswer
  have hallows := allows_of_mayExecute (fun hcustom => hmay (hplayed.isCustom.mp hcustom))
    hanswer.symm
  -- nothing was executed before the question
  have hnot : ¬ Asked pre .execute := by
    rintro ⟨answer, hmem⟩
    have hordered := hcourse.ordered
    rw [walk, hsplit] at hordered
    exact absurd ((List.pairwise_append.mp hordered).2.2 _ hmem _ (List.mem_cons_self ..))
      (by simp [Phase.rank])
  rw [hplayed.progress hhook, Cue.foldl_mark, hplayed.now] at hallows
  simpa [hnot, Progress.allows, start, Setting.note] using hallows

end Command

namespace Drill

/-- A host of one custom command, which jams whenever it is executed. -/
def host : CommandHost Unit Unit where
  hook stage progress body scene outside :=
    ⟨if stage = .execute then .error (.failed ⟨"drill"⟩ "jammed") else .ok (),
      progress, body, scene, outside⟩
  mayExecute progress _ scene := progress.allows scene.now
  isOver _ _ _ := false
  credit _ outside := outside

/-- The command, to be executed every two seconds. -/
def command : Command Unit := ⟨{ rate := some 2 }, .custom ⟨"drill"⟩ (fun _ => false) ()⟩

/-- An empty scene. -/
def setting (now : Float) : Setting Unit Unit := ⟨now, {}, {}, (), [], [], []⟩

end Drill

/-- Whatever the hooks of a command come to, as long as they leave alone what the schedule remembers
of it: in each tick of a run its hooks are run in their order, `setup` only until it has succeeded,
`execute` only if the answer is that it may be, no stage after a failure, and at the end the command
is asked once whether it is over; the execution is noted even if it fails; and if the rate has its
way, two executions in succession are at least as far apart as it says. -/
theorem Command.ticks_regular {host : CommandHost κ ε} (c : Command κ)
    (hhook : c.task.IsCustom → host.LeavesProgress) (settings : List (Setting κ ε)) :
    (c.ticks host settings).map CommandTick.setting = settings ∧
    (∀ t ∈ c.ticks host settings, t.IsRegular host) ∧
    (∀ pre t post, c.ticks host settings = pre ++ t :: post →
      (Asked t.cues .setup ↔
        c.progress.isSetUp = false ∧ ∀ t' ∈ pre, ⟨.setup, true⟩ ∉ t'.cues)) ∧
    ((c.task.IsCustom → host.HeedsRate) → ∀ r, c.progress.rate = some r → ∀ pre t mid t' post,
      c.ticks host settings = pre ++ t :: (mid ++ t' :: post) →
      Asked t.cues .execute → (∀ u ∈ mid, ¬ Asked u.cues .execute) → Asked t'.cues .execute →
      Scalar.le r (t'.setting.now - t.setting.now) = true) := by
  refine ⟨?_, ?_, ?_, ?_⟩
  · induction settings generalizing c with
    | nil => rfl
    | cons s settings ih =>
      have hcustom := Command.isCustom_tick host c s
      exact congrArg (s :: ·) (ih _ fun h => hhook (hcustom.mp h))
  · intro t ht
    obtain ⟨pre, post, hsplit⟩ := List.append_of_mem ht
    obtain ⟨d, s, _, rfl, -, hcustom, -⟩ := Command.ticks_eq_append_cons hhook hsplit
    exact Command.ticked_isRegular (fun h => hhook (hcustom.mp h)) s
  · intro pre t post hsplit
    obtain ⟨d, s, _, rfl, -, -, -, hset, -⟩ := Command.ticks_eq_append_cons hhook hsplit
    refine (d.isCourse_walk host s).setup.trans ?_
    simp [hset]
  · intro hmay r hr pre t mid t' post hsplit ht hmid ht'
    obtain ⟨d, s, _, rfl, hrest, hcustom, hrate, -, -⟩ := Command.ticks_eq_append_cons hhook hsplit
    have hregular := Command.ticked_isRegular (fun h => hhook (hcustom.mp h)) s
    have hcustom := (d.isCustom_tick host s).trans hcustom
    -- the time of the first execution is still noted at the second one
    obtain ⟨d', s', _, rfl, -, hcustom', hrate', -, hlast⟩ :=
      Command.ticks_eq_append_cons (fun h => hhook (hcustom.mp h)) hrest.symm
    have hcustom' := hcustom'.trans hcustom
    have hallows := Command.allows_of_asked (fun h => hhook (hcustom'.mp h))
      (fun h => hmay (hcustom'.mp h)) ht'
    have hlast' : d'.progress.lastRun = some s.now :=
      (hlast hmid).trans (hregular.lastRun.trans (if_pos ht))
    have hrate'' : d'.progress.rate = some r :=
      hrate'.trans (hregular.rate.trans (hrate.trans hr))
    show Scalar.le r (s'.now - s.now) = true
    simpa only [Progress.allows, hlast', hrate''] using hallows

/-- The drill is executed at once and again after two seconds, though it jams every time. -/
theorem Command.ticks_regular_drill :
    (∀ t ∈ Drill.command.ticks Drill.host [Drill.setting 0, Drill.setting 1, Drill.setting 2],
      t.IsRegular Drill.host) ∧
    (Drill.command.ticks Drill.host [Drill.setting 0, Drill.setting 1, Drill.setting 2]).map
      (fun t => (decide (Asked t.cues .setup), decide (Asked t.cues .execute))) =
        [(true, true), (false, false), (false, true)] ∧
    Scalar.le 2 ((Drill.setting 2).now - (Drill.setting 0).now) = true := by
  have hhook : Drill.command.task.IsCustom → Drill.host.LeavesProgress := fun _ _ _ _ _ _ => rfl
  obtain ⟨-, hregular, -, hfar⟩ :=
    Command.ticks_regular Drill.command hhook [Drill.setting 0, Drill.setting 1, Drill.setting 2]
  refine ⟨hregular, by decide +kernel, ?_⟩
  have h := hfar (fun _ _ _ _ h => h) 2 rfl [] _ [_] _ [] rfl
  exact h (by decide +kernel) (by decide +kernel) (by decide +kernel)

end Orrery
