import Orrery.Proofs.Upkeep

/-!
# Advances in place

An advance can be thought of as changing a position where it is: the rule moves it, and an orbit
changes its own true anomaly as well, before it is known whether the result is finite.  So whatever
has been changed by the time of a failure has to be put back (`Position.guarded`).  That is done
whatever the rule does to the kinematic state and to itself (`Position.guarded_run`), and the
advance in place comes to the same as `Position.advance`, which leaves the position alone if it
fails (`Position.advanceInPlace_run`).
-/

namespace Orrery

/-! ### Failing and catching -/

section Action

variable {ε σ α : Type}

/-- What is caught keeps the state as it was left. -/
theorem run_tryCatch (x : ExceptT ε (StateM σ) α) (f : ε → ExceptT ε (StateM σ) α) (s : σ) :
    (tryCatch x f).run.run s =
      match x.run.run s with
      | (.ok a, s') => (.ok a, s')
      | (.error e, s') => (f e).run.run s' := by
  show (ExceptT.tryCatch x f).run.run s = _
  unfold ExceptT.tryCatch
  simp only [ExceptT.run, ExceptT.mk, StateT.run, bind, StateT.bind]
  rcases x s with ⟨_ | _, s'⟩ <;> rfl

end Action

/-! ### Rules -/

namespace Rule

variable {r : Rule Float} {k : Kinematics Float} {elapsed : Float} {targets : Lookup}

/-- The rule at another true anomaly, if it is an orbit. -/
def atAnomaly (θ : Float) : Rule Float → Rule Float
  | orbit o => orbit { o with trueAnomaly := θ }
  | r => r

/-- A rule changes nothing of itself but the true anomaly. -/
theorem advance_eq_ok {a : Advance Float} (h : r.advance k elapsed targets = .ok a) :
    ∃ θ, a.rule = r.atAnomaly θ := by
  cases r with
  | rest | cruise | spin =>
    cases h
    exact ⟨elapsed, rfl⟩
  | orbit o =>
    cases h
    exact ⟨_, rfl⟩
  | pursuit p =>
    obtain ⟨-, -, hrule, -⟩ := advance_pursuit_eq_ok h
    exact ⟨elapsed, hrule⟩

/-- A rule fails only if it pursues something that is not tracked. -/
theorem advance_eq_error {e : MotionError} (h : r.advance k elapsed targets = .error e) :
    ∃ p, r = .pursuit p ∧ targets p.target = none ∧ e = .targetMissing p.target := by
  cases r with
  | rest | cruise | orbit | spin => cases h
  | pursuit p =>
    simp only [advance, Pursuit.advance, Pursuit.aimPoint, bind, Except.bind, pure,
      Except.pure] at h
    cases htarget : targets p.target with
    | none =>
      rw [htarget] at h
      cases h
      exact ⟨p, rfl, htarget, rfl⟩
    | some c =>
      rw [htarget] at h
      cases h

end Rule

/-! ### Positions -/

namespace Position

variable {α : Type}

/-- Something that changes a position in place.  A failure keeps it as it was left. -/
abbrev Procedure (α : Type) := ExceptT MotionError (StateM Position) α

/-- Puts the kinematic state and the rule back to what they were before. -/
def putBack (before : Position) : Procedure Unit :=
  modify fun p => { p with state := before.state, rule := before.rule }

/-- Lets `move` change the position.  If that fails, or leads to something that is not finite, the
kinematic state and the rule are put back. -/
def guarded (move : Procedure α) : Procedure α := do
  let before ← get
  let a ← tryCatch move fun e => do
    putBack before
    throw e
  let p ← get
  if p.state.coords.isFinite && p.state.orientation.isFinite then return a
  else
    putBack before
    throw (.nonFinite p.id)

/-- The rule moves the position, and changes itself. -/
def moveInPlace (elapsed : Float) (targets : Lookup) : Procedure Bool := do
  let p ← get
  match p.rule.advance p.state elapsed targets with
  | .error e => throw e
  | .ok a =>
    set { p with state := a.state, rule := a.rule }
    return a.changed

/-- Moves in place for `elapsed` seconds; tells whether the rule reports a change. -/
def advanceInPlace (elapsed : Float) (targets : Lookup) : Procedure Bool :=
  guarded (moveInPlace elapsed targets)

/-- Whether or not it fails, nothing changes but the kinematic state and the rule. -/
def Procedure.IsMove (move : Procedure α) : Prop :=
  ∀ p : Position, ∃ state rule, (move.run.run p).2 = { p with state := state, rule := rule }

/-- A guarded move fails and leaves the position exactly as it was, or succeeds and does what the
move does. -/
theorem guarded_run {move : Procedure α} (hmove : move.IsMove) (p : Position) :
    (∃ e, (guarded move).run.run p = (.error e, p) ∧
      ((move.run.run p).1 = .error e ∨ e = .nonFinite p.id)) ∨
    ∃ a p', (guarded move).run.run p = (.ok a, p') ∧ move.run.run p = (.ok a, p') ∧
      p'.state.coords.isFinite = true ∧ p'.state.orientation.isFinite = true := by
  obtain ⟨state, rule, hleft⟩ := hmove p
  unfold guarded
  rw [run_bind, run_get]
  simp only [run_bind, run_tryCatch]
  rcases hrun : move.run.run p with ⟨e | a, p'⟩
  · rw [hrun] at hleft
    obtain rfl : p' = { p with state := state, rule := rule } := hleft
    exact .inl ⟨e, rfl, .inl rfl⟩
  · rw [hrun] at hleft
    obtain rfl : p' = { p with state := state, rule := rule } := hleft
    simp only [run_get]
    by_cases hfinite : (state.coords.isFinite && state.orientation.isFinite) = true
    · rw [if_pos hfinite]
      rw [Bool.and_eq_true] at hfinite
      exact .inr ⟨a, _, rfl, rfl, hfinite⟩
    · rw [if_neg hfinite]
      exact .inl ⟨_, rfl, .inr rfl⟩

variable (p : Position) (elapsed : Float) (targets : Lookup)

theorem moveInPlace_run : (moveInPlace elapsed targets).run.run p =
    match p.rule.advance p.state elapsed targets with
    | .error e => (.error e, p)
    | .ok a => (.ok a.changed, { p with state := a.state, rule := a.rule }) := by
  unfold moveInPlace
  simp only [run_bind, run_get]
  cases p.rule.advance p.state elapsed targets with
  | error e => rfl
  | ok a => rfl

theorem isMove_moveInPlace : (moveInPlace elapsed targets).IsMove := by
  intro p
  rw [moveInPlace_run]
  cases p.rule.advance p.state elapsed targets with
  | error e => exact ⟨p.state, p.rule, rfl⟩
  | ok a => exact ⟨a.state, a.rule, rfl⟩

/-- The advance in place comes to the same as the other one, and changes nothing if that fails. -/
theorem advanceInPlace_run : (advanceInPlace elapsed targets).run.run p =
    match p.advance elapsed targets with
    | .error e => (.error e, p)
    | .ok (p', changed) => (.ok changed, p') := by
  have hmove := moveInPlace_run p elapsed targets
  unfold advanceInPlace guarded advance
  rw [run_bind, run_get]
  simp only [run_bind, run_tryCatch, hmove]
  cases p.rule.advance p.state elapsed targets with
  | error e => rfl
  | ok a =>
    simp only [run_get]
    split <;> rfl

end Position

/-- Advances are atomic.  Whatever a rule does in place to the kinematic state of a position and to
itself, if it fails or the coordinates or the orientation are not finite afterwards, then everything
is put back.  So if an advance fails, be it that the rule pursues something that is not tracked or
that the result is not finite, the position is exactly what it was.  If it succeeds, coordinates and
orientation are finite, and nothing has changed but the kinematic state and the true anomaly of an
orbit.  This is so for any position, any rule, valid or not, any duration and any look-up, whether
the advance is made in place or not. -/
theorem Position.advance_atomic (p : Position) (elapsed : Float) (targets : Lookup) :
    (∀ (move : Procedure Bool) e after, move.IsMove →
      (guarded move).run.run p = (.error e, after) → after = p) ∧
    (∀ e after, (advanceInPlace elapsed targets).run.run p = (.error e, after) →
      after = p ∧ p.advance elapsed targets = .error e ∧
      ((∃ q, p.rule = .pursuit q ∧ targets q.target = none ∧ e = .targetMissing q.target) ∨
        e = .nonFinite p.id)) ∧
    ∀ changed after, (advanceInPlace elapsed targets).run.run p = (.ok changed, after) →
      p.advance elapsed targets = .ok (after, changed) ∧
      after.state.coords.isFinite = true ∧ after.state.orientation.isFinite = true ∧
      ∃ state θ, after = { p with state := state, rule := p.rule.atAnomaly θ } := by
  have hinPlace := p.advanceInPlace_run elapsed targets
  refine ⟨?_, ?_, ?_⟩
  · intro move e after hmove hrun
    obtain ⟨e', hfails, -⟩ | ⟨a, p', hsucceeds, -⟩ := guarded_run hmove p
    · rw [hrun] at hfails
      exact congrArg Prod.snd hfails
    · rw [hrun] at hsucceeds
      cases congrArg Prod.fst hsucceeds
  · intro e after hrun
    rw [hinPlace] at hrun
    cases hadvance : p.advance elapsed targets with
    | ok r =>
      rw [hadvance] at hrun
      cases congrArg Prod.fst hrun
    | error e' =>
      rw [hadvance] at hrun
      cases hrun
      refine ⟨rfl, rfl, ?_⟩
      unfold advance at hadvance
      cases hrule : p.rule.advance p.state elapsed targets with
      | error e' =>
        rw [hrule] at hadvance
        cases hadvance
        exact .inl (Rule.advance_eq_error hrule)
      | ok a =>
        rw [hrule] at hadvance
        simp only [] at hadvance
        split at hadvance
        · cases hadvance
        · cases hadvance
          exact .inr rfl
  · intro changed after hrun
    rw [hinPlace] at hrun
    cases hadvance : p.advance elapsed targets with
    | error e =>
      rw [hadvance] at hrun
      cases congrArg Prod.fst hrun
    | ok r =>
      obtain ⟨p', changed'⟩ := r
      rw [hadvance] at hrun
      cases hrun
      obtain ⟨a, ha, hcoords, horientation, rfl⟩ := advance_eq_ok hadvance
      obtain ⟨θ, hrule⟩ := Rule.advance_eq_ok ha
      exact ⟨rfl, hcoords, horientation, a.state, θ, by rw [hrule]⟩

/-! ### Two positions that are lost -/

namespace Lost

/-- Follows what is not there. -/
def follower : Position where
  id := ⟨1⟩
  rule := .pursuit ⟨⟨2⟩, Vec3.origin, 0.0, 1.0, true⟩

/-- One step from where there are no numbers any more. -/
def straggler : Position where
  id := ⟨1⟩
  state := { (Kinematics.initial : Kinematics Float) with coords := ⟨1.5e308, 0.0, 0.0⟩ }
  rule := .cruise ⟨⟨1.0, 0.0, 0.0⟩, 1e308, none, none⟩

end Lost

open Lost in
/-- Neither position is able to advance, and both are put back. -/
theorem Position.advance_atomic_lost :
    (∃ e, (advanceInPlace 1.0 fun _ => none).run.run follower = (.error e, follower)) ∧
      ∃ e, (advanceInPlace 1.0 fun _ => none).run.run straggler = (.error e, straggler) := by
  have hfails : ∀ p : Position, (p.advance 1.0 fun _ => none).isOk = false →
      ∃ e, (advanceInPlace 1.0 fun _ => none).run.run p = (.error e, p) := by
    intro p hp
    obtain ⟨hback, -, hdone⟩ := advance_atomic p 1.0 fun _ => none
    rcases hrun : (advanceInPlace 1.0 fun _ => none).run.run p with ⟨e | changed, after⟩
    · rw [hback _ e after (isMove_moveInPlace 1.0 _) hrun]
      exact ⟨e, rfl⟩
    · rw [(hdone changed after hrun).1] at hp
      cases hp
  exact ⟨hfails follower (by decide +kernel), hfails straggler (by decide +kernel)⟩

end Orrery
