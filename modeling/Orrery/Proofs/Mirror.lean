import Orrery.Proofs.Action

/-!
# Mirrored actions

An action on a state is mirrored by one on an image of that state if both come to the same
(`Mirrors`).  If the hooks of a command are mirrored by what they do in an image of the setting, so
is a whole tick of it (`Reflection.tick`); the image may be one that leaves something out, or one
that adds something which the command does not look at.
-/

namespace Orrery

/-! ### Mirrored actions -/

section Mirrors

variable {ε σ τ α β γ δ : Type} {P : σ → Prop} {π : σ → τ}

/-- In the image of a state with property `P`, the action `y` does what `x` does in that state: it
succeeds if `x` does, with the image of the result, and leaves the image of the state that `x`
leaves.  That state has property `P` again, and the result has property `Q`. -/
structure Mirrors (P : σ → Prop) (π : σ → τ) (Q : α → Prop) (f : α → β)
    (x : ExceptT ε (StateM σ) α) (y : ExceptT ε (StateM τ) β) : Prop where
  keeps : Keeps P x
  yields : ∀ s a, P s → (x.run.run s).1 = .ok a → Q a
  run : ∀ s, P s → y.run.run (π s) = ((x.run.run s).1.map f, π (x.run.run s).2)

namespace Mirrors

variable {Q : α → Prop} {R : γ → Prop} {f : α → β} {g : γ → δ} {x : ExceptT ε (StateM σ) α}
  {y : ExceptT ε (StateM τ) β}

theorem bind {k : α → ExceptT ε (StateM σ) γ} {l : β → ExceptT ε (StateM τ) δ}
    (hx : Mirrors P π Q f x y) (hk : ∀ a, Q a → Mirrors P π R g (k a) (l (f a))) :
    Mirrors P π R g (x >>= k) (y >>= l) := by
  refine ⟨fun s hs => ?_, fun s c hs => ?_, fun s hs => ?_⟩
  all_goals
    have hkeeps := hx.keeps s hs
    have hyields := hx.yields s
    have hrun := hx.run s hs
    rcases hxs : x.run.run s with ⟨_ | a, s'⟩ <;> rw [hxs] at hkeeps hrun hyields
  · rw [run_bind, hxs]
    exact hkeeps
  · rw [run_bind, hxs]
    exact (hk a (hyields a hs rfl)).keeps s' hkeeps
  · rw [run_bind, hxs]
    nofun
  · rw [run_bind, hxs]
    exact (hk a (hyields a hs rfl)).yields s' c hkeeps
  · rw [run_bind, run_bind, hxs, hrun]
    rfl
  · rw [run_bind, run_bind, hxs, hrun]
    exact (hk a (hyields a hs rfl)).run s' hkeeps

theorem pure {a : α} (ha : Q a) :
    Mirrors P π Q f (Pure.pure a : ExceptT ε (StateM σ) α) (Pure.pure (f a)) :=
  ⟨fun _ hs => hs, fun _ _ _ h => Except.ok.inj h ▸ ha, fun _ _ => rfl⟩

theorem throw (e : ε) :
    Mirrors P π Q f (MonadExcept.throw e : ExceptT ε (StateM σ) α) (MonadExcept.throw e) :=
  ⟨fun _ hs => hs, nofun, fun _ _ => rfl⟩

theorem get : Mirrors P π P π (MonadState.get : ExceptT ε (StateM σ) σ) MonadState.get :=
  ⟨fun _ hs => hs, fun _ _ hs h => Except.ok.inj h ▸ hs, fun _ _ => rfl⟩

/-- A result that is no image is the same in both. -/
theorem run_eq {x : ExceptT ε (StateM σ) α} {y : ExceptT ε (StateM τ) α}
    (h : Mirrors P π Q id x y) {s : σ} (hs : P s) :
    y.run.run (π s) = ((x.run.run s).1, π (x.run.run s).2) := by
  rw [h.run s hs]
  cases (x.run.run s).1 <;> rfl

end Mirrors

theorem Mirrors.modify {m : σ → σ} {m' : τ → τ} (hP : ∀ s, P s → P (m s))
    (h : ∀ s, m' (π s) = π (m s)) :
    Mirrors P π (fun _ => True) id (modify m : ExceptT ε (StateM σ) PUnit)
      (modify m' : ExceptT ε (StateM τ) PUnit) :=
  ⟨hP, fun _ _ _ _ => trivial, fun s _ => by rw [run_modify, run_modify, h]; rfl⟩

end Mirrors

/-! ### Ticks -/

/-- A performance whose setting is an image of another one. -/
def Performance.image {κ ε ε' : Type} (π : Setting κ ε → Setting κ ε') (p : Performance κ ε) :
    Performance κ ε' :=
  ⟨p.command, π p.setting, p.executed⟩

/-- In the image of a setting, the hooks of commands with property `P` do what they do in the
setting itself, and leave the image of what they leave there. -/
structure Reflection {κ ε ε' : Type} (host : CommandHost κ ε) (host' : CommandHost κ ε')
    (P : Command κ → Prop) (π : Setting κ ε → Setting κ ε') : Prop where
  now : ∀ s, (π s).now = s.now
  turn : ∀ c s, (π s).note (.turn c (π s).scene) = π (s.note (.turn c s.scene))
  /-- Progress does not matter. -/
  progress : ∀ c progress, P c → P { c with progress := progress }
  keeps : ∀ stage c s, P c → P (c.run host stage s).2.1
  run : ∀ stage c s, P c → c.run host' stage (π s) =
    ((c.run host stage s).1, (c.run host stage s).2.1, π (c.run host stage s).2.2)
  mayExecute : ∀ c s, P c → c.mayExecute host' (π s) = c.mayExecute host s
  isOver : ∀ c s, P c → c.isOver host' (π s) = c.isOver host s

namespace Reflection

variable {κ ε ε' : Type} {host : CommandHost κ ε} {host' : CommandHost κ ε'} {P : Command κ → Prop}
  {π : Setting κ ε → Setting κ ε'}

theorem perform (h : Reflection host host' P π) (stage : Stage) :
    Mirrors (P ·.command) (Performance.image π) (fun _ => True) id
      (Performance.perform host stage) (Performance.perform host' stage) where
  keeps p hp := h.keeps stage p.command p.setting hp
  yields _ _ _ _ := trivial
  run p hp := by
    have hrun := h.run stage p.command p.setting hp
    rw [Performance.run_perform, Performance.run_perform]
    simp only [Performance.image, hrun]
    cases (p.command.run host stage p.setting).1 <;> rfl

theorem setUp (h : Reflection host host' P π) :
    Mirrors (P ·.command) (Performance.image π) (fun _ => True) id
      (Performance.setUp host) (Performance.setUp host') := by
  refine Mirrors.get.bind fun p _ => ?_
  rw [show (p.image π).command = p.command from rfl]
  split
  · exact (h.perform .setup).bind fun _ _ =>
      Mirrors.modify (fun _ hp => h.progress _ _ hp) fun _ => rfl
  · exact Mirrors.pure trivial

theorem execute (h : Reflection host host' P π) :
    Mirrors (P ·.command) (Performance.image π) (fun _ => True) id
      (Performance.execute host) (Performance.execute host') := by
  refine Mirrors.get.bind fun p hp => ?_
  have hmay : (p.image π).command.mayExecute host' (p.image π).setting =
      p.command.mayExecute host p.setting := h.mayExecute _ _ hp
  -- the time of the execution is noted, and it is the same in the image
  have hnote : ∀ p : Performance κ ε, (p.image π).noteRun = p.noteRun.image π := fun p => by
    simp only [Performance.noteRun, Performance.image, h.now]
  rw [hmay]
  split
  · exact Mirrors.bind (Mirrors.modify (fun _ hp => h.progress _ _ hp) hnote) fun _ _ =>
      (h.perform .execute).bind fun _ _ => Mirrors.modify (fun _ hp => hp) fun _ => rfl
  · exact Mirrors.pure trivial

theorem stages (h : Reflection host host' P π) :
    Mirrors (P ·.command) (Performance.image π) (fun _ => True) id
      (Performance.stages host) (Performance.stages host') :=
  h.setUp.bind fun _ _ => (h.perform .before).bind fun _ _ =>
    h.execute.bind fun _ _ => h.perform .after

/-- What the hooks of a command do in the image, its ticks do as well. -/
theorem tick (h : Reflection host host' P π) {c : Command κ} (hc : P c) (s : Setting κ ε) :
    c.tick host' (π s) = ((c.tick host s).1, (c.tick host s).2.1, π (c.tick host s).2.2) := by
  have hstart : ({ command := c, setting := (π s).note (.turn c (π s).scene) } :
      Performance κ ε') = Performance.image π ⟨c, s.note (.turn c s.scene), false⟩ := by
    rw [Performance.image, h.turn]
  have hrun := h.stages.run_eq (s := ⟨c, s.note (.turn c s.scene), false⟩) hc
  have hkept := h.stages.keeps ⟨c, s.note (.turn c s.scene), false⟩ hc
  unfold Command.tick
  simp only [hstart, hrun]
  rcases hstages : (Performance.stages host).run.run ⟨c, s.note (.turn c s.scene), false⟩ with
    ⟨outcome, p⟩
  rw [hstages] at hkept
  have hover := h.isOver p.command p.setting hkept
  have hlast := h.run .teardown p.command p.setting hkept
  simp only [Performance.image, hover, hlast]
  cases p.command.isOver host p.setting <;> rfl

/-- So do stops. -/
theorem halt (h : Reflection host host' P π) {c : Command κ} (hc : P c) (s : Setting κ ε) :
    c.halt host' (π s) = π (c.halt host s) := by
  unfold Command.halt
  rw [h.run .stop c s hc]

end Reflection

end Orrery
