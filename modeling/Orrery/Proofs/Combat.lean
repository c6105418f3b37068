import Orrery.Proofs.Credits
import Orrery.Proofs.Mooring

/-!
# Combat

The vitals of a ship change only when it is hit, and only legal attacks hit: when a command is
executed, its conditions have been checked in the very scene that `execute` finds
(`Command.lawful_tick`).  Each deed finds the entities as the one before it left them
(`Command.threads_tick`), so no change goes unseen, and what holds of every deed adds up to what
becomes of a ship in the course of a run (`Vitals.Wears`).
-/

namespace Orrery

variable {κ ε : Type}

/-! ### Threads -/

/-- Each of some deeds finds what the one before it left, as far as a view of the entities shows;
the first one finds `before`, and the last one leaves `after`. -/
def Threads {α : Type} (view : Entities → α) (before : α) : List (Deed κ) → α → Prop
  | [], after => before = after
  | d :: ds, after => view d.found.entities = before ∧ Threads view (view d.left.entities) ds after

namespace Threads

variable {α β : Type} {view : Entities → α} {before middle after : α} {ds ds' : List (Deed κ)}

theorem append (h : Threads view before ds middle) (h' : Threads view middle ds' after) :
    Threads view before (ds ++ ds') after := by
  induction ds generalizing before with
  | nil =>
    cases h
    exact h'
  | cons d ds ih => exact ⟨h.1, ih h.2⟩

/-- Less shows in a view of a view. -/
theorem map (f : α → β) (h : Threads view before ds after) :
    Threads (fun es => f (view es)) (f before) ds (f after) := by
  induction ds generalizing before with
  | nil => exact congrArg f h
  | cons d ds ih => exact ⟨congrArg f h.1, ih h.2⟩

end Threads

/-- The deeds so far lead from some entities to those that are there now. -/
def Setting.Threaded (es : Entities) (s : Setting κ ε) : Prop :=
  Threads id es s.chronicle s.entities

namespace Command

variable (host : CommandHost κ ε) {es : Entities} {s : Setting κ ε}

theorem threads_run (stage : Stage) (c : Command κ) (hs : s.Threaded es) :
    (c.run host stage s).2.2.Threaded es := by
  unfold Setting.Threaded
  rw [(after_run host stage c s).chronicle]
  exact hs.append ⟨rfl, rfl⟩

theorem threads_tick (c : Command κ) (hs : s.Threaded es) : (c.tick host s).2.2.Threaded es :=
  tick_keeps (P := fun _ s => s.Threaded es) host (fun stage c _ hs => threads_run host stage c hs)
    (fun _ _ _ hs => hs) (Threads.append hs ⟨rfl, rfl⟩)

end Command

namespace Session

variable (host : CommandHost κ ε) {es : Entities} {x : Session κ ε}

theorem threads_tick (hs : x.setting.Threaded es) : (x.tick host).2.setting.Threaded es :=
  (tick_keeps (Q := fun _ => True) host
    (fun c _ _ hs => ⟨trivial, Command.threads_tick host c hs⟩)
    (fun c _ _ hs => Command.threads_run host .stop c hs) (fun _ _ hs => hs)
    (fun _ _ => trivial) hs).2

theorem threads_meetRequests (hs : x.setting.Threaded es) :
    (x.meetRequests host).2.setting.Threaded es :=
  (Sweep.meetRequests_keeps (Q := fun _ => True) (w := { session := x })
    (fun c _ _ hs => Command.threads_run host .stop c hs) (fun _ _ hs => hs)
    (fun _ _ => trivial) hs).2

end Session

/-! ### Hits -/

/-- What makes it legal for an attack to hit in a scene, in which `x` attacks `d`. -/
structure Attack.IsLegal (a : Attack) (scene : Scene) (x d : Ship) : Prop where
  /-- The attacker is there. -/
  attacker : scene.entities.ship a.attacker = .ok x
  /-- The defender is there. -/
  defender : scene.entities.ship a.defender = .ok d
  /-- The attacker is alive. -/
  attackerLives : 0 < x.hp
  /-- The defender is alive. -/
  defenderLives : 0 < d.hp
  /-- No ship attacks itself. -/
  distinct : x.id ≠ d.id
  /-- Both are in the same system. -/
  system : x.system = d.system
  /-- The defender is within reach of the attacker. -/
  reach : ∃ distance, scene.tracker.distanceBetween x.position d.position = some distance ∧
    Scalar.le distance x.attackDistance = true
  /-- The attacker mines nothing. -/
  mining : x.mining = none
  /-- It attacks no other ship. -/
  attacking : ∀ other, x.attacking = some other → other = d.id
  /-- It can do damage. -/
  damage : 0 < x.damage

/-- What a hit by `attacker` does to the vitals of a ship that is alive. -/
structure Vitals.Struck (attacker : EntityId) (v v' : Vitals) : Prop where
  hp : v'.hp ≤ v.hp
  shield : v'.shield ≤ v.shield
  /-- The ship is destroyed when its hit points are used up. -/
  destroyedBy : v'.destroyedBy = if v'.hp = 0 then some attacker else v.destroyedBy

namespace Attack

variable {a : Attack}

theorem exists_isLegal {s : Scene} (h : a.isPossible s = true) : ∃ x d, a.IsLegal s x d := by
  unfold isPossible at h
  split at h
  · next x d hx hd =>
    obtain ⟨distance, hdistance, hcan⟩ := (Option.any_eq_true ..).mp h
    simp only [Ship.canAttack, Ship.alive, Bool.and_eq_true, decide_eq_true_eq, bne_iff_ne, ne_eq,
      beq_iff_eq, Option.isNone_iff_eq_none] at hcan
    obtain ⟨⟨⟨⟨⟨⟨⟨hx', hd'⟩, hne⟩, hsystem⟩, hreach⟩, hmining⟩, hattacking⟩, hdamage⟩ := hcan
    refine ⟨x, d, hx, hd, hx', hd', hne, hsystem, ⟨distance, hdistance, hreach⟩, hmining, ?_,
      hdamage⟩
    intro other hother
    rw [hother] at hattacking
    simpa using hattacking
  · cases h

theorem vitals_struck (a : Attack) {x d : Ship} (hd : 0 < d.hp) :
    d.vitals.Struck a.attacker (a.struck x d).vitals := by
  have hd' : d.hp ≠ 0 := by
    rintro h
    rw [h] at hd
    cases hd
  -- the hull is spared if the shield takes all of the damage
  by_cases habsorbed : x.damage ≤ d.shield
  · have hstruck : (a.struck x d).vitals = ⟨d.hp, d.shield - x.damage, d.destroyedBy⟩ := by
      simp [struck, Ship.absorb, habsorbed, Ship.vitals]
    rw [hstruck]
    refine ⟨UInt32.le_refl _, ?_, (if_neg hd').symm⟩
    rw [UInt32.le_iff_toNat_le] at habsorbed ⊢
    simp only [Ship.vitals, UInt32.toNat_sub_of_le _ _ (UInt32.le_iff_toNat_le.mpr habsorbed)]
    omega
  · have hstruck : (a.struck x d).vitals = ⟨Units.minus d.hp (x.damage - d.shield), 0,
        if Units.minus d.hp (x.damage - d.shield) = 0 then some a.attacker else d.destroyedBy⟩ := by
      have hdestroyed : (d.absorb x.damage).2 =
          decide (Units.minus d.hp (x.damage - d.shield) = 0) := by
        simp [Ship.absorb, habsorbed, Ship.alive, hd, UInt32.pos_iff_ne_zero]
      unfold struck
      rw [hdestroyed]
      by_cases hgone : Units.minus d.hp (x.damage - d.shield) = 0
      · simp [Ship.absorb, habsorbed, Ship.vitals, hgone]
      · simp [Ship.absorb, habsorbed, Ship.vitals, hgone]
    rw [hstruck]
    refine ⟨?_, ?_, rfl⟩
    · rw [UInt32.le_iff_toNat_le, Units.toNat_minus]
      simp only [Ship.vitals]
      omega
    · simp only [UInt32.le_iff_toNat_le, UInt32.toNat_zero, Nat.zero_le]

end Attack

/-- A deed changes the vitals of a ship only if it is a legal hit of an attack on that ship. -/
def Deed.IsLawful (d : Deed κ) : Prop :=
  ∀ id, d.left.entities.vitals? id = d.found.entities.vitals? id ∨
    ∃ c a outcome found left x y v, d = .hook c .execute outcome found left ∧
      c.task = .attack a ∧ a.defender = id ∧ a.IsLegal found x y ∧
      left.entities.vitals? id = some v ∧ y.vitals.Struck a.attacker v

namespace Command

variable (host : CommandHost κ ε) {c : Command κ} {s : Setting κ ε}

/-- All hooks but the hit of an attack leave all vitals alone. -/
theorem lawful_run (hc : c.BuiltIn) {stage : Stage} (hstage : stage ≠ .execute)
    (hs : ∀ d ∈ s.chronicle, d.IsLawful) :
    ∀ d ∈ (c.run host stage s).2.2.chronicle, d.IsLawful := by
  obtain ⟨acts, hacts⟩ := hc.exists_acts
  obtain ⟨-, -, -, hafter⟩ := run_of_acts host hacts stage s
  rw [hafter.chronicle]
  intro d hd
  rcases List.mem_append.mp hd with hd | hd
  · exact hs d hd
  · rw [List.mem_singleton.mp hd]
    intro id
    left
    cases htask : c.task with
    | attack a =>
      rw [acts?_of_attack htask] at hacts
      cases hacts
      exact congrFun (a.written_hook s.scene hstage).vitals? id
    | mining m =>
      rw [acts?_of_mining htask] at hacts
      cases hacts
      exact congrFun (m.written_hook s.scene stage).vitals? id
    | custom =>
      rw [htask] at hacts
      cases hacts

/-- A command that may be executed hits legally, if it hits at all. -/
theorem lawful_execute (hc : c.BuiltIn) (progress : Progress)
    (hmay : c.mayExecute host s = true) (hs : ∀ d ∈ s.chronicle, d.IsLawful) :
    ∀ d ∈ (({ c with progress := progress } : Command κ).run host .execute s).2.2.chronicle,
      d.IsLawful := by
  obtain ⟨acts, hacts⟩ := hc.exists_acts
  obtain ⟨-, -, -, hafter⟩ :=
    run_of_acts host (c := { c with progress := progress }) hacts .execute s
  rw [hafter.chronicle]
  intro d hd
  rcases List.mem_append.mp hd with hd | hd
  · exact hs d hd
  · rw [List.mem_singleton.mp hd]
    cases htask : c.task with
    | attack a =>
      rw [acts?_of_attack htask] at hacts
      cases hacts
      have hpossible : a.isPossible s.scene = true := by
        rw [mayExecute, htask] at hmay
        exact (Bool.and_eq_true_iff.mp hmay).2
      -- what makes the attack possible makes its hit legal
      obtain ⟨x, y, hlegal⟩ := Attack.exists_isLegal hpossible
      have hleft : ((a.hook .execute).run.run s.scene).2.entities =
          s.entities.adjustShip a.defender fun _ => a.struck x y :=
        congrArg (fun r => r.2.entities) (a.execute_run s.scene hlegal.attacker hlegal.defender)
      have hget : s.entities.get? a.defender = some (.ship y) :=
        Entities.ship_eq_ok.mp hlegal.defender
      have hvitals : ∀ id, ((a.hook .execute).run.run s.scene).2.entities.vitals? id =
          if id = a.defender then some (a.struck x y).vitals else s.entities.vitals? id := by
        intro id
        rw [hleft, Entities.vitals?, Entities.adjustShip, Entities.get?_adjust]
        split
        · next hid =>
          rw [hid, hget]
          rfl
        · rfl
      intro id
      by_cases hid : id = a.defender
      · exact .inr ⟨_, a, _, _, _, x, y, (a.struck x y).vitals, rfl, rfl, hid.symm, hlegal,
          (hvitals id).trans (if_pos hid), a.vitals_struck hlegal.defenderLives⟩
      · exact .inl ((hvitals id).trans (if_neg hid))
    | mining m =>
      rw [acts?_of_mining htask] at hacts
      cases hacts
      exact fun id => .inl (congrFun (m.written_hook s.scene .execute).vitals? id)
    | custom =>
      rw [htask] at hacts
      cases hacts

theorem lawful_tick (hc : c.BuiltIn) (hs : ∀ d ∈ s.chronicle, d.IsLawful) :
    ∀ d ∈ (c.tick host s).2.2.chronicle, d.IsLawful := by
  refine (tick_keeps_of_mayExecute (P := fun (c : Command κ) (s : Setting κ ε) =>
    c.BuiltIn ∧ ∀ d ∈ s.chronicle, d.IsLawful) host (fun stage c s hstage hcs => ?_)
    (fun c s progress hmay hcs => ?_) (fun _ _ _ hcs => hcs) ⟨hc, fun d hd => ?_⟩).2
  · rw [hcs.1.run_eq_self]
    exact ⟨hcs.1, lawful_run host hcs.1 hstage hcs.2⟩
  · have hc' : ({ c with progress := progress } : Command κ).BuiltIn := hcs.1
    rw [hc'.run_eq_self]
    exact ⟨hc', lawful_execute host hcs.1 progress hmay hcs.2⟩
  · rcases List.mem_append.mp hd with hd | hd
    · exact hs d hd
    · rw [List.mem_singleton.mp hd]
      exact fun _ => .inl rfl

end Command

namespace Session

variable (host : CommandHost κ ε) {x : Session κ ε}

theorem lawful_tick (hx : x.schedule.BuiltIn) (hs : ∀ d ∈ x.setting.chronicle, d.IsLawful) :
    ∀ d ∈ (x.tick host).2.setting.chronicle, d.IsLawful :=
  (tick_keeps (P := fun s : Setting κ ε => ∀ d ∈ s.chronicle, d.IsLawful) host
    (fun _ s hc hs => ⟨hc.tick host s, Command.lawful_tick host hc hs⟩)
    (fun _ _ hc hs => Command.lawful_run host hc (by decide) hs) (fun _ _ hs => hs) hx hs).2

theorem lawful_meetRequests (hx : x.schedule.BuiltIn)
    (hs : ∀ d ∈ x.setting.chronicle, d.IsLawful) :
    ∀ d ∈ (x.meetRequests host).2.setting.chronicle, d.IsLawful :=
  (Sweep.meetRequests_keeps (P := fun s : Setting κ ε => ∀ d ∈ s.chronicle, d.IsLawful)
    (w := { session := x }) (fun _ _ hc hs => Command.lawful_run host hc (by decide) hs)
    (fun _ _ hs => hs) hx hs).2

end Session

/-! ### Wear -/

/-- What may become of the vitals of a ship. -/
structure Vitals.Wears (v v' : Vitals) : Prop where
  hp : v'.hp ≤ v.hp
  shield : v'.shield ≤ v.shield
  /-- A ship that is destroyed stays as it is. -/
  final : v.hp = 0 → v' = v
  /-- The ship is given another destroyer only if it is destroyed meanwhile. -/
  destroyedBy : v'.destroyedBy ≠ v.destroyedBy → v.hp ≠ 0 ∧ v'.hp = 0

namespace Vitals

variable {v v' v'' : Vitals}

theorem Wears.refl (v : Vitals) : v.Wears v :=
  ⟨UInt32.le_refl _, UInt32.le_refl _, fun _ => rfl, fun h => absurd rfl h⟩

theorem Wears.trans (h : v.Wears v') (h' : v'.Wears v'') : v.Wears v'' := by
  refine ⟨UInt32.le_trans h'.hp h.hp, UInt32.le_trans h'.shield h.shield, fun hgone => ?_,
    fun hchanged => ?_⟩
  · have hsame := h.final hgone
    rw [h'.final (hsame ▸ hgone), hsame]
  · by_cases hfirst : v'.destroyedBy = v.destroyedBy
    · rw [← hfirst] at hchanged
      obtain ⟨hlives, hgone⟩ := h'.destroyedBy hchanged
      refine ⟨fun hgone' => hlives ?_, hgone⟩
      rw [h.final hgone', hgone']
    · obtain ⟨hlives, hgone⟩ := h.destroyedBy hfirst
      exact ⟨hlives, by rw [h'.final hgone, hgone]⟩

theorem Struck.wears {attacker : EntityId} (h : v.Struck attacker v') (hlives : 0 < v.hp) :
    v.Wears v' := by
  have hlives' : v.hp ≠ 0 := UInt32.pos_iff_ne_zero.mp hlives
  refine ⟨h.hp, h.shield, fun hgone => absurd hgone hlives', fun hchanged => ⟨hlives', ?_⟩⟩
  by_contra hgone
  rw [h.destroyedBy, if_neg hgone] at hchanged
  exact hchanged rfl

end Vitals

/-- Lawful deeds only wear a ship down. -/
theorem Threads.wears {id : EntityId} {v : Vitals} {after : Option Vitals} {ds : List (Deed κ)}
    (h : Threads (·.vitals? id) (some v) ds after) (hds : ∀ d ∈ ds, d.IsLawful) :
    ∃ v', after = some v' ∧ v.Wears v' := by
  induction ds generalizing v with
  | nil => exact ⟨v, Eq.symm h, Vitals.Wears.refl v⟩
  | cons d ds ih =>
    obtain ⟨hfound, hrest⟩ := h
    dsimp only at hfound hrest
    obtain ⟨hd, hlawful⟩ := List.forall_mem_cons.mp hds
    obtain hsame | ⟨c, a, outcome, found, left, x, y, v', rfl, -, rfl, hlegal, hleft, hstruck⟩ :=
      hd id
    · rw [hsame, hfound] at hrest
      exact ih hrest hlawful
    · -- the ship that is hit is the one with these vitals
      have hy : found.entities.vitals? a.defender = some y.vitals :=
        Entities.vitals?_eq_some_iff.mpr ⟨y, hlegal.defender, rfl⟩
      have hv : y.vitals = v := Option.some.inj (hy.symm.trans hfound)
      rw [show (Deed.hook c .execute outcome found left).left = left from rfl, hleft] at hrest
      obtain ⟨v'', hafter, hwears⟩ := ih hrest hlawful
      exact ⟨v'', hafter, (hv ▸ hstruck.wears hlegal.defenderLives).trans hwears⟩

/-! ### Runs -/

namespace Registry

theorem vitals?_moveMaterial (es : Entities) (src dst : EntityId) (material : String)
    (quantity : UInt32) : (moveMaterial es src dst material quantity).2.vitals? = es.vitals? :=
  moveMaterial_keeps (P := fun es' => es'.vitals? = es.vitals?)
    (fun _ _ _ h => (Entities.vitals?_adjust fun e => by cases e <;> rfl).trans h) rfl src dst
    material quantity

end Registry

namespace Operation

variable (host : CommandHost κ ε) {w : World κ ε} {id : EntityId} {op : Operation κ ε}

theorem lawful_commit (op : Operation κ ε) (hw : w.registry.schedule.BuiltIn) :
    ∀ d ∈ (op.commit host w).1, d.IsLawful := by
  have heffect := op.effect_commit host w
  generalize op.commit host w = r at heffect ⊢
  cases heffect with
  | refused | create | schedule | transfer | listen | drift => exact List.forall_mem_nil _
  | tick now => exact Session.lawful_tick host (x := w.session now) hw (List.forall_mem_nil _)
  | stopCommands now other | remove now other =>
    exact Session.lawful_meetRequests host (x := w.stopping now other) hw (List.forall_mem_nil _)

/-- An operation that does not remove a ship changes its vitals through deeds only. -/
theorem threads_commit (hspares : op.Spares id) (hw : w.HasShip id) :
    Threads (·.vitals? id) (w.registry.entities.vitals? id) (op.commit host w).1
      ((op.commit host w).2.registry.entities.vitals? id) := by
  have heffect := op.effect_commit host w
  generalize op.commit host w = r at heffect ⊢
  cases heffect with
  | refused | schedule | drift => rfl
  | @create e es hadd =>
    -- the name of the ship is taken
    have hne : id ≠ e.id := by
      rintro rfl
      have hpresent := hw.present
      rw [Entities.outline?, (Entities.get?_of_add hadd).1] at hpresent
      cases hpresent
    exact ((Entities.vitals?_of_add hadd id).trans (if_neg hne)).symm
  | tick now =>
    have hstart : (w.session now).setting.Threaded w.registry.entities := rfl
    exact (Session.threads_tick host hstart).map (·.vitals? id)
  | stopCommands now other =>
    have hstart : (w.stopping now other).setting.Threaded w.registry.entities := rfl
    exact (Session.threads_meetRequests host hstart).map (·.vitals? id)
  | remove now other =>
    have hstart : (w.stopping now other).setting.Threaded w.registry.entities := rfl
    have hthreads := (Session.threads_meetRequests host hstart).map (·.vitals? id)
    -- it is another entity that goes
    have herased : ((w.resume ((w.stopping now other).meetRequests host).2).erase
        other).registry.entities.vitals? id =
          ((w.stopping now other).meetRequests host).2.setting.entities.vitals? id :=
      (Entities.vitals?_erase _ other id).trans (if_neg fun h => hspares h.symm)
    simp only [herased]
    exact hthreads
  | transfer src dst material quantity =>
    exact (congrFun (Registry.vitals?_moveMaterial ..) id).symm
  | listen other events =>
    have hsame : (w.registry.entities.putEvents other events).vitals? =
        w.registry.entities.vitals? := Entities.vitals?_adjust fun e => by cases e <;> rfl
    exact (congrFun hsame id).symm

end Operation

namespace World

/-- What may happen to a world as long as a ship is not removed: operations, with attacks and mining
runs only, and changes of what the schedule remembers of a command.  With it goes what commands do
meanwhile. -/
inductive Course (host : CommandHost κ ε) (id : EntityId) (w : World κ ε) :
    List (Deed κ) → World κ ε → Prop where
  | start : Course host id w [] w
  | operation {ds : List (Deed κ)} {w' : World κ ε} (h : Course host id w ds w')
    {op : Operation κ ε} (hbuiltIn : op.IsBuiltIn) (hspares : op.Spares id) :
    Course host id w (ds ++ (op.commit host w').1) (op.commit host w').2
  | update {ds : List (Deed κ)} {w' : World κ ε} (h : Course host id w ds w') {c : CommandId}
    {progress : Progress} {r : Registry κ}
    (hupdate : w'.registry.updateCommand c progress = .ok r) :
    Course host id w ds (w'.withRegistry r)

namespace Course

variable {host : CommandHost κ ε} {id : EntityId} {w w' w'' : World κ ε} {ds ds' : List (Deed κ)}

theorem trans (h : Course host id w ds w') (h' : Course host id w' ds' w'') :
    Course host id w (ds ++ ds') w'' := by
  induction h' with
  | start =>
    rw [List.append_nil]
    exact h
  | operation _ hbuiltIn hspares ih =>
    rw [← List.append_assoc]
    exact ih.operation hbuiltIn hspares
  | update _ hupdate ih => exact ih.update hupdate

/-- In the course of a run all deeds are lawful, and no change of a ship goes unseen. -/
theorem spec (h : Course host id w ds w') (hw : w.HasShip id) :
    w'.HasShip id ∧ (∀ d ∈ ds, d.IsLawful) ∧
      Threads (·.vitals? id) (w.registry.entities.vitals? id) ds
        (w'.registry.entities.vitals? id) := by
  induction h with
  | start => exact ⟨hw, List.forall_mem_nil _, rfl⟩
  | @operation ds w' _ op hbuiltIn hspares ih =>
    obtain ⟨hship, hlawful, hthreads⟩ := ih
    refine ⟨(Operation.balance_commit host hbuiltIn hspares hship).1, fun d hd => ?_,
      hthreads.append (Operation.threads_commit host hspares hship)⟩
    exact (List.mem_append.mp hd).elim (hlawful d)
      (Operation.lawful_commit host op hship.builtIn d)
  | @update ds w' _ c progress r hupdate ih =>
    obtain ⟨hship, hlawful, hthreads⟩ := ih
    obtain ⟨c, hc, rfl⟩ := Registry.updateCommand_eq_ok hupdate
    exact ⟨⟨hship.builtIn.put (hship.builtIn c hc), hship.present⟩, hlawful, hthreads⟩

end Course

end World

/-- Whatever listeners of entities do is a course that the world may take. -/
def Host.KeepsCourse (host : Host κ ε) (id : EntityId) : Prop :=
  ∀ listener event w, ∃ ds,
    World.Course host.toCommandHost id w ds (host.hearEntity listener event w).2

namespace World

/-- An operation commits, and what its listeners do after that is part of the same course. -/
theorem course_perform {host : Host κ ε} {id : EntityId} (hhost : host.KeepsCourse id)
    {op : Operation κ ε} (hbuiltIn : op.IsBuiltIn) (hspares : op.Spares id) (w : World κ ε) :
    ∃ ds, Course host.toCommandHost id w ((op.commit host.toCommandHost w).1 ++ ds)
      (op.perform host w) := by
  have hcommit : Course host.toCommandHost id w (op.commit host.toCommandHost w).1
      (op.commit host.toCommandHost w).2 := Course.start.operation hbuiltIn hspares
  rcases perform_eq_deliver host op w with heq | ⟨announcements, heq⟩
  · refine ⟨[], ?_⟩
    rw [heq, List.append_nil]
    exact hcommit
  · rw [heq]
    have hstep : ∀ {v v' : World κ ε},
        (∃ ds, Course host.toCommandHost id w ((op.commit host.toCommandHost w).1 ++ ds) v) →
        (∃ ds, Course host.toCommandHost id v ds v') →
        ∃ ds, Course host.toCommandHost id w ((op.commit host.toCommandHost w).1 ++ ds) v' := by
      rintro v v' ⟨ds, h⟩ ⟨ds', h'⟩
      exact ⟨ds ++ ds', by rw [← List.append_assoc]; exact h.trans h'⟩
    -- each listener takes the course further, and so does each subscription that is dropped
    refine deliver_keeps (P := fun v => ∃ ds, Course host.toCommandHost id w
      ((op.commit host.toCommandHost w).1 ++ ds) v) (fun listener event v hv => ?_)
      (fun v other events hv => ?_) announcements ⟨[], by rw [List.append_nil]; exact hcommit⟩
    · exact hstep hv (hhost listener event v)
    · have hlisten : Course host.toCommandHost id v
          ([] ++ ((Operation.listen other events).commit host.toCommandHost v).1)
          ((Operation.listen other events).commit host.toCommandHost v).2 :=
        Course.start.operation trivial trivial
      exact hstep hv ⟨_, hlisten⟩

/-- As long as a ship is not removed, and only attacks and mining runs are scheduled, all deeds are
lawful: a ship is damaged only by the hits of attacks that are legal when they hit.  Every change of
its vitals is that of such a deed.  So its hit points and its shield never increase, nothing changes
any more once it is destroyed, and the one who destroyed it is noted when that happens and at no
other time.  All that operations and their listeners do is such a course. -/
theorem only_legal_attacks_harm (host : Host κ ε) (id : EntityId) :
    (∀ (w : World κ ε) (s : Ship), w.registry.schedule.BuiltIn →
      w.registry.entities.ship id = .ok s → ∀ ds w', Course host.toCommandHost id w ds w' →
        (∀ d ∈ ds, d.IsLawful) ∧ ∃ s', w'.registry.entities.ship id = .ok s' ∧
          Threads (·.vitals? id) (some s.vitals) ds (some s'.vitals) ∧
          s.vitals.Wears s'.vitals) ∧
    (host.KeepsCourse id → ∀ (w : World κ ε) (op : Operation κ ε), op.IsBuiltIn → op.Spares id →
      ∃ ds, Course host.toCommandHost id w ((op.commit host.toCommandHost w).1 ++ ds)
        (op.perform host w)) := by
  refine ⟨fun w s hbuiltIn hs ds w' hcourse => ?_,
    fun hhost w op hbuiltIn hspares => course_perform hhost hbuiltIn hspares w⟩
  have hw : w.HasShip id := ⟨hbuiltIn, by rw [Entities.outline?_of_ship hs]; rfl⟩
  obtain ⟨-, hlawful, hthreads⟩ := hcourse.spec hw
  rw [Entities.vitals?_eq_some_iff.mpr ⟨s, hs, rfl⟩] at hthreads
  obtain ⟨v', hafter, hwears⟩ := hthreads.wears hlawful
  obtain ⟨s', hs', rfl⟩ := Entities.vitals?_eq_some_iff.mp hafter
  rw [hafter] at hthreads
  exact ⟨hlawful, s', hs', hthreads, hwears⟩

/-- In particular so if one ship destroys another one with a hit. -/
theorem only_legal_attacks_harm_skirmish :
    let host := Host.still.toCommandHost
    let id := Skirmish.prey.id
    let w := (Operation.tick 0).commit host Skirmish.onset
    (Course host id Skirmish.onset ([] ++ w.1) w.2 ∧ (∀ d ∈ [] ++ w.1, d.IsLawful) ∧
      ∃ s', w.2.registry.entities.ship id = .ok s' ∧ Skirmish.prey.vitals.Wears s'.vitals ∧
        s'.vitals = ⟨0, 0, some Skirmish.hunter.id⟩) ∧
    ∃ ds, Course host id Skirmish.onset (w.1 ++ ds)
      ((Operation.tick 0).perform Host.still Skirmish.onset) := by
  intro host id w
  obtain ⟨hharm, hperform⟩ := only_legal_attacks_harm Host.still id
  have hbuiltIn : Skirmish.onset.registry.schedule.BuiltIn := by
    simp [Skirmish.onset, Skirmish.onslaught, Schedule.BuiltIn, Command.BuiltIn, Task.drives?,
      Command.attack]
  have hcourse : Course host id Skirmish.onset ([] ++ w.1) w.2 :=
    Course.start.operation trivial trivial
  have hstill : Host.still.KeepsCourse id := fun _ _ _ => ⟨[], .start⟩
  obtain ⟨hlawful, s', hs', -, hwears⟩ :=
    hharm Skirmish.onset Skirmish.prey hbuiltIn rfl _ _ hcourse
  refine ⟨⟨hcourse, hlawful, s', hs', hwears, ?_⟩, hperform hstill _ (.tick 0) trivial trivial⟩
  have hvitals : Skirmish.strike.entities.vitals? id = some ⟨0, 0, some Skirmish.hunter.id⟩ := by
    decide +kernel
  have hafter : w.2.registry.entities = Skirmish.strike.entities := by
    simp only [w, host, Skirmish.commit_onset]
    rfl
  rw [← hafter, Entities.vitals?_eq_some_iff.mpr ⟨s', hs', rfl⟩] at hvitals
  exact Option.some.inj hvitals

end World

end Orrery
