import Orrery.Proofs.Chronicle
import Orrery.Proofs.Entities
import Orrery.Proofs.Round

/-!
# Runs of operations

The registry is used through operations.  Each of them first changes the world as one unit, its
*commit*, and then tells the listeners, who may go on to use the world themselves.  So whatever
happens to a world, in whatever order, is a list of commits; `Operation.perform_eq_after` proves
this of the operations of `Orrery.World`.  `World.after` is the world after such a list and
`World.deeds` what commands did meanwhile.
-/

namespace Orrery

variable {κ ε : Type}

/-- What a world is asked for. -/
inductive Operation (κ ε : Type) where
  /-- To add an entity. -/
  | create (e : Entity)
  /-- To schedule a command. -/
  | schedule (c : Command κ)
  /-- To tick all commands. -/
  | tick (now : Float)
  /-- To stop all commands that act on an entity. -/
  | stopCommands (now : Float) (id : EntityId)
  /-- To remove an entity. -/
  | remove (now : Float) (id : EntityId)
  /-- To hand material over. -/
  | transfer (src dst : EntityId) (material : String) (quantity : UInt32)
  /-- To replace the listeners of an entity. -/
  | listen (id : EntityId) (events : EventTable)
  /-- To let positions move and the surroundings change in any way. -/
  | drift (tracker : Tracker) (outside : ε)

namespace World

/-- The world with other entities and commands. -/
def withRegistry (w : World κ ε) (r : Registry κ) : World κ ε := { w with registry := r }

/-- Replaces the listeners of an entity. -/
def listen (w : World κ ε) (id : EntityId) (events : EventTable) : World κ ε :=
  w.withRegistry { w.registry with entities := w.registry.entities.putEvents id events }

end World

namespace Operation

/-- What an operation does as one unit, together with what commands do in the course of it. -/
def commit (host : CommandHost κ ε) (w : World κ ε) : Operation κ ε → List (Deed κ) × World κ ε
  | create e =>
    match w.registry.create e with
    | .ok r => ([], w.withRegistry r)
    | .error _ => ([], w)
  | schedule c =>
    match w.registry.addCommand c with
    | .ok r => ([], w.withRegistry r)
    | .error _ => ([], w)
  | tick now =>
    match w.registry.check with
    | .ok () =>
      let x := ((w.session now).tick host).2
      (x.setting.chronicle, w.resume x)
    | .error _ => ([], w)
  | stopCommands now id =>
    match w.registry.check with
    | .ok () =>
      let x := ((w.stopping now id).meetRequests host).2
      (x.setting.chronicle, w.resume x)
    | .error _ => ([], w)
  | remove now id =>
    match w.registry.get id with
    | .ok _ =>
      let x := ((w.stopping now id).meetRequests host).2
      (x.setting.chronicle, (w.resume x).erase id)
    | .error _ => ([], w)
  | transfer src dst material quantity =>
    ([], w.withRegistry
      (w.registry.transfer w.tracker.coordinatesOf src dst material quantity).2)
  | listen id events => ([], w.listen id events)
  | drift tracker outside => ([], { w with tracker := tracker, outside := outside })

/-- The tick of a world with one command which is over. -/
theorem commit_tick_singleton (host : CommandHost κ ε) {w : World κ ε} {c : Command κ} {now : Float}
    (hcheck : w.registry.check = .ok ()) (h : w.registry.schedule.commands = [c])
    (hremoved : (c.tick host (w.session now).setting).1.removed = true) :
    (tick now).commit host w =
      ((c.tick host (w.session now).setting).2.2.chronicle, w.resume
        ⟨{}, { (c.tick host (w.session now).setting).2.2 with stopRequests := [] }⟩) := by
  simp only [commit, hcheck]
  rw [Session.tick_singleton host (x := w.session now) h hremoved]

/-- What an operation does, listeners included. -/
def perform (host : Host κ ε) (w : World κ ε) : Operation κ ε → World κ ε
  | tick now => (w.tickCommands host now).2
  | stopCommands now id => (w.stopCommands host now id).2
  | remove now id => (w.remove host now id).2
  | transfer src dst material quantity => (w.transfer host src dst material quantity).2
  | op => (op.commit host.toCommandHost w).2

end Operation

namespace World

/-- The world after some operations have been performed. -/
def performAll (host : Host κ ε) (w : World κ ε) (ops : List (Operation κ ε)) : World κ ε :=
  ops.foldl (fun w op => op.perform host w) w

variable (host : CommandHost κ ε)

/-- The world after the commits of some operations. -/
def after (w : World κ ε) (ops : List (Operation κ ε)) : World κ ε :=
  ops.foldl (fun w op => (op.commit host w).2) w

/-- What commands do in the course of the commits of some operations. -/
def deeds (w : World κ ε) : List (Operation κ ε) → List (Deed κ)
  | [] => []
  | op :: ops => (op.commit host w).1 ++ deeds (op.commit host w).2 ops

theorem after_append (w : World κ ε) (ops ops' : List (Operation κ ε)) :
    w.after host (ops ++ ops') = (w.after host ops).after host ops' := List.foldl_append ..

/-- What every operation keeps, a run of them keeps. -/
theorem after_induction {P : World κ ε → Prop} {allowed : Operation κ ε → Prop}
    (hcommit : ∀ w op, allowed op → P w → P (op.commit host w).2) {w : World κ ε} (hw : P w)
    {ops : List (Operation κ ε)} (hops : ∀ op ∈ ops, allowed op) : P (w.after host ops) := by
  induction ops generalizing w with
  | nil => exact hw
  | cons op ops ih =>
    exact ih (hcommit w op (hops op (List.mem_cons_self ..)) hw)
      fun op' h => hops op' (List.mem_cons_of_mem _ h)

end World

/-! ### Registries -/

namespace Registry

variable {r r' : Registry κ}

theorem check_of_intact (h : r.poisoned = false) : r.check = .ok () := by
  unfold check
  rw [h]
  rfl

theorem create_eq_ok {e : Entity} (h : r.create e = .ok r') :
    ∃ es, r.entities.add e = .ok es ∧ r' = { r with entities := es } := by
  unfold create check at h
  cases hpoisoned : r.poisoned <;> rw [hpoisoned] at h
  · cases hadd : r.entities.add e with
    | error err =>
      rw [hadd] at h
      cases h
    | ok es =>
      rw [hadd] at h
      cases h
      exact ⟨es, rfl, rfl⟩
  · cases h

theorem addCommand_eq_ok {c : Command κ} (h : r.addCommand c = .ok r') :
    ∃ schedule, r.schedule.add c = .ok schedule ∧ r' = { r with schedule := schedule } := by
  unfold addCommand check at h
  cases hpoisoned : r.poisoned <;> rw [hpoisoned] at h
  · cases hadd : r.schedule.add c with
    | error err =>
      rw [hadd] at h
      cases h
    | ok schedule =>
      rw [hadd] at h
      cases h
      exact ⟨schedule, rfl, rfl⟩
  · cases h

theorem changeHold_eq_ok {es es' : Entities} {id : EntityId} {f : Hold → Except HoldFault Hold}
    (h : changeHold es id f = .ok es') :
    ∃ hold hold', es.hold id = .ok hold ∧ f hold = .ok hold' ∧ es' = es.putHold id hold' := by
  unfold changeHold at h
  cases hhold : es.hold id with
  | error err =>
    rw [hhold] at h
    cases h
  | ok hold =>
    rw [hhold] at h
    cases hf : f hold with
    | error fault =>
      simp only [bind, Except.bind, hf] at h
      cases h
    | ok hold' =>
      simp only [bind, Except.bind, hf] at h
      cases h
      exact ⟨hold, hold', rfl, hf, rfl⟩

/-- Handing material over replaces holds, and nothing else. -/
theorem moveMaterial_keeps {P : Entities → Prop}
    (hput : ∀ es id hold, P es → P (es.putHold id hold)) {es : Entities} (hes : P es)
    (src dst : EntityId) (material : String) (quantity : UInt32) :
    P (moveMaterial es src dst material quantity).2 := by
  have hchange : ∀ {es es' : Entities} {id : EntityId} {f : Hold → Except HoldFault Hold},
      P es → changeHold es id f = .ok es' → P es' := by
    intro es es' id f hes h
    obtain ⟨hold, hold', -, -, rfl⟩ := changeHold_eq_ok h
    exact hput es id hold' hes
  unfold moveMaterial
  split
  · exact hes
  · next credited hcredited =>
    split
    · next moved hmoved => exact hchange (hchange hes hcredited) hmoved
    · split
      · next restored hrestored => exact hchange (hchange hes hcredited) hrestored
      · exact hchange hes hcredited

theorem outline?_moveMaterial (es : Entities) (src dst : EntityId) (material : String)
    (quantity : UInt32) : (moveMaterial es src dst material quantity).2.outline? = es.outline? :=
  moveMaterial_keeps (P := fun es' => es'.outline? = es.outline?)
    (fun es' id hold h => (es'.outline?_putHold id hold).trans h) rfl src dst material quantity

theorem transfer_snd (r : Registry κ) (coordinates : Lookup) (src dst : EntityId)
    (material : String) (quantity : UInt32) :
    (r.transfer coordinates src dst material quantity).2 = r ∨
      (r.transfer coordinates src dst material quantity).2 =
        { r with entities := (moveMaterial r.entities src dst material quantity).2 } := by
  unfold transfer
  split
  · exact .inl rfl
  · exact .inl rfl
  · right
    rcases moveMaterial r.entities src dst material quantity with ⟨_ | _, entities⟩ <;> rfl

end Registry

/-! ### Effects -/

/-- What the commit of an operation can come to: the operation is refused, or it does what it is
meant to do. -/
inductive Operation.Effect (host : CommandHost κ ε) (w : World κ ε) :
    Operation κ ε → List (Deed κ) × World κ ε → Prop where
  | refused (op : Operation κ ε) : Effect host w op ([], w)
  | create {e : Entity} {es : Entities} (h : w.registry.entities.add e = .ok es) :
    Effect host w (.create e) ([], w.withRegistry { w.registry with entities := es })
  | schedule {c : Command κ} {s : Schedule κ} (h : w.registry.schedule.add c = .ok s) :
    Effect host w (.schedule c) ([], w.withRegistry { w.registry with schedule := s })
  | tick (now : Float) :
    Effect host w (.tick now) (((w.session now).tick host).2.setting.chronicle,
      w.resume ((w.session now).tick host).2)
  | stopCommands (now : Float) (id : EntityId) :
    Effect host w (.stopCommands now id)
      (((w.stopping now id).meetRequests host).2.setting.chronicle,
        w.resume ((w.stopping now id).meetRequests host).2)
  | remove (now : Float) (id : EntityId) :
    Effect host w (.remove now id)
      (((w.stopping now id).meetRequests host).2.setting.chronicle,
        (w.resume ((w.stopping now id).meetRequests host).2).erase id)
  | transfer (src dst : EntityId) (material : String) (quantity : UInt32) :
    Effect host w (.transfer src dst material quantity) ([], w.withRegistry
      { w.registry with
        entities := (Registry.moveMaterial w.registry.entities src dst material quantity).2 })
  | listen (id : EntityId) (events : EventTable) :
    Effect host w (.listen id events) ([], w.listen id events)
  | drift (tracker : Tracker) (outside : ε) :
    Effect host w (.drift tracker outside) ([], { w with tracker := tracker, outside := outside })

/-- A commit has one of these effects. -/
theorem Operation.effect_commit (host : CommandHost κ ε) (w : World κ ε) (op : Operation κ ε) :
    Effect host w op (op.commit host w) := by
  cases op with
  | create e =>
    simp only [commit]
    split
    · next r hcreate =>
      obtain ⟨es, hadd, rfl⟩ := Registry.create_eq_ok hcreate
      exact .create hadd
    · exact .refused _
  | schedule c =>
    simp only [commit]
    split
    · next r hcommand =>
      obtain ⟨s, hadd, rfl⟩ := Registry.addCommand_eq_ok hcommand
      exact .schedule hadd
    · exact .refused _
  | tick now =>
    simp only [commit]
    split
    · exact .tick now
    · exact .refused _
  | stopCommands now id =>
    simp only [commit]
    split
    · exact .stopCommands now id
    · exact .refused _
  | remove now id =>
    simp only [commit]
    split
    · exact .remove now id
    · exact .refused _
  | transfer src dst material quantity =>
    simp only [commit]
    rcases w.registry.transfer_snd w.tracker.coordinatesOf src dst material quantity with h | h
    · rw [h]
      exact .refused _
    · rw [h]
      exact .transfer src dst material quantity
  | listen id events => exact .listen id events
  | drift tracker outside => exact .drift tracker outside

/-! ### Listeners -/

/-- Listeners of entities do to the world what allowed operations do. -/
def Host.ActsBy (host : Host κ ε) (allowed : Operation κ ε → Prop) : Prop :=
  ∀ listener event w, ∃ ops, (∀ op ∈ ops, allowed op) ∧
    (host.hearEntity listener event w).2 = w.after host.toCommandHost ops

section Listeners

variable {host : Host κ ε} {allowed : Operation κ ε → Prop}

/-- A world that allowed operations lead to. -/
def World.Leads (host : CommandHost κ ε) (allowed : Operation κ ε → Prop) (w w' : World κ ε) :
    Prop :=
  ∃ ops, (∀ op ∈ ops, allowed op) ∧ w' = w.after host ops

theorem World.Leads.refl (w : World κ ε) : w.Leads host.toCommandHost allowed w :=
  ⟨[], by simp, rfl⟩

theorem World.Leads.trans {w w' w'' : World κ ε} (h : w.Leads host.toCommandHost allowed w')
    (h' : w'.Leads host.toCommandHost allowed w'') : w.Leads host.toCommandHost allowed w'' := by
  obtain ⟨ops, hops, rfl⟩ := h
  obtain ⟨ops', hops', rfl⟩ := h'
  refine ⟨ops ++ ops', ?_, (after_append ..).symm⟩
  intro op hop
  exact (List.mem_append.mp hop).elim (hops op) (hops' op)

/-- What every question keeps holds when all have been asked. -/
theorem askAll_keeps {σ ι ρ : Type} {P : σ → Prop} {ask : ι → σ → ρ × σ}
    (hask : ∀ i s, P s → P (ask i s).2) (is : List ι) {s : σ} (hs : P s) :
    P (askAll ask is s).2 := by
  induction is generalizing s with
  | nil => exact hs
  | cons i is ih => exact ih (hask i s hs)

/-- What every listener keeps holds when all announcements have been made. -/
theorem World.announced_keeps {P : World κ ε → Prop}
    (hhear : ∀ listener event w, P w → P (host.hearEntity listener event w).2)
    (announcements : List Announcement) {w : World κ ε} (hw : P w) :
    P (askAll (announce host) announcements w).2 := by
  have hannounce : ∀ (a : Announcement) w, P w → P (announce host a w).2 := fun a w hw =>
    askAll_keeps (fun (s : Subscription) w hw => hhear s.listener a.event w hw) a.subscriptions hw
  exact askAll_keeps hannounce announcements hw

theorem leads_prune (hlisten : ∀ id events, allowed (.listen id events)) (w : World κ ε)
    (rs : List EntityRevocation) (count : Nat) :
    w.Leads host.toCommandHost allowed (w.withRegistry
      { w.registry with entities := (rs.foldl (fun (count, es) r =>
          match (es.get? r.entity).bind Entity.events? with
          | none => (count, es)
          | some events =>
            let (dropped, events) := events.dropKind r.kind r.subscriber
            (count + dropped, es.putEvents r.entity events))
          (count, w.registry.entities)).2 }) := by
  induction rs generalizing w count with
  | nil => exact World.Leads.refl w
  | cons r rs ih =>
    rw [List.foldl_cons]
    cases hevents : (w.registry.entities.get? r.entity).bind Entity.events? with
    | none =>
      simp only [hevents]
      exact ih w count
    | some events =>
      simp only [hevents]
      -- pruning replaces listeners, which is an operation of its own
      refine World.Leads.trans ⟨[.listen r.entity (events.dropKind r.kind r.subscriber).2], ?_, rfl⟩
        (ih (w.listen r.entity (events.dropKind r.kind r.subscriber).2) _)
      simpa using hlisten _ _

/-- Announcements lead to nothing but what operations lead to. -/
theorem leads_deliver (hhost : host.ActsBy allowed)
    (hlisten : ∀ id events, allowed (.listen id events)) (announcements : List Announcement)
    (w : World κ ε) :
    w.Leads host.toCommandHost allowed (World.deliver host announcements w).2 := by
  -- listeners are told one by one, and each may lead the world on
  have htold := World.announced_keeps (P := w.Leads host.toCommandHost allowed)
    (fun listener event w' h => h.trans (hhost listener event w')) announcements
    (World.Leads.refl w)
  unfold World.deliver
  rcases hasked : askAll (World.announce host) announcements w with ⟨reports, w'⟩
  rw [hasked] at htold
  simp only []
  split
  · exact htold
  · split
    · exact htold
    · exact htold.trans (leads_prune hlisten w' _ 0)

/-- An operation commits, and whatever listeners do after that is more of the same. -/
theorem Operation.perform_eq_after (hhost : host.ActsBy allowed)
    (hlisten : ∀ id events, allowed (.listen id events)) (op : Operation κ ε) (w : World κ ε) :
    (op.commit host.toCommandHost w).2.Leads host.toCommandHost allowed (op.perform host w) := by
  cases op with
  | create | schedule | listen | drift => exact World.Leads.refl _
  | tick now =>
    simp only [perform, commit, World.tickCommands]
    cases w.registry.check with
    | error e => exact World.Leads.refl w
    | ok => exact leads_deliver hhost hlisten _ _
  | stopCommands now id =>
    simp only [perform, commit, World.stopCommands]
    cases w.registry.check with
    | error e => exact World.Leads.refl w
    | ok => exact leads_deliver hhost hlisten _ _
  | remove now id =>
    simp only [perform, commit, World.remove]
    cases w.registry.get id with
    | error e => exact World.Leads.refl w
    | ok e =>
      have hdeliver := leads_deliver hhost hlisten
        ((w.stopping now id).meetRequests host.toCommandHost).2.setting.announcements
        ((w.resume ((w.stopping now id).meetRequests host.toCommandHost).2).erase id)
      simp only []
      split
      · exact hdeliver
      · exact hdeliver
  | transfer src dst material quantity =>
    simp only [perform, commit, World.transfer]
    split
    · exact World.Leads.refl _
    · exact leads_deliver hhost hlisten _ _

/-- What every commit keeps, an operation keeps from its own commit on. -/
theorem Operation.perform_of_commit (hhost : host.ActsBy allowed)
    (hlisten : ∀ id events, allowed (.listen id events)) {P : World κ ε → Prop}
    (hcommit : ∀ w op, allowed op → P w → P (op.commit host.toCommandHost w).2)
    (op : Operation κ ε) {w : World κ ε} (hw : P (op.commit host.toCommandHost w).2) :
    P (op.perform host w) := by
  obtain ⟨ops, hops, heq⟩ := op.perform_eq_after hhost hlisten w
  rw [heq]
  exact World.after_induction host.toCommandHost hcommit hw hops

/-- What every commit keeps, operations keep. -/
theorem World.performAll_induction (hhost : host.ActsBy allowed)
    (hlisten : ∀ id events, allowed (.listen id events)) {P : World κ ε → Prop}
    (hcommit : ∀ w op, allowed op → P w → P (op.commit host.toCommandHost w).2)
    {w : World κ ε} (hw : P w) {ops : List (Operation κ ε)} (hops : ∀ op ∈ ops, allowed op) :
    P (w.performAll host ops) := by
  induction ops generalizing w with
  | nil => exact hw
  | cons op ops ih =>
    have hop := hcommit w op (hops op (List.mem_cons_self ..)) hw
    exact ih (Operation.perform_of_commit hhost hlisten hcommit op hop)
      fun op' h => hops op' (List.mem_cons_of_mem _ h)

end Listeners

/-! ### A small world -/

/-- A host without custom commands, around which nothing happens. -/
def Host.still : Host Unit Unit where
  hook _ progress body scene outside := ⟨.ok (), progress, body, scene, outside⟩
  mayExecute _ _ _ := false
  isOver _ _ _ := true
  credit _ outside := outside
  hearPosition _ _ w := (.ok (), w)
  hearEntity _ _ w := (.ok (), w)

theorem Host.actsBy_still (allowed : Operation Unit Unit → Prop) : Host.still.ActsBy allowed :=
  fun _ _ _ => ⟨[], by simp, rfl⟩

namespace Skirmish

/-- The place of both ships. -/
def place : PositionId := ⟨0⟩

/-- A tracker of one place. -/
def tracker : Tracker where
  slots :=
    { entries := [(place, { position := { id := place } })]
      nodup := List.nodup_singleton _ }

/-- A ship that can destroy others with one hit. -/
def hunter : Ship where
  id := ⟨"hunter"⟩
  user := "ann"
  system := "sol"
  position := place
  damage := 50

/-- A ship to be destroyed. -/
def prey : Ship where
  id := ⟨"prey"⟩
  user := "bob"
  system := "sol"
  position := place

/-- The attack of the one on the other. -/
def attack : Attack := ⟨⟨"hunter"⟩, ⟨"prey"⟩⟩

/-- Only this attack is scheduled. -/
def onslaught : Schedule Unit where
  commands := [.attack attack]
  distinct := List.nodup_singleton _

end Skirmish

end Orrery
