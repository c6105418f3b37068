import Orrery.Proofs.SilentRound

/-!
# Worlds in silence

Listeners that only reply, and do nothing else, have no influence on the positions, the entities and
the commands of a world: what an operation leaves and what it answers, apart from what it tells of
the listeners, is what it would leave and answer if there were none.  The operations also leave
everything in its place (`World.IsOrderly`).
-/

namespace Orrery

variable {κ ε : Type}

/-- Listeners that reply, perhaps with an effect on the surroundings, and do nothing else. -/
structure Host.OnlyReplies (host : Host κ ε) : Prop where
  positions : ∀ listener event w, ∃ outside,
    (host.hearPosition listener event w).2 = { w with outside := outside }
  entities : ∀ listener event w, ∃ outside,
    (host.hearEntity listener event w).2 = { w with outside := outside }

theorem Host.onlyReplies_still : Host.still.OnlyReplies where
  positions _ _ w := ⟨w.outside, rfl⟩
  entities _ _ w := ⟨w.outside, rfl⟩

/-- Without any listeners. -/
def Registry.silenced (r : Registry κ) : Registry κ :=
  { r with entities := r.entities.silenced }

/-- Without any listeners, and with nobody around. -/
def World.silenced (w : World κ ε) : World κ Unit := ⟨w.tracker.silenced, w.registry.silenced, ()⟩

/-- What a report tells of the positions, without what it tells of the listeners. -/
def TickReport.silenced (r : TickReport) : TickReport :=
  { r with notified := 0, callbackFailures := 0, revoked := 0 }

/-- What a report tells of the commands, without what it tells of the listeners. -/
def World.CommandReport.silenced (r : CommandReport) : CommandReport := { r with delivery := {} }

/-- Nothing broke off half-way, everything is in its place, and all commands are attacks or mining
runs. -/
structure World.IsOrderly (w : World κ ε) : Prop where
  tracker : w.tracker.IsOrderly
  registry : w.registry.poisoned = false
  entities : w.registry.entities.IsFiled
  builtIn : w.registry.schedule.BuiltIn

theorem World.tracker_silenced (w : World κ ε) : w.silenced.tracker = w.tracker.silenced := rfl

theorem World.registry_silenced (w : World κ ε) : w.silenced.registry = w.registry.silenced := rfl

/-! ### The registry -/

namespace Registry

theorem check_silenced (r : Registry κ) : r.silenced.check = r.check := rfl

theorem entities_silenced (r : Registry κ) : r.silenced.entities = r.entities.silenced := rfl

theorem create_silenced (r : Registry κ) (e : Entity) :
    r.silenced.create e.silenced = (r.create e).map silenced := by
  unfold create
  rw [check_silenced, entities_silenced, Entities.add_silenced]
  cases r.check with
  | error err => rfl
  | ok u => cases r.entities.add e <;> rfl

theorem addCommand_silenced (r : Registry κ) (c : Command κ) :
    r.silenced.addCommand c = (r.addCommand c).map silenced := by
  unfold addCommand
  rw [check_silenced, show r.silenced.schedule = r.schedule from rfl]
  cases r.check with
  | error err => rfl
  | ok u => cases r.schedule.add c <;> rfl

theorem changeHold_silenced (es : Entities) (id : EntityId) (f : Hold → Except HoldFault Hold) :
    changeHold es.silenced id f = (changeHold es id f).map Entities.silenced := by
  unfold changeHold
  rw [es.hold_silenced]
  cases es.hold id with
  | error e => rfl
  | ok hold =>
    simp only [bind, Except.bind]
    cases f hold with
    | error fault => rfl
    | ok hold' => exact congrArg Except.ok (es.putHold_silenced id hold')

theorem moveMaterial_silenced (es : Entities) (src dst : EntityId) (material : String)
    (quantity : UInt32) :
    moveMaterial es.silenced src dst material quantity =
      ((moveMaterial es src dst material quantity).1,
        (moveMaterial es src dst material quantity).2.silenced) := by
  unfold moveMaterial
  rw [changeHold_silenced]
  cases changeHold es dst (·.add material quantity) with
  | error e => rfl
  | ok credited =>
    simp only [Except.map, changeHold_silenced]
    cases changeHold credited src (·.remove material quantity) with
    | ok moved => rfl
    | error e =>
      simp only []
      cases changeHold credited dst (·.remove material quantity) <;> rfl

theorem checkTransfer_silenced (es : Entities) (coordinates : Lookup) (src dst : EntityId)
    (material : String) (quantity : UInt32) :
    checkTransfer es.silenced coordinates src dst material quantity =
      checkTransfer es coordinates src dst material quantity := by
  unfold checkTransfer
  rw [es.require_silenced, es.require_silenced]
  cases es.require src with
  | error e => rfl
  | ok s =>
    cases es.require dst with
    | error e => rfl
    | ok d =>
      simp only [Except.map, bind, Except.bind, Entity.trade?_silenced, Entity.system_silenced,
        Entity.position_silenced]

theorem transfer_silenced (r : Registry κ) (coordinates : Lookup) (src dst : EntityId)
    (material : String) (quantity : UInt32) :
    r.silenced.transfer coordinates src dst material quantity =
      ((r.transfer coordinates src dst material quantity).1.map fun _ => [],
        (r.transfer coordinates src dst material quantity).2.silenced) := by
  unfold transfer
  rw [check_silenced, entities_silenced, checkTransfer_silenced, moveMaterial_silenced]
  cases r.check with
  | error e => rfl
  | ok u =>
    cases checkTransfer r.entities coordinates src dst material quantity with
    | error e => rfl
    | ok u' =>
      simp only []
      rcases moveMaterial r.entities src dst material quantity with ⟨_ | _, es⟩
      · rfl
      · have hnobody : (transferEvents src dst material quantity).filterMap
            es.silenced.announcement? = [] :=
          List.filterMap_eq_nil_iff.mpr fun event _ => es.announcement?_silenced event
        simp only [hnobody]
        rfl

theorem isFiled_moveMaterial {es : Entities} (hes : es.IsFiled) (src dst : EntityId)
    (material : String) (quantity : UInt32) :
    (moveMaterial es src dst material quantity).2.IsFiled :=
  moveMaterial_keeps (P := Entities.IsFiled) (fun _ _ hold h => h.putHold hold) hes src dst material
    quantity

end Registry

/-! ### Listeners -/

/-- Questions to somebody who only replies leave the world alone. -/
theorem exists_askAll_eq {ι ρ : Type} {ask : ι → World κ ε → ρ × World κ ε}
    (hask : ∀ i w, ∃ outside, (ask i w).2 = { w with outside := outside }) (is : List ι)
    (w : World κ ε) : ∃ outside, (askAll ask is w).2 = { w with outside := outside } := by
  refine askAll_keeps (P := fun w' => ∃ outside, w' = { w with outside := outside }) ?_ is
    ⟨w.outside, rfl⟩
  rintro i _ ⟨outside, rfl⟩
  obtain ⟨outside', hleft⟩ := hask i { w with outside := outside }
  exact ⟨outside', hleft⟩

theorem Tracker.silenced_revoke (t : Tracker) (rs : List Revocation) :
    { t with slots := rs.foldl revoke t.slots }.silenced = t.silenced := by
  induction rs generalizing t with
  | nil => rfl
  | cons r rs ih =>
    have hstep : { t with slots := revoke t.slots r }.silenced = t.silenced :=
      silenced_of_rewatch fun slot _ => by
        simp only [Tracked.silenced]
        split <;> rfl
    rw [← hstep]
    exact ih { t with slots := revoke t.slots r }

/-- Dropping subscriptions does not show in silence, and leaves every entity in its place. -/
theorem Entities.prune_silenced (es : Entities) (rs : List EntityRevocation) :
    (es.prune rs).2.silenced = es.silenced ∧ (es.IsFiled → (es.prune rs).2.IsFiled) := by
  unfold prune
  refine List.foldlRecOn (motive := fun x : Nat × Entities =>
    x.2.silenced = es.silenced ∧ (es.IsFiled → x.2.IsFiled)) rs _ ⟨rfl, id⟩ fun x hx r _ => ?_
  obtain ⟨count, es'⟩ := x
  simp only []
  split
  · exact hx
  · exact ⟨(es'.silenced_putEvents ..).trans hx.1, fun hes => (hx.2 hes).putEvents _⟩

namespace World

variable {host : Host κ ε} (mute : Host κ Unit) {w : World κ ε}

/-- Announcements to listeners that only reply leave the world alone. -/
theorem exists_announced_eq (hhost : host.OnlyReplies) (announcements : List Announcement)
    (w : World κ ε) :
    ∃ outside, (askAll (announce host) announcements w).2 = { w with outside := outside } := by
  have hannounce : ∀ (a : Announcement) (w : World κ ε), ∃ outside,
      (announce host a w).2 = { w with outside := outside } := fun a w =>
    exists_askAll_eq (fun s : Subscription => hhost.entities s.listener a.event) a.subscriptions w
  exact exists_askAll_eq hannounce announcements w

/-- Listeners of positions that only reply have no influence but on the watches. -/
theorem notify_silenced (hhost : host.OnlyReplies) (report : TickReport) (calls : List Call)
    (hw : w.IsOrderly) :
    (∃ replies dropped, (w.notify host report calls).1 = .ok (report.answered replies dropped)) ∧
      (w.notify host report calls).2.silenced = w.silenced ∧
      (w.notify host report calls).2.IsOrderly := by
  obtain ⟨outside, hasked⟩ := exists_askAll_eq (fun c : Call =>
    hhost.positions c.notice.listener c.event) calls w
  unfold notify
  rcases haskAll : askAll (fun c : Call => host.hearPosition c.notice.listener c.event) calls w with
    ⟨replies, w'⟩
  rw [haskAll] at hasked
  subst hasked
  obtain ⟨dropped, hprune⟩ :=
    Tracker.exists_prune_eq_ok hw.tracker.intact (Revocation.ofReplies calls replies)
  simp only [hprune]
  refine ⟨⟨replies, dropped, rfl⟩, ?_, hw.tracker.revoke _, hw.registry, hw.entities, hw.builtIn⟩
  exact congrArg (World.mk · w.registry.silenced ()) (w.tracker.silenced_revoke _)

/-- Listeners of entities that only reply have no influence but on the subscriptions. -/
theorem deliver_silenced (hhost : host.OnlyReplies) (announcements : List Announcement)
    (hw : w.IsOrderly) :
    (∃ delivery, (w.deliver host announcements).1 = .ok delivery) ∧
      (w.deliver host announcements).2.silenced = w.silenced ∧
      (w.deliver host announcements).2.IsOrderly := by
  obtain ⟨outside, hasked⟩ := exists_announced_eq hhost announcements w
  unfold deliver
  rcases haskAll : askAll (announce host) announcements w with ⟨reports, w'⟩
  rw [haskAll] at hasked
  subst hasked
  simp only []
  cases revocations announcements reports with
  | nil => exact ⟨⟨_, rfl⟩, rfl, hw.tracker, hw.registry, hw.entities, hw.builtIn⟩
  | cons r rs =>
    obtain ⟨hsilent, hfiled⟩ := w.registry.entities.prune_silenced (r :: rs)
    simp only [Registry.check_of_intact hw.registry]
    refine ⟨⟨_, rfl⟩, ?_, hw.tracker, hw.registry, hfiled hw.entities, hw.builtIn⟩
    simp only [World.silenced, Registry.silenced, hsilent]

/-! ### Positions -/

/-- A change of positions that is the same in silence, and leaves everything in its place, is so
with its notifications. -/
theorem move_silenced (hhost : host.OnlyReplies) (hw : w.IsOrderly)
    {change : Tracker → Except TrackerError (Tracker × TickReport × List Call)}
    (h : change w.tracker.silenced = (change w.tracker).map fun r => (r.1.silenced, r.2.1, []))
    (hkeeps : ∀ r, change w.tracker = .ok r → r.1.IsOrderly) :
    w.silenced.move mute change =
        ((w.move host change).1.map TickReport.silenced, (w.move host change).2.silenced) ∧
      (w.move host change).2.IsOrderly := by
  unfold move
  rw [tracker_silenced, h]
  cases hchange : change w.tracker with
  | error e => exact ⟨rfl, hw⟩
  | ok r =>
    obtain ⟨tracker, report, calls⟩ := r
    have hmoved : { w with tracker := tracker }.IsOrderly :=
      ⟨hkeeps _ hchange, hw.registry, hw.entities, hw.builtIn⟩
    obtain ⟨⟨replies, dropped, hanswer⟩, hsilent, hkept⟩ :=
      notify_silenced hhost report calls hmoved
    refine ⟨?_, hkept⟩
    simp only [hanswer, hsilent]
    rfl

theorem tick_silenced (hhost : host.OnlyReplies) (hw : w.IsOrderly) (elapsed : Float) :
    w.silenced.tick mute elapsed =
        ((w.tick host elapsed).1.map TickReport.silenced, (w.tick host elapsed).2.silenced) ∧
      (w.tick host elapsed).2.IsOrderly :=
  move_silenced mute hhost hw (w.tracker.advance_silenced elapsed) fun r hr => by
    rw [Tracker.advance_eq_ok hw.tracker.intact] at hr
    cases hr
    exact hw.tracker.advance elapsed

theorem stop_silenced (hhost : host.OnlyReplies) (hw : w.IsOrderly) (id : PositionId) :
    w.silenced.stop mute id =
        ((w.stop host id).1.map TickReport.silenced, (w.stop host id).2.silenced) ∧
      (w.stop host id).2.IsOrderly :=
  move_silenced mute hhost hw (w.tracker.stop_silenced id) fun _ hr => hw.tracker.stop hr

/-! ### Commands -/

theorem isOrderly_session (hw : w.IsOrderly) (now : Float) : (w.session now).IsOrderly :=
  ⟨hw.builtIn, hw.entities, hw.tracker⟩

theorem isOrderly_stopping (hw : w.IsOrderly) (now : Float) (id : EntityId) :
    (w.stopping now id).IsOrderly :=
  ⟨hw.builtIn, hw.entities, hw.tracker⟩

theorem isOrderly_resume (hw : w.IsOrderly) {x : Session κ ε} (hx : x.IsOrderly) :
    (w.resume x).IsOrderly :=
  ⟨hx.scene.tracker, hw.registry, hx.scene.entities, hx.builtIn⟩

theorem tickCommands_silenced (hhost : host.OnlyReplies) (hw : w.IsOrderly) (now : Float) :
    w.silenced.tickCommands mute now =
        ((w.tickCommands host now).1.map CommandReport.silenced,
          (w.tickCommands host now).2.silenced) ∧
      (w.tickCommands host now).2.IsOrderly := by
  have hcheck := Registry.check_of_intact hw.registry
  have htick := Session.tick_silenced host.toCommandHost mute.toCommandHost
    (isOrderly_session hw now)
  have hkept := Session.isOrderly_tick host.toCommandHost (isOrderly_session hw now)
  unfold tickCommands
  rw [registry_silenced, Registry.check_silenced, hcheck,
    show w.silenced.session now = (w.session now).silenced from rfl, htick]
  rcases hticked : (w.session now).tick host.toCommandHost with ⟨report, x⟩
  rw [hticked] at hkept
  obtain ⟨⟨delivery, hdelivery⟩, hsilent, horderly⟩ :=
    deliver_silenced hhost x.setting.announcements (isOrderly_resume hw hkept)
  refine ⟨?_, horderly⟩
  simp only [hdelivery, hsilent]
  rfl

theorem stopCommands_silenced (hhost : host.OnlyReplies) (hw : w.IsOrderly) (now : Float)
    (id : EntityId) :
    w.silenced.stopCommands mute now id =
        ((w.stopCommands host now id).1, (w.stopCommands host now id).2.silenced) ∧
      (w.stopCommands host now id).2.IsOrderly := by
  have hcheck := Registry.check_of_intact hw.registry
  have hstop := Session.meetRequests_silenced host.toCommandHost mute.toCommandHost
    (isOrderly_stopping hw now id)
  have hkept := Session.isOrderly_meetRequests host.toCommandHost (isOrderly_stopping hw now id)
  unfold stopCommands
  rw [registry_silenced, Registry.check_silenced, hcheck,
    show w.silenced.stopping now id = (w.stopping now id).silenced from rfl, hstop]
  rcases hstopped : (w.stopping now id).meetRequests host.toCommandHost with ⟨stopped, x⟩
  rw [hstopped] at hkept
  obtain ⟨⟨delivery, hdelivery⟩, hsilent, horderly⟩ :=
    deliver_silenced hhost x.setting.announcements (isOrderly_resume hw hkept)
  refine ⟨?_, horderly⟩
  simp only [hdelivery, hsilent]
  rfl

/-! ### Entities -/

theorem erase_silenced (w : World κ ε) (id : EntityId) :
    w.silenced.erase id = (w.erase id).silenced := by
  have hall : (w.registry.entities.silenced.erase id).all =
      (w.registry.entities.erase id).all.map Entity.silenced := by
    rw [Entities.erase_silenced, Entities.all_silenced]
  unfold erase
  simp only [registry_silenced, Registry.entities_silenced, Entities.get?_silenced, hall]
  rw [Entities.erase_silenced]
  cases w.registry.entities.get? id with
  | none => rfl
  | some e =>
    simp only [Option.map_some, Entity.position_silenced, List.any_map, Function.comp_def]
    cases (w.registry.entities.erase id).all.any (·.position = e.position) with
    | true => rfl
    | false =>
      have hrelease := w.tracker.release_silenced e.position
      exact congrArg (World.mk · _ ()) hrelease

theorem isOrderly_erase (hw : w.IsOrderly) (id : EntityId) : (w.erase id).IsOrderly := by
  refine ⟨?_, hw.registry, hw.entities.erase id, hw.builtIn⟩
  unfold erase
  cases w.registry.entities.get? id with
  | none => exact hw.tracker
  | some e =>
    simp only []
    split
    · exact hw.tracker
    · exact hw.tracker.release e.position

theorem remove_silenced (hhost : host.OnlyReplies) (hw : w.IsOrderly) (now : Float)
    (id : EntityId) :
    w.silenced.remove mute now id =
        ((w.remove host now id).1.map Entity.silenced, (w.remove host now id).2.silenced) ∧
      (w.remove host now id).2.IsOrderly := by
  have hget : w.silenced.registry.get id = (w.registry.get id).map Entity.silenced := by
    unfold Registry.get
    rw [registry_silenced, Registry.check_silenced]
    cases w.registry.check with
    | error e => rfl
    | ok u => exact w.registry.entities.require_silenced id
  have hstop := Session.meetRequests_silenced host.toCommandHost mute.toCommandHost
    (isOrderly_stopping hw now id)
  have hkept := Session.isOrderly_meetRequests host.toCommandHost (isOrderly_stopping hw now id)
  unfold remove
  rw [hget]
  cases w.registry.get id with
  | error e => exact ⟨rfl, hw⟩
  | ok e =>
    simp only [Except.map]
    rw [show w.silenced.stopping now id = (w.stopping now id).silenced from rfl, hstop]
    rcases hstopped : (w.stopping now id).meetRequests host.toCommandHost with ⟨stopped, x⟩
    rw [hstopped] at hkept
    obtain ⟨⟨delivery, hdelivery⟩, hsilent, horderly⟩ := deliver_silenced hhost
      x.setting.announcements (isOrderly_erase (isOrderly_resume hw hkept) id)
    have hremoved := (w.resume x).registry.entities.require_silenced id
    have herased := erase_silenced (w.resume x) id
    simp only [hdelivery]
    refine ⟨?_, horderly⟩
    rw [hsilent, ← herased]
    exact congrArg (·, (w.silenced.resume x.silenced).erase id) hremoved

theorem transfer_silenced (hhost : host.OnlyReplies) (hw : w.IsOrderly) (src dst : EntityId)
    (material : String) (quantity : UInt32) :
    w.silenced.transfer mute src dst material quantity =
        ((w.transfer host src dst material quantity).1,
          (w.transfer host src dst material quantity).2.silenced) ∧
      (w.transfer host src dst material quantity).2.IsOrderly := by
  have htransfer := w.registry.transfer_silenced w.tracker.coordinatesOf src dst material quantity
  have hmoved := Registry.isFiled_moveMaterial hw.entities src dst material quantity
  have hcases := w.registry.transfer_snd w.tracker.coordinatesOf src dst material quantity
  unfold transfer
  rw [tracker_silenced, Tracker.coordinatesOf_silenced, registry_silenced, htransfer]
  rcases hoffer : w.registry.transfer w.tracker.coordinatesOf src dst material quantity with
    ⟨outcome, registry⟩
  rw [hoffer] at hcases
  have hkept : { w with registry := registry }.IsOrderly := by
    rcases hcases with rfl | rfl
    · exact hw
    · exact ⟨hw.tracker, hw.registry, hmoved, hw.builtIn⟩
  cases outcome with
  | error e => exact ⟨rfl, hkept⟩
  | ok announcements =>
    obtain ⟨⟨delivery, hdelivery⟩, hsilent, horderly⟩ :=
      deliver_silenced hhost announcements hkept
    refine ⟨?_, horderly⟩
    simp only [hdelivery, hsilent]
    rfl

end World

end Orrery
