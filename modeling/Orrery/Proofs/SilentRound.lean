import Orrery.Proofs.Silence
import Orrery.Proofs.Upkeep
import Orrery.Proofs.View

/-!
# Rounds in silence

Silence is a view in which all entities are seen, but no listeners (`View.silence`).  So attacks and
mining runs do in silence what they do before listeners, tick by tick and stop by stop, and so does
the meeting of stop requests and a whole round (`Session.tick_silenced`,
`Session.meetRequests_silenced`).  Only what is announced is lost, and what the surroundings make of
the credits.  Commands also leave everything in its place (`Scene.IsOrderly`).
-/

namespace Orrery

variable {κ ε : Type}

/-! ### Silence -/

theorem Entity.mapEvents_silence : Entity.mapEvents (fun _ => {}) = Entity.silenced := by
  funext e
  cases e <;> rfl

/-- All that is seen without any listeners. -/
def View.silence : View where
  sees _ := True
  events _ := {}
  entities := Entities.silenced
  tracker := Tracker.silenced
  announcements _ := []
  get? _ es := by
    rw [Entity.mapEvents_silence]
    exact es.get?_silenced _
  adjust _ _ _ hf es := by
    rw [Entity.mapEvents_silence] at hf
    exact es.adjust_silenced _ hf
  add {e} _ es := by
    rw [Entity.mapEvents_silence]
    exact es.add_silenced e
  distance t := by
    funext a b
    exact t.distanceBetween_silenced a b
  halt := Tracker.halt_silenced
  announcement {event} _ es := by
    rw [es.announcement?_silenced event]
    rfl
  append _ _ := rfl

/-- Without any listeners. -/
def Scene.silenced (s : Scene) : Scene :=
  { s with entities := s.entities.silenced, tracker := s.tracker.silenced, announcements := [] }

/-- In silence. -/
def Deed.silenced : Deed κ → Deed κ
  | turn c found => turn c found.silenced
  | hook c stage outcome found left => hook c stage outcome found.silenced left.silenced

/-- Without any listeners, and with nobody around. -/
def Setting.silenced (s : Setting κ ε) : Setting κ Unit where
  now := s.now
  entities := s.entities.silenced
  tracker := s.tracker.silenced
  outside := ()
  stopRequests := s.stopRequests
  chronicle := s.chronicle.map Deed.silenced

theorem Setting.seen_silence :
    Setting.seen View.silence = (Setting.silenced : Setting κ ε → Setting κ Unit) := by
  have hdeed : Deed.seen View.silence = (Deed.silenced : Deed κ → Deed κ) := by
    funext d
    cases d <;> rfl
  funext s
  unfold seen silenced
  rw [hdeed]
  rfl

theorem reflection_silenced (host : CommandHost κ ε) (mute : CommandHost κ Unit) :
    Reflection host mute Command.BuiltIn Setting.silenced := by
  have h := View.silence.reflection host mute
  have hcovers : ∀ c : Command κ, View.silence.Covers c.footprint := fun _ _ _ => trivial
  rw [Setting.seen_silence] at h
  exact
    { now := h.now
      turn := h.turn
      progress := fun _ _ hc => hc
      keeps := fun stage c s hc => (h.keeps stage c s ⟨hc, hcovers c⟩).1
      run := fun stage c s hc => h.run stage c s ⟨hc, hcovers c⟩
      mayExecute := fun c s hc => h.mayExecute c s ⟨hc, hcovers c⟩
      isOver := fun c s hc => h.isOver c s ⟨hc, hcovers c⟩ }

/-! ### Order -/

/-- Everything is in its place. -/
structure Scene.IsOrderly (s : Scene) : Prop where
  entities : s.entities.IsFiled
  tracker : s.tracker.IsOrderly

theorem Entities.Write.isFiled {es es' : Entities} {p : EntityId → Prop} (h : es.Write p es')
    (hes : es.IsFiled) : es'.IsFiled := by
  cases h with
  | attack | mine | stow => exact hes.adjustShip fun _ hs => hs
  | draw => exact hes.adjustDeposit fun _ hd => hd
  | fill _ hloot =>
    have hid := hes _ _ hloot
    exact hes.adjust fun _ _ => hid
  | leave _ _ _ hadd => exact hes.add hadd

theorem Entities.Written.isFiled {es es' : Entities} {p : EntityId → Prop} (h : es.Written p es')
    (hes : es.IsFiled) : es'.IsFiled := by
  induction h with
  | refl => exact hes
  | tail _ hwrite ih => exact hwrite.isFiled ih

theorem Tracker.IsOrderly.haltAll {t : Tracker} (h : t.IsOrderly) (ids : List PositionId) :
    (t.haltAll ids).IsOrderly :=
  List.foldlRecOn (motive := Tracker.IsOrderly) ids _ h fun _ ht id _ => ht.halt id

theorem Attack.id_struck (a : Attack) (x d : Ship) : (a.struck x d).id = d.id := by
  unfold struck
  split <;> exact d.id_absorb x.damage

namespace Command

variable (host : CommandHost κ ε) {c : Command κ} {s : Setting κ ε}

/-- A hook of an attack or of a mining run leaves everything in its place. -/
theorem BuiltIn.isOrderly_run (hc : c.BuiltIn) (stage : Stage) (hs : s.scene.IsOrderly) :
    (c.run host stage s).2.2.scene.IsOrderly := by
  constructor
  · show (c.run host stage s).2.2.entities.IsFiled
    obtain hwritten | ⟨a, x, d, -, hd, hhit⟩ := hc.run_writes host stage s
    · exact hwritten.isFiled hs.entities
    · have hid : (a.struck x d).id = a.defender :=
        (a.id_struck x d).trans (hs.entities _ _ (Entities.ship_eq_ok.mp hd))
      -- a hit puts another ship in the place of the defender, under the same name
      rw [hhit]
      exact hs.entities.adjustShip fun _ _ => hid
  · show (c.run host stage s).2.2.tracker.IsOrderly
    rw [hc.tracker_run host stage s (.ok ()) s.scene]
    exact hs.tracker.haltAll _

theorem BuiltIn.isOrderly_tick (hc : c.BuiltIn) (hs : s.scene.IsOrderly) :
    (c.tick host s).2.2.scene.IsOrderly :=
  (tick_keeps host (P := fun c s => c.BuiltIn ∧ s.scene.IsOrderly)
    (fun stage c s h => ⟨by rw [h.1.run_eq_self]; exact h.1, h.1.isOrderly_run host stage h.2⟩)
    (fun _ _ _ h => h) ⟨hc, hs.entities, hs.tracker⟩).2

theorem BuiltIn.isOrderly_halt (hc : c.BuiltIn) (hs : s.scene.IsOrderly) :
    (c.halt host s).scene.IsOrderly := hc.isOrderly_run host .stop hs

end Command

/-! ### Stop requests -/

/-- In silence. -/
def Session.silenced (x : Session κ ε) : Session κ Unit := ⟨x.schedule, x.setting.silenced⟩

/-- Nothing but attacks and mining runs, with everything in its place. -/
structure Session.IsOrderly (x : Session κ ε) : Prop where
  builtIn : x.schedule.BuiltIn
  scene : x.setting.scene.IsOrderly

namespace Sweep

variable (host : CommandHost κ ε) (mute : CommandHost κ Unit) {w : Sweep κ ε}

/-- In silence. -/
def silenced (w : Sweep κ ε) : Sweep κ Unit := ⟨w.stopped, w.cursor, w.session.silenced⟩

theorem isOrderly_stopAt (hw : w.session.IsOrderly) {i : Nat} (h : i < w.commands.length) :
    (w.stopAt host i w.commands[i]).session.IsOrderly where
  builtIn := fun c hc => hw.builtIn c ((List.eraseIdx_sublist ..).subset hc)
  scene := (hw.builtIn _ (List.getElem_mem h)).isOrderly_halt host hw.scene

theorem stopAt_silenced (hw : w.session.IsOrderly) {i : Nat} (h : i < w.commands.length) :
    w.silenced.stopAt mute i w.commands[i] = (w.stopAt host i w.commands[i]).silenced := by
  have hhalt := (reflection_silenced host mute).halt (hw.builtIn _ (List.getElem_mem h))
    w.session.setting
  unfold stopAt
  rw [show w.silenced.session.setting = w.session.setting.silenced from rfl, hhalt]
  rfl

theorem stopActing_silenced (id : EntityId) (i : Nat) (w : Sweep κ ε) (hw : w.session.IsOrderly) :
    stopActing mute id i w.silenced = (stopActing host id i w).silenced := by
  -- both sweeps take the same way, since who is concerned does not depend on listeners
  induction i, w using stopActing.induct host id with
  | case1 i w h hc ih =>
    have hsilent : stopActing mute id i w.silenced =
        stopActing mute id i (w.silenced.stopAt mute i w.commands[i]) := by
      rw [stopActing]
      exact (dif_pos h).trans (if_pos hc)
    rw [hsilent, stopAt_silenced host mute hw h, ih (isOrderly_stopAt host hw h)]
    conv_rhs => rw [stopActing, dif_pos h, if_pos hc]
  | case2 i w h hc ih =>
    have hsilent : stopActing mute id i w.silenced = stopActing mute id (i + 1) w.silenced := by
      rw [stopActing]
      exact (dif_pos h).trans (if_neg hc)
    rw [hsilent, ih hw]
    conv_rhs => rw [stopActing, dif_pos h, if_neg hc]
  | case3 i w h =>
    have hsilent : stopActing mute id i w.silenced = w.silenced := by
      rw [stopActing]
      exact dif_neg h
    rw [hsilent]
    conv_rhs => rw [stopActing, dif_neg h]

theorem isOrderly_stopActing (id : EntityId) (hw : w.session.IsOrderly) :
    (stopActing host id 0 w).session.IsOrderly :=
  keeps_stopActing (P := fun w : Sweep κ ε => w.session.IsOrderly) id
    (fun _ _ h _ hw => isOrderly_stopAt host hw h) 0 w hw

/-- Stop requests are met in the same way in silence. -/
theorem meetRequests_silenced (w : Sweep κ ε) (hw : w.session.IsOrderly) :
    meetRequests mute w.silenced = (meetRequests host w).silenced := by
  induction w using meetRequests.induct host with
  | case1 w h => rw [meetRequests_nil host h, meetRequests_nil mute h]
  | case2 w id queue h ih =>
    have hpopped : (w.withRequests queue).session.IsOrderly := ⟨hw.builtIn, hw.scene⟩
    rw [meetRequests_cons host h, meetRequests_cons mute h,
      ← ih (isOrderly_stopActing host id hpopped), ← stopActing_silenced host mute id 0 _ hpopped]
    rfl

end Sweep

/-! ### Rounds -/

namespace Round

variable (host : CommandHost κ ε) (mute : CommandHost κ Unit) {r : Round κ ε} {c : Command κ}

/-- In silence. -/
def silenced (r : Round κ ε) : Round κ Unit := ⟨r.report, r.cursor, r.session.silenced⟩

theorem isOrderly_turn (hr : r.session.IsOrderly) (hc : c.BuiltIn) :
    (r.turn host c).session.IsOrderly := by
  obtain ⟨hbuiltIn, hscene⟩ := turn_keeps (Q := Command.BuiltIn)
    (P := fun s => s.scene.IsOrderly) (fun c s hc hs => ⟨hc.tick host s, hc.isOrderly_tick host hs⟩)
    (fun c s hc hs => hc.isOrderly_halt host hs) (fun _ _ hs => ⟨hs.entities, hs.tracker⟩)
    hr.builtIn hr.scene hc
  exact ⟨hbuiltIn, hscene⟩

theorem turn_silenced (hr : r.session.IsOrderly) (hc : c.BuiltIn) :
    r.silenced.turn mute c = (r.turn host c).silenced := by
  have htick := (reflection_silenced host mute).tick hc r.session.setting
  obtain ⟨hbuiltIn, hscene⟩ := afterTick_keeps (P := fun s : Setting κ ε => s.scene.IsOrderly)
    hr.builtIn (c.tick host r.session.setting).1 (hc.tick host r.session.setting)
    (hc.isOrderly_tick host hr.scene)
  have hmeet := Sweep.meetRequests_silenced host mute _ ⟨hbuiltIn, hscene⟩
  have hafter : ∀ outcome c (s : Setting κ ε),
      r.silenced.afterTick outcome c s.silenced = (r.afterTick outcome c s).silenced := by
    intro outcome c s
    unfold afterTick
    split <;> rfl
  unfold turn
  rw [show r.silenced.session.setting = r.session.setting.silenced from rfl, htick]
  simp only [hafter, hmeet]
  rfl

theorem run_silenced (r : Round κ ε) (hr : r.session.IsOrderly) :
    r.silenced.run mute = (r.run host).silenced := by
  induction r using Round.run.induct host with
  | case1 r h ih =>
    have hc : r.commands[r.cursor].BuiltIn := hr.builtIn _ (List.getElem_mem h)
    have hsilent : r.silenced.run mute = (r.silenced.turn mute r.commands[r.cursor]).run mute := by
      rw [run]
      exact dif_pos h
    rw [hsilent, turn_silenced host mute hr hc, ih (isOrderly_turn host hr hc)]
    conv_rhs => rw [run, dif_pos h]
  | case2 r h =>
    have hsilent : r.silenced.run mute = r.silenced := by
      rw [run]
      exact dif_neg h
    rw [hsilent]
    conv_rhs => rw [run, dif_neg h]

end Round

namespace Session

variable (host : CommandHost κ ε) (mute : CommandHost κ Unit) {x : Session κ ε}

theorem isOrderly_tick (hx : x.IsOrderly) : (x.tick host).2.IsOrderly :=
  (Round.keeps_run host (P := fun r => r.session.IsOrderly)
    (fun _ h hr => Round.isOrderly_turn host hr (hr.builtIn _ (List.getElem_mem h)))
    { session := x } hx).1

/-- A tick of the commands does the same in silence. -/
theorem tick_silenced (hx : x.IsOrderly) :
    x.silenced.tick mute = ((x.tick host).1, (x.tick host).2.silenced) := by
  have hrun := Round.run_silenced host mute { session := x } hx
  have hstart : ({ session := x.silenced } : Round κ Unit) = Round.silenced { session := x } := rfl
  unfold tick
  rw [hstart, hrun]
  rfl

theorem isOrderly_meetRequests (hx : x.IsOrderly) : (x.meetRequests host).2.IsOrderly :=
  Sweep.keeps_meetRequests (P := fun w : Sweep κ ε => w.session.IsOrderly)
    (fun _ _ h hw => Sweep.isOrderly_stopAt host hw h) (fun _ _ hw => ⟨hw.builtIn, hw.scene⟩)
    { session := x } hx

theorem meetRequests_silenced (hx : x.IsOrderly) :
    x.silenced.meetRequests mute = ((x.meetRequests host).1, (x.meetRequests host).2.silenced) := by
  have hmeet := Sweep.meetRequests_silenced host mute { session := x } hx
  have hstart : ({ session := x.silenced } : Sweep κ Unit) = Sweep.silenced { session := x } := rfl
  unfold meetRequests
  rw [hstart, hmeet]
  rfl

end Session

end Orrery
