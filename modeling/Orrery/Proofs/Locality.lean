import Orrery.Proofs.Credits
import Orrery.Proofs.View

/-!
# What a tick depends on

An attack or a mining run sees the entities of its footprint and all distances, and nothing else
(`View.within`).  What other commands do meanwhile is not among that: they leave these entities as
they are (`Command.BuiltIn.within_tick`), and a position that is halted stays where it is
(`Tracker.stilled_halt`).  So a tick of the command comes to the same whenever it takes place
(`Command.BuiltIn.tick_repeats`).
-/

namespace Orrery

/-! ### Halted positions -/

/-- A tracked position that has been stopped in place. -/
def Tracked.halted (t : Tracked) : Tracked where
  position :=
    { t.position with
      rule := .rest
      state := { t.position.state with distanceMoved := 0.0, angleRotated := 0.0 } }

namespace Tracker

variable (t : Tracker)

theorem halt_eq (id : PositionId) : t.halt id =
    if t.poisoned then t else { t with slots := t.slots.modify id Tracked.halted } := by
  obtain ⟨slots, poisoned⟩ := t
  unfold halt setRule update require open?
  cases poisoned with
  | true => rfl
  | false =>
    simp only [Bool.false_eq_true, ↓reduceIte, bind, Except.bind]
    cases hslot : slots.get? id with
    | none =>
      rw [Table.modify_of_get?_none hslot]
      rfl
    | some slot =>
      refine congrArg (Tracker.mk · false) (Table.modify_congr fun slot' hslot' => ?_)
      rw [hslot] at hslot'
      cases hslot'
      rfl

/-- All that matters to distances: all positions as if they were stopped in place. -/
def stilled : Tracker := { t with slots := t.slots.map fun _ => Tracked.halted }

theorem stilled_halt (id : PositionId) : (t.halt id).stilled = t.stilled := by
  rw [halt_eq]
  split
  · rfl
  · exact congrArg (Tracker.mk · t.poisoned) (t.slots.map_modify_eq Tracked.halted fun _ _ => rfl)

theorem halt_stilled (id : PositionId) : t.stilled.halt id = (t.halt id).stilled := by
  rw [halt_eq, halt_eq, show t.stilled.poisoned = t.poisoned from rfl]
  split
  · rfl
  · exact congrArg (Tracker.mk · t.poisoned) (t.slots.modify_map Tracked.halted fun _ => rfl)

/-- A position that is stopped in place stays where it is. -/
theorem distanceBetween_stilled : t.stilled.distanceBetween = t.distanceBetween := by
  have hcoordinates : t.stilled.coordinatesOf = t.coordinatesOf := by
    funext id
    have hslots : coordinatesIn t.stilled.slots id = coordinatesIn t.slots id := by
      rw [coordinatesIn, stilled, Table.get?_map, Option.map_map]
      rfl
    unfold coordinatesOf
    rw [hslots]
    rfl
  funext a b
  unfold distanceBetween
  rw [hcoordinates]

theorem halt_comm (i j : PositionId) : (t.halt i).halt j = (t.halt j).halt i := by
  simp only [halt_eq]
  by_cases hpoisoned : t.poisoned = true
  · simp only [if_pos hpoisoned]
  · simp only [if_neg hpoisoned]
    exact congrArg (Tracker.mk · t.poisoned) (t.slots.modify_comm fun _ _ => rfl)

theorem haltAll_append (ids ids' : List PositionId) :
    t.haltAll (ids ++ ids') = (t.haltAll ids).haltAll ids' := List.foldl_append ..

theorem stilled_haltAll (ids : List PositionId) : (t.haltAll ids).stilled = t.stilled := by
  induction ids generalizing t with
  | nil => rfl
  | cons id ids ih => exact (ih (t.halt id)).trans (t.stilled_halt id)

/-- Positions can be halted in any order. -/
theorem haltAll_perm {ids ids' : List PositionId} (h : ids.Perm ids') :
    t.haltAll ids = t.haltAll ids' :=
  List.Perm.foldl_eq' h (fun i _ j _ t => t.halt_comm i j) t

end Tracker

/-! ### Some of the entities -/

namespace Entities

/-- Some of the entities only, in order. -/
def within (ids : List EntityId) (es : Entities) : Entities :=
  ⟨es.table.restrict fun id => decide (id ∈ ids)⟩

variable {es es' : Entities} {ids : List EntityId} {id : EntityId}

theorem get?_within (h : id ∈ ids) (es : Entities) : (es.within ids).get? id = es.get? id :=
  (es.table.get?_restrict _ id).trans (if_pos (decide_eq_true h))

theorem get?_of_within (h : es'.within ids = es.within ids) (hid : id ∈ ids) :
    es'.get? id = es.get? id := by
  rw [← get?_within hid es', h, get?_within hid es]

theorem adjust_within (id : EntityId) (f : Entity → Entity) :
    (es.within ids).adjust id f = (es.adjust id f).within ids :=
  congrArg Entities.mk (es.table.modify_restrict _ id f)

theorem within_adjust_of_not (h : id ∉ ids) (f : Entity → Entity) :
    (es.adjust id f).within ids = es.within ids :=
  congrArg Entities.mk (es.table.restrict_modify_of_not (decide_eq_false h) f)

theorem add_within {e : Entity} (h : e.id ∈ ids) (es : Entities) :
    (es.within ids).add e = (es.add e).map (within ids) := by
  have hcontains : (es.within ids).contains e.id = es.contains e.id := by
    have hget := get?_within h es
    unfold contains
    rw [Bool.eq_iff_iff, Table.contains_iff, Table.contains_iff]
    exact iff_of_eq (congrArg (fun o : Option Entity => o.isSome = true) hget)
  unfold add
  rw [hcontains]
  split
  · rfl
  · exact congrArg (Except.ok ∘ Entities.mk) (es.table.insert_restrict (decide_eq_true h) e)

theorem within_add_of_not {e : Entity} (h : e.id ∉ ids) (hadd : es.add e = .ok es') :
    es'.within ids = es.within ids := by
  unfold add at hadd
  split at hadd
  · cases hadd
  · cases hadd
    exact congrArg Entities.mk (es.table.restrict_insert_of_not (decide_eq_false h) e)

/-- What is written elsewhere is not seen. -/
theorem Write.within {p : EntityId → Prop} (h : es.Write p es') (hp : ∀ id, p id → id ∉ ids) :
    es'.within ids = es.within ids := by
  cases h with
  | attack hid | mine hid | stow hid | draw hid | fill hid =>
    exact within_adjust_of_not (hp _ hid) _
  | @leave loot hid _ _ _ _ _ hadd => exact within_add_of_not (e := .loot loot) (hp _ hid) hadd

theorem Written.within {p : EntityId → Prop} (h : es.Written p es') (hp : ∀ id, p id → id ∉ ids) :
    es'.within ids = es.within ids := by
  induction h with
  | refl => rfl
  | tail _ hwrite ih => exact (hwrite.within hp).trans ih

end Entities

theorem Entity.mapEvents_self : Entity.mapEvents (fun t => t) = fun e => e := by
  funext e
  cases e <;> rfl

/-- What commands see that look at some of the entities only. -/
def View.within (ids : List EntityId) : View where
  sees id := id ∈ ids
  events t := t
  entities := Entities.within ids
  tracker := Tracker.stilled
  announcements as := as
  get? h es := by
    rw [Entities.get?_within h, Entity.mapEvents_self, Option.map_id']
  adjust _ f f' hf es := by
    rw [Entity.mapEvents_self] at hf
    rw [show f' = f from funext hf]
    exact Entities.adjust_within _ f
  add {e} h es := by
    rw [Entity.mapEvents_self]
    exact Entities.add_within h es
  distance := Tracker.distanceBetween_stilled
  halt := Tracker.halt_stilled
  announcement {event} h es := by
    unfold Entities.announcement?
    rw [Entities.get?_within h]
  append _ _ := rfl

/-! ### Commands -/

variable {κ ε : Type}

namespace Command

variable (host : CommandHost κ ε) {c : Command κ} {ids : List EntityId}

/-- Commands leave everything alone that is not in their footprint. -/
theorem BuiltIn.within_tick (hc : c.BuiltIn) (hids : ∀ id ∈ c.footprint, id ∉ ids)
    (s : Setting κ ε) : (c.tick host s).2.2.entities.within ids = s.entities.within ids := by
  refine (tick_keeps (P := fun (c' : Command κ) (s' : Setting κ ε) =>
    c'.BuiltIn ∧ c'.footprint = c.footprint ∧ s'.entities.within ids = s.entities.within ids) host
    (fun stage c' s' h => ?_) (fun _ _ _ h => h) ⟨hc, rfl, rfl⟩).2.2
  obtain ⟨hc', hfootprint, hwithin⟩ := h
  rw [hc'.run_eq_self host stage s']
  refine ⟨hc', hfootprint, ?_⟩
  -- a hook writes in the footprint, or hits the defender
  obtain hwritten | ⟨a, x, d, htask, -, hhit⟩ := hc'.run_writes host stage s'
  · rw [hwritten.within (hfootprint ▸ hids), hwithin]
  · have hdefender : a.defender ∉ ids := hids _ (hfootprint ▸ defender_mem_footprint htask)
    rw [hhit, Entities.adjustShip, Entities.within_adjust_of_not hdefender, hwithin]

/-- All deeds in a tick of a command are its own, and all that they do to the tracker is to halt
positions. -/
theorem BuiltIn.halts_tick (hc : c.BuiltIn) {s : Setting κ ε} (hs : s.chronicle = []) :
    (∀ d ∈ (c.tick host s).2.2.chronicle, d.command.task = c.task) ∧
      (c.tick host s).2.2.tracker =
        s.tracker.haltAll ((c.tick host s).2.2.chronicle.flatMap Deed.halts) := by
  refine (tick_keeps (P := fun (c' : Command κ) (s' : Setting κ ε) =>
    c'.BuiltIn ∧ c'.task = c.task ∧ (∀ d ∈ s'.chronicle, d.command.task = c.task) ∧
      s'.tracker = s.tracker.haltAll (s'.chronicle.flatMap Deed.halts)) host
    (fun stage c' s' h => ?_) (fun _ _ _ h => h) ⟨hc, rfl, ?_⟩).2.2
  · obtain ⟨hc', htask, htasks, htracker⟩ := h
    obtain ⟨outcome, left, hchronicle⟩ : ∃ outcome left, (c'.run host stage s').2.2.chronicle =
        s'.chronicle ++ [.hook c' stage outcome s'.scene left] :=
      ⟨_, _, (after_run host stage c' s').chronicle⟩
    rw [hc'.run_eq_self host stage s', hchronicle, hc'.tracker_run host stage s' outcome left]
    refine ⟨hc', htask, fun d hd => ?_, ?_⟩
    · rcases List.mem_append.mp hd with hd | hd
      · exact htasks d hd
      · rw [List.mem_singleton.mp hd]
        exact htask
    · rw [htracker, List.flatMap_append, Tracker.haltAll_append, List.flatMap_singleton]
  · -- the turn has been noted, and that is all so far
    have hchronicle : (s.note (.turn c s.scene)).chronicle = [.turn c s.scene] := by
      rw [Setting.note, hs, List.nil_append]
    rw [hchronicle]
    refine ⟨fun d hd => ?_, rfl⟩
    rw [List.mem_singleton.mp hd]
    rfl

end Command

/-! ### The past -/

namespace Setting

/-- A setting after something else has been done, which has been noted and announced. -/
def behind (past s : Setting κ ε) : Setting κ ε :=
  { s with
    announcements := past.announcements ++ s.announcements
    stopRequests := past.stopRequests ++ s.stopRequests
    chronicle := past.chronicle ++ s.chronicle }

/-- The setting as if nothing had been done before. -/
def afresh (s : Setting κ ε) : Setting κ ε :=
  { s with announcements := [], stopRequests := [], chronicle := [] }

theorem behind_afresh (s : Setting κ ε) : s.behind s.afresh = s := by
  simp only [behind, afresh, List.append_nil]

end Setting

/-- What has been done before makes no difference to a command, other than by what it has left. -/
theorem reflection_behind (host : CommandHost κ ε) (past : Setting κ ε) :
    Reflection host host (fun _ => True) past.behind where
  now _ := rfl
  turn c s := by
    simp only [Setting.note, Setting.behind, List.append_assoc]
    rfl
  progress _ _ _ := trivial
  keeps _ _ _ _ := trivial
  run stage c s _ := by
    have hscene : (past.behind s).scene = s.scene := rfl
    have houtside : (past.behind s).outside = s.outside := rfl
    unfold Command.run
    rw [hscene, houtside]
    simp only [Setting.resume, Setting.note, Setting.behind, List.append_assoc]
  mayExecute _ _ _ := rfl
  isOver _ _ _ := rfl

/-! ### Locality -/

/-- A command has led from `s` to `s'` by doing what it does in leading to `t` from a setting in
which nothing has been done before. -/
structure Setting.Repeats (host : CommandHost κ ε) (ids : List EntityId) (s t s' : Setting κ ε) :
    Prop where
  now : s'.now = s.now
  /-- The entities of the footprint are the same. -/
  entities : ∀ id ∈ ids, s'.entities.get? id = t.entities.get? id
  tracker : s'.tracker = s.tracker.haltAll (t.chronicle.flatMap Deed.halts)
  outside : s'.outside = host.creditAll (t.chronicle.flatMap Deed.credits) s.outside
  announcements : s'.announcements = s.announcements ++ t.announcements
  stopRequests : s'.stopRequests = s.stopRequests ++ t.stopRequests
  credits : s'.chronicle.flatMap Deed.credits =
    s.chronicle.flatMap Deed.credits ++ t.chronicle.flatMap Deed.credits

/-- What is seen of deeds shows the credits. -/
theorem Deed.credits_seen (v : View) (deeds : List (Deed κ)) :
    (deeds.map (Deed.seen v)).flatMap credits = deeds.flatMap credits := by
  rw [List.flatMap_map]
  refine List.flatMap_congr fun d _ => ?_
  cases d <;> rfl

/-- It shows what is halted as well. -/
theorem Deed.halts_seen {v : View} {deeds : List (Deed κ)}
    (h : ∀ d ∈ deeds, v.Covers d.command.footprint) :
    (deeds.map (Deed.seen v)).flatMap halts = deeds.flatMap halts := by
  have hposition : ∀ e : Entity, (e.mapEvents v.events).position = e.position := fun e => by
    cases e <;> rfl
  rw [List.flatMap_map]
  refine List.flatMap_congr fun d hd => ?_
  have hcovers := h d hd
  obtain ⟨c, found⟩ | ⟨⟨progress, task⟩, stage, outcome, found, left⟩ := d
  · rfl
  · cases task with
    | mining | custom => rfl
    | attack a =>
      cases stage with
      | setup | before | execute | after | stop => rfl
      | teardown =>
        show a.halts (v.scene found) = a.halts found
        unfold Attack.halts
        rw [Attack.isWon_scene hcovers, show (v.scene found).entities = v.entities found.entities
          from rfl, v.get? (Attack.sees_defender hcovers), Option.map_map]
        simp only [Function.comp_def, hposition]

/-- The surroundings of commands that are followed in a view. -/
def CommandHost.mute : CommandHost κ Unit where
  hook _ progress body scene _ := ⟨.ok (), progress, body, scene, ()⟩
  mayExecute _ _ _ := false
  isOver _ _ _ := false
  credit _ _ := ()

theorem Setting.seen_afresh {v : View} {s x : Setting κ ε}
    (h : v.scene s.scene = v.scene x.scene) : s.afresh.seen v = x.afresh.seen v := by
  have hnow : s.now = x.now := congrArg Scene.now h
  have hentities : v.entities s.entities = v.entities x.entities := congrArg Scene.entities h
  have htracker : v.tracker s.tracker = v.tracker x.tracker := congrArg Scene.tracker h
  simp only [seen, afresh, hnow, hentities, htracker]

/-- A tick of an attack or a mining run depends only on what the command sees. -/
theorem Command.BuiltIn.tick_repeats (host : CommandHost κ ε) {c : Command κ} (hc : c.BuiltIn)
    {s x : Setting κ ε} (hx : x.afresh = x)
    (hsame : (View.within c.footprint).scene s.scene = (View.within c.footprint).scene x.scene) :
    (c.tick host s).1 = (c.tick host x).1 ∧ (c.tick host s).2.1 = (c.tick host x).2.1 ∧
      s.Repeats host c.footprint (c.tick host x).2.2 (c.tick host s).2.2 := by
  have hcovers : (View.within c.footprint).Covers c.footprint := fun _ h => h
  -- the command comes to the same in what it sees, and does not look at the past
  have hview := fun y : Setting κ ε =>
    ((View.within c.footprint).reflection host CommandHost.mute).tick ⟨hc, hcovers⟩ y
  have hbehind := (reflection_behind host s).tick (c := c) trivial s.afresh
  rw [s.behind_afresh] at hbehind
  have hequal := hview s.afresh
  -- in the view both ticks begin in the same setting
  rw [Setting.seen_afresh hsame, hx, hview x] at hequal
  obtain ⟨htasks, htracker⟩ := hc.halts_tick host (s := s.afresh) rfl
  obtain ⟨htasks', -⟩ := hc.halts_tick host (s := x) (congrArg Setting.chronicle hx).symm
  have hcredited : s.afresh.Credits host s.outside := rfl
  have haccount := (Command.credits_tick host hc hcredited).2
  obtain ⟨-, -, ds, hafter, -⟩ := Command.after_tick host c s.afresh
  have hnow : (c.tick host s.afresh).2.2.now = s.now := hafter.now
  rw [hbehind]
  generalize c.tick host s.afresh = r at hequal htasks htracker haccount hnow ⊢
  simp only [Prod.mk.injEq] at hequal
  obtain ⟨houtcome, hcommand, hseen⟩ := hequal
  have hdeeds : (c.tick host x).2.2.chronicle.map (Deed.seen (View.within c.footprint)) =
      r.2.2.chronicle.map (Deed.seen (View.within c.footprint)) := congrArg Setting.chronicle hseen
  have hown : ∀ d : Deed κ, d.command.task = c.task →
      (View.within c.footprint).Covers d.command.footprint := by
    intro d hd
    unfold footprint
    rw [hd]
    exact hcovers
  have hcredits : r.2.2.chronicle.flatMap Deed.credits =
      (c.tick host x).2.2.chronicle.flatMap Deed.credits := by
    rw [← Deed.credits_seen (View.within c.footprint), ← hdeeds, Deed.credits_seen]
  have hhalts : r.2.2.chronicle.flatMap Deed.halts =
      (c.tick host x).2.2.chronicle.flatMap Deed.halts := by
    rw [← Deed.halts_seen fun d hd => hown d (htasks d hd), ← hdeeds,
      Deed.halts_seen fun d hd => hown d (htasks' d hd)]
  have hwithin : (c.tick host x).2.2.entities.within c.footprint =
      r.2.2.entities.within c.footprint := congrArg Setting.entities hseen
  refine ⟨houtcome.symm, hcommand.symm, ?_⟩
  exact
    { now := hnow
      entities := fun id hid => Entities.get?_of_within hwithin.symm hid
      tracker := htracker.trans (by rw [hhalts]; rfl)
      outside := haccount.trans (by rw [hcredits])
      announcements := congrArg (s.announcements ++ ·) (congrArg Setting.announcements hseen).symm
      stopRequests := congrArg (s.stopRequests ++ ·) (congrArg Setting.stopRequests hseen).symm
      credits := by
        rw [← hcredits]
        exact List.flatMap_append .. }

end Orrery
