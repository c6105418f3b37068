import Orrery.Proofs.Handover
import Orrery.Proofs.Locality

/-!
# Commands in any order

Attacks and mining runs whose footprints are disjoint have nothing to do with each other.  In a
round each of them does what it would do alone, and the round comes to the sum of that
(`Session.sums_tick`); the stop requests that one of them raises concern no other one.  A sum does
not depend on the order.  So all orders in which the commands may have been scheduled lead to the
same (`World.tickCommands_reordered`).
-/

namespace Orrery

variable {κ ε : Type}

/-! ### Stop requests -/

namespace Command

variable (host : CommandHost κ ε) {c : Command κ}

/-- A command acts on entities of its footprint only. -/
theorem BuiltIn.mem_footprint_of_concerns (hc : c.BuiltIn) {id : EntityId}
    (h : c.concerns id = true) : id ∈ c.footprint := by
  obtain ⟨progress, task⟩ := c
  obtain ⟨k, actor, target, hdrives⟩ := hc
  cases task with
  | custom => cases hdrives
  | attack a =>
    have hid : id = a.attacker ∨ id = a.defender := by simpa [concerns, Attack.concerns] using h
    obtain rfl | rfl := hid
    · exact a.attacker_mem_footprint
    · exact a.defender_mem_footprint
  | mining m =>
    have hid : id = m.miner ∨ id = m.deposit := by simpa [concerns, Mining.concerns] using h
    obtain rfl | rfl := hid
    · exact m.miner_mem_footprint
    · exact m.deposit_mem_footprint

theorem requests_of_isQuiet {deeds : List (Deed κ)} (h : ∀ d ∈ deeds, d.IsQuiet) :
    deeds.flatMap Deed.requests = [] := by
  refine List.flatMap_eq_nil_iff.mpr fun d hd => ?_
  have hquiet := h d hd
  cases d with
  | turn => exact hquiet.elim
  | hook => exact hquiet.2.2.1

/-- Only a command that is over asks for stops, and only of commands that act on its target. -/
theorem BuiltIn.requests_tick (hc : c.BuiltIn) {s : Setting κ ε} (hs : s.stopRequests = []) :
    ((c.tick host s).1.removed = false → (c.tick host s).2.2.stopRequests = []) ∧
      ∀ id ∈ (c.tick host s).2.2.stopRequests, id ∈ c.footprint := by
  have hquiet : ∀ {hooks : List (Deed κ)}, s.After (.turn c s.scene :: hooks) (c.tick host s).2.2 →
      (∀ d ∈ hooks, d.IsQuiet) → (c.tick host s).2.2.stopRequests = [] := by
    intro hooks hafter hhooks
    rw [hafter.stopRequests, hs, List.flatMap_cons, requests_of_isQuiet hhooks]
    rfl
  have hnone : (c.tick host s).2.2.stopRequests = [] →
      ∀ id ∈ (c.tick host s).2.2.stopRequests, id ∈ c.footprint := by
    intro h id hid
    rw [h] at hid
    cases hid
  obtain ⟨k, actor, target, hdrives⟩ := hc
  cases htask : c.task with
  | custom =>
    rw [htask] at hdrives
    cases hdrives
  | mining m =>
    obtain ⟨-, ⟨-, hon⟩ | ⟨-, hend⟩⟩ := tick_mining host htask s
    · obtain ⟨hooks, hafter, hhooks⟩ := hon.deeds
      exact ⟨fun _ => hquiet hafter hhooks, hnone (hquiet hafter hhooks)⟩
    · obtain ⟨hooks, hafter, hhooks⟩ := hend.deeds
      exact ⟨fun _ => hquiet hafter hhooks, hnone (hquiet hafter hhooks)⟩
  | attack a =>
    obtain ⟨-, ⟨-, hon⟩ | ⟨hremoved, killed, hend⟩⟩ := tick_attack host htask s
    · obtain ⟨hooks, hafter, hhooks⟩ := hon.deeds
      exact ⟨fun _ => hquiet hafter hhooks, hnone (hquiet hafter hhooks)⟩
    · obtain ⟨hooks, last, outcome, found, left, hafter, hhooks, -, hlast⟩ := hend.deeds
      refine ⟨fun h => absurd (hremoved.symm.trans h) Bool.noConfusion, fun id hid => ?_⟩
      have hleft : id ∈ left.stopRequests := by
        rw [hafter.stopRequests, hs] at hid
        simpa [requests_of_isQuiet hhooks, Deed.requests] using hid
      -- all that `teardown` asks for is that commands acting on the wreck be stopped
      rw [hlast.stopRequests] at hleft
      split at hleft
      · rw [List.mem_singleton.mp hleft]
        exact defender_mem_footprint htask
      · cases hleft

end Command

/-! ### Sums -/

/-- Attacks and mining runs no two of which have an entity in common. -/
structure Independent (cs : List (Command κ)) : Prop where
  builtIn : ∀ c ∈ cs, c.BuiltIn
  apart : cs.Pairwise fun c d => ∀ id ∈ c.footprint, id ∉ d.footprint

theorem Independent.perm {cs cs' : List (Command κ)} (h : Independent cs) (hperm : cs.Perm cs') :
    Independent cs' where
  builtIn c hc := h.builtIn c (hperm.mem_iff.mpr hc)
  apart := h.apart.perm hperm fun hcd id hid hid' => hcd id hid' hid

/-- A command among others has nothing in common with them. -/
theorem Independent.of_mem {front back : List (Command κ)} {c d : Command κ}
    (h : Independent (front ++ c :: back)) (hd : d ∈ front ++ back) :
    d.BuiltIn ∧ ∀ id ∈ d.footprint, id ∉ c.footprint := by
  have hfirst := h.perm List.perm_middle
  refine ⟨hfirst.builtIn d (List.mem_cons_of_mem _ hd), fun id hid hid' => ?_⟩
  exact (List.pairwise_cons.mp hfirst.apart).1 d hd id hid' hid

/-- What is left of a command after a tick, unless it is over. -/
def Command.survivor? (host : CommandHost κ ε) (x : Setting κ ε) (c : Command κ) :
    Option (Command κ) :=
  if (c.tick host x).1.removed then none else some (c.tick host x).2.1

/-- What has been reported, and the setting that has been reached, when some commands have had their
turns: the sum of what each of them comes to from `x` alone. -/
structure Sums (host : CommandHost κ ε) (x : Setting κ ε) (cs : List (Command κ))
    (report : ScheduleReport) (s : Setting κ ε) : Prop where
  report : report =
    { ran := cs.length
      executed := cs.countP fun c => (c.tick host x).1.executed
      failed := cs.countP fun c => (c.tick host x).1.failed
      finished := (cs.filter fun c => (c.tick host x).1.removed).map Command.id
      stopped := [] }
  now : s.now = x.now
  /-- All stop requests have been met. -/
  stopRequests : s.stopRequests = []
  /-- The entities of each command are as that has left them. -/
  entities : ∀ c ∈ cs, ∀ id ∈ c.footprint,
    s.entities.get? id = (c.tick host x).2.2.entities.get? id
  /-- All other entities are as they were. -/
  others : ∀ ids, (∀ c ∈ cs, ∀ id ∈ c.footprint, id ∉ ids) →
    s.entities.within ids = x.entities.within ids
  tracker : s.tracker =
    x.tracker.haltAll (cs.flatMap fun c => (c.tick host x).2.2.chronicle.flatMap Deed.halts)
  credits : s.chronicle.flatMap Deed.credits =
    cs.flatMap fun c => (c.tick host x).2.2.chronicle.flatMap Deed.credits
  outside : s.outside = host.creditAll (s.chronicle.flatMap Deed.credits) x.outside
  announcements : s.announcements = cs.flatMap fun c => (c.tick host x).2.2.announcements

namespace Sums

variable {host : CommandHost κ ε} {x s s' : Setting κ ε} {cs : List (Command κ)} {c : Command κ}
  {report : ScheduleReport}

theorem start (host : CommandHost κ ε) (hx : x.afresh = x) : Sums host x [] {} x where
  report := rfl
  now := rfl
  stopRequests := (congrArg Setting.stopRequests hx).symm
  entities _ hc := by cases hc
  others _ _ := rfl
  tracker := rfl
  credits := by
    rw [← hx]
    rfl
  outside := by
    rw [← hx]
    rfl
  announcements := (congrArg Setting.announcements hx).symm

/-- A command that has nothing in common with those before it finds what it would find alone. -/
theorem scene_within (h : Sums host x cs report s)
    (hapart : ∀ d ∈ cs, ∀ id ∈ d.footprint, id ∉ c.footprint) :
    (View.within c.footprint).scene s.scene = (View.within c.footprint).scene x.scene := by
  have hentities : s.entities.within c.footprint = x.entities.within c.footprint :=
    h.others _ hapart
  have htracker : s.tracker.stilled = x.tracker.stilled := by
    rw [h.tracker, Tracker.stilled_haltAll]
  simp only [View.scene, View.within, Setting.scene, h.now, hentities, htracker]

/-- One more command has its turn. -/
theorem snoc (h : Sums host x cs report s)
    (hapart : ∀ d ∈ cs, ∀ id ∈ d.footprint, id ∉ c.footprint)
    (hrepeats : s.Repeats host c.footprint (c.tick host x).2.2 s')
    (hwithin : ∀ ids, (∀ id ∈ c.footprint, id ∉ ids) →
      s'.entities.within ids = s.entities.within ids) :
    Sums host x (cs ++ [c])
      { ran := report.ran + 1
        executed := report.executed + (c.tick host x).1.executed.toNat
        failed := report.failed + (c.tick host x).1.failed.toNat
        finished := report.finished ++ (if (c.tick host x).1.removed then [c.id] else [])
        stopped := report.stopped ++ [] }
      { s' with stopRequests := [] } where
  report := by
    have hcount : ∀ b : Bool, b.toNat = if b = true then 1 else 0 := fun b => by cases b <;> rfl
    have hfinished : ((cs ++ [c]).filter fun c => (c.tick host x).1.removed).map Command.id =
        (cs.filter fun c => (c.tick host x).1.removed).map Command.id ++
          if (c.tick host x).1.removed then [c.id] else [] := by
      rw [List.filter_append, List.map_append, List.filter_singleton]
      cases (c.tick host x).1.removed <;> rfl
    rw [h.report, hfinished]
    simp only [List.length_append, List.length_singleton, List.countP_append,
      List.countP_singleton, hcount, List.append_nil]
  now := hrepeats.now.trans h.now
  stopRequests := rfl
  entities d hd id hid := by
    rcases List.mem_append.mp hd with hd | hd
    · -- what belongs to another command is left alone
      have hspared : s'.entities.within [id] = s.entities.within [id] := by
        refine hwithin [id] fun j hj hmem => ?_
        rw [List.mem_singleton.mp hmem] at hj
        exact hapart d hd id hid hj
      have hsame := Entities.get?_of_within hspared (List.mem_singleton_self id)
      exact hsame.trans (h.entities d hd id hid)
    · rw [List.mem_singleton.mp hd] at hid ⊢
      exact hrepeats.entities id hid
  others ids hids :=
    (hwithin ids (hids c (by simp))).trans
      (h.others ids fun d hd => hids d (List.mem_append_left _ hd))
  tracker := by
    rw [hrepeats.tracker, h.tracker, List.flatMap_append, Tracker.haltAll_append,
      List.flatMap_singleton]
  credits := by
    rw [hrepeats.credits, h.credits, List.flatMap_append, List.flatMap_singleton]
  outside := by
    rw [hrepeats.outside, h.outside, hrepeats.credits]
    exact (List.foldl_append ..).symm
  announcements := by
    rw [hrepeats.announcements, h.announcements, List.flatMap_append, List.flatMap_singleton]

end Sums

/-! ### Rounds -/

namespace Command

variable {host : CommandHost κ ε} {c d : Command κ} {x : Setting κ ε}

theorem BuiltIn.task_tick (hc : c.BuiltIn) (s : Setting κ ε) :
    (c.tick host s).2.1.task = c.task := by
  obtain ⟨k, actor, target, hdrives⟩ := hc
  exact (tick_drives host hdrives s).1

/-- A command that is not over acts on the same entities as before. -/
theorem BuiltIn.concerns_survivor (hc : c.BuiltIn) (h : c.survivor? host x = some d) :
    d.concerns = c.concerns := by
  unfold survivor? at h
  split at h
  · cases h
  · cases h
    unfold concerns
    rw [hc.task_tick]

end Command

/-- A round in which some of the commands have had their turns, and `todo` have not. -/
structure Round.Between (host : CommandHost κ ε) (x : Setting κ ε) (done todo : List (Command κ))
    (r : Round κ ε) : Prop where
  commands : r.commands = done.filterMap (Command.survivor? host x) ++ todo
  cursor : r.cursor = (done.filterMap (Command.survivor? host x)).length
  sums : Sums host x done r.report r.session.setting

namespace Round

variable {host : CommandHost κ ε} {x : Setting κ ε} {done todo : List (Command κ)} {c : Command κ}
  {r : Round κ ε}

/-- A command that is over makes room for the next one; otherwise the cursor moves on. -/
theorem Between.commands_afterTick (h : r.Between host x done (c :: todo)) (hc : c.BuiltIn)
    (s : Setting κ ε) :
    (r.afterTick (c.tick host x).1 (c.tick host x).2.1 s).commands =
        (done ++ [c]).filterMap (Command.survivor? host x) ++ todo ∧
      (r.afterTick (c.tick host x).1 (c.tick host x).2.1 s).cursor =
        ((done ++ [c]).filterMap (Command.survivor? host x)).length := by
  have hid : (c.tick host x).2.1.id = c.id := by
    unfold Command.id
    rw [hc.task_tick]
  rw [List.filterMap_append, afterTick]
  cases hremoved : (c.tick host x).1.removed with
  | true =>
    have hnone : [c].filterMap (Command.survivor? host x) = [] := by
      rw [List.filterMap_cons_none (by rw [Command.survivor?, hremoved]; rfl), List.filterMap_nil]
    rw [if_pos rfl, hnone, List.append_nil]
    refine ⟨?_, h.cursor⟩
    show r.commands.eraseIdx r.cursor = _
    rw [h.commands, h.cursor, List.eraseIdx_append_of_length_le (Nat.le_refl _), Nat.sub_self,
      List.eraseIdx_cons_zero]
  | false =>
    have hsome : [c].filterMap (Command.survivor? host x) = [(c.tick host x).2.1] := by
      rw [List.filterMap_cons_some (by rw [Command.survivor?, hremoved]; rfl), List.filterMap_nil]
    rw [if_neg Bool.noConfusion, hsome, List.append_assoc, List.singleton_append,
      List.length_append, List.length_singleton]
    exact ⟨Schedule.commands_put h.commands hid, congrArg (· + 1) h.cursor⟩

/-- Nobody minds the requests of a command that has nothing in common with the others. -/
theorem Between.unconcerned (hcs : Independent (done ++ c :: todo)) (hx : x.stopRequests = []) :
    ∀ d ∈ (done ++ [c]).filterMap (Command.survivor? host x) ++ todo,
      ∀ id ∈ (c.tick host x).2.2.stopRequests, d.concerns id = false := by
  have hc : c.BuiltIn := hcs.builtIn c (by simp)
  obtain ⟨hquiet, hown⟩ := hc.requests_tick host hx
  have hothers : ∀ d ∈ done ++ todo, ∀ id ∈ (c.tick host x).2.2.stopRequests,
      d.concerns id = false := by
    intro d hd id hid
    obtain ⟨hdc, hapart⟩ := hcs.of_mem hd
    by_contra hconcerns
    exact hapart id (hdc.mem_footprint_of_concerns (by simpa using hconcerns)) (hown id hid)
  intro d hd id hid
  rcases List.mem_append.mp hd with hd | hd
  · obtain ⟨e, he, hsurvivor⟩ := List.mem_filterMap.mp hd
    rcases List.mem_append.mp he with he | he
    · rw [(hcs.of_mem (List.mem_append_left _ he)).1.concerns_survivor hsurvivor]
      exact hothers e (List.mem_append_left _ he) id hid
    · -- a command that is not over raises no requests
      rw [List.mem_singleton.mp he, Command.survivor?] at hsurvivor
      cases hremoved : (c.tick host x).1.removed with
      | true =>
        rw [hremoved] at hsurvivor
        cases hsurvivor
      | false =>
        rw [hquiet hremoved] at hid
        cases hid
  · exact hothers d (List.mem_append_right _ hd) id hid

/-- A command in the midst of others does in its turn what it would do alone. -/
theorem Between.turn (h : r.Between host x done (c :: todo)) (hx : x.afresh = x)
    (hcs : Independent (done ++ c :: todo)) :
    (r.turn host c).Between host x (done ++ [c]) todo := by
  have hc : c.BuiltIn := hcs.builtIn c (by simp)
  have hapart : ∀ d ∈ done, ∀ id ∈ d.footprint, id ∉ c.footprint := fun d hd =>
    (hcs.of_mem (List.mem_append_left _ hd)).2
  -- the command finds what it would find alone, so it comes to the same
  obtain ⟨houtcome, hcommand, hrepeats⟩ := hc.tick_repeats host hx (h.sums.scene_within hapart)
  have hsums := h.sums.snoc hapart hrepeats
    (fun ids hids => hc.within_tick host hids r.session.setting)
  have htick : c.tick host r.session.setting = ((c.tick host x).1, (c.tick host x).2.1,
      (c.tick host r.session.setting).2.2) := Prod.ext houtcome (Prod.ext hcommand rfl)
  obtain ⟨hcommands, hcursor⟩ := h.commands_afterTick hc (c.tick host r.session.setting).2.2
  unfold Round.turn
  rw [htick]
  dsimp only
  generalize (c.tick host r.session.setting).2.2 = s at hrepeats hsums hcommands hcursor ⊢
  generalize hw : r.afterTick (c.tick host x).1 (c.tick host x).2.1 s = w at hcommands hcursor ⊢
  have hstart : w.stopped = [] ∧ w.session.setting = s := by
    rw [← hw, afterTick]
    split <;> exact ⟨rfl, rfl⟩
  have hrequests : w.session.setting.stopRequests = (c.tick host x).2.2.stopRequests := by
    rw [hstart.2, hrepeats.stopRequests, h.sums.stopRequests, List.nil_append]
  -- and what it asks for afterwards concerns none of the others
  have hmeet : w.meetRequests host = w.withRequests [] := by
    refine Sweep.meetRequests_of_unconcerned host w ?_
    rw [hcommands, hrequests]
    exact Between.unconcerned hcs (congrArg Setting.stopRequests hx).symm
  rw [hmeet]
  refine ⟨hcommands, hcursor, ?_⟩
  show Sums host x (done ++ [c]) _ { w.session.setting with stopRequests := [] }
  rw [show (w.withRequests []).stopped = [] from hstart.1, hstart.2]
  exact hsums

/-- All commands do what they would do alone. -/
theorem Between.run (h : r.Between host x done todo) (hx : x.afresh = x)
    (hcs : Independent (done ++ todo)) : (r.run host).Between host x (done ++ todo) [] := by
  -- those that are done become more with each turn, so the induction is for all of them
  induction todo generalizing r done with
  | nil =>
    have hover : ¬r.cursor < r.commands.length := by
      rw [h.commands, h.cursor, List.append_nil]
      exact Nat.lt_irrefl _
    rw [Round.run, dif_neg hover, List.append_nil]
    exact h
  | cons c todo ih =>
    have hlt : r.cursor < r.commands.length := by
      rw [h.commands, h.cursor, List.length_append, List.length_cons]
      omega
    have hnext : r.commands[r.cursor] = c := by
      simp only [h.commands, h.cursor]
      rw [List.getElem_append_right (Nat.le_refl _)]
      simp only [Nat.sub_self, List.getElem_cons_zero]
    have hstep := ih (h.turn hx hcs) (by rwa [List.append_assoc])
    rw [Round.run, dif_pos hlt, hnext]
    rwa [List.append_assoc] at hstep

end Round

/-- A round of independent commands comes to the sum of what each of them comes to alone. -/
theorem Session.sums_tick (host : CommandHost κ ε) {x : Session κ ε}
    (hcs : Independent x.schedule.commands) (hx : x.setting.afresh = x.setting) :
    (x.tick host).2.schedule.commands =
        x.schedule.commands.filterMap (Command.survivor? host x.setting) ∧
      Sums host x.setting x.schedule.commands (x.tick host).1 (x.tick host).2.setting := by
  have hstart : Round.Between host x.setting [] x.schedule.commands { session := x } :=
    ⟨rfl, rfl, Sums.start host hx⟩
  have hend := hstart.run hx hcs
  exact ⟨hend.commands.trans (List.append_nil _), hend.sums⟩

/-! ### The order of the commands -/

/-- What is reported differs in order only. -/
structure ScheduleReport.Rearranges (r r' : ScheduleReport) : Prop where
  ran : r.ran = r'.ran
  executed : r.executed = r'.executed
  failed : r.failed = r'.failed
  finished : r.finished.Perm r'.finished
  stopped : r.stopped.Perm r'.stopped

/-- What has been reached differs in order only: of the commands with their progress, of the
entities, and of what has been announced and credited. -/
structure Session.Rearranges (x x' : Session κ ε) : Prop where
  commands : x.schedule.commands.Perm x'.schedule.commands
  /-- Each entity is the same. -/
  entities : ∀ id, x.setting.entities.get? id = x'.setting.entities.get? id
  tracker : x.setting.tracker = x'.setting.tracker
  announcements : x.setting.announcements.Perm x'.setting.announcements
  credits : (x.setting.chronicle.flatMap Deed.credits).Perm
    (x'.setting.chronicle.flatMap Deed.credits)

/-- The order of credits makes no difference to the account. -/
def CommandHost.CreditsCommute (host : CommandHost κ ε) : Prop :=
  ∀ c c' o, host.credit c (host.credit c' o) = host.credit c' (host.credit c o)

theorem CommandHost.creditAll_perm {host : CommandHost κ ε} (hhost : host.CreditsCommute)
    {credits credits' : List Credit} (h : credits.Perm credits') (o : ε) :
    host.creditAll credits o = host.creditAll credits' o :=
  List.Perm.foldl_eq' h (fun _ _ _ _ _ => hhost ..) o

namespace Sums

variable {host : CommandHost κ ε} {x s s' : Setting κ ε} {cs cs' : List (Command κ)}
  {report report' : ScheduleReport}

theorem report_perm (h : Sums host x cs report s) (h' : Sums host x cs' report' s')
    (hperm : cs.Perm cs') : report.Rearranges report' := by
  rw [h.report, h'.report]
  exact ⟨hperm.length_eq, hperm.countP_eq _, hperm.countP_eq _, (hperm.filter _).map _, .nil⟩

theorem entities_perm (h : Sums host x cs report s) (h' : Sums host x cs' report' s')
    (hperm : cs.Perm cs') (id : EntityId) : s.entities.get? id = s'.entities.get? id := by
  by_cases hid : ∃ c ∈ cs, id ∈ c.footprint
  · obtain ⟨c, hc, hid⟩ := hid
    rw [h.entities c hc id hid, h'.entities c (hperm.mem_iff.mp hc) id hid]
  · -- no command has anything to do with the entity
    have hothers : ∀ c ∈ cs, ∀ j ∈ c.footprint, j ∉ [id] := fun c hc j hj hmem =>
      hid ⟨c, hc, List.mem_singleton.mp hmem ▸ hj⟩
    have hkept := h.others [id] hothers
    have hkept' := h'.others [id] fun c hc => hothers c (hperm.mem_iff.mpr hc)
    exact Entities.get?_of_within (hkept.trans hkept'.symm) (List.mem_singleton_self id)

theorem credits_perm (h : Sums host x cs report s) (h' : Sums host x cs' report' s')
    (hperm : cs.Perm cs') :
    (s.chronicle.flatMap Deed.credits).Perm (s'.chronicle.flatMap Deed.credits) := by
  rw [h.credits, h'.credits]
  exact hperm.flatMap_right _

theorem tracker_perm (h : Sums host x cs report s) (h' : Sums host x cs' report' s')
    (hperm : cs.Perm cs') : s.tracker = s'.tracker := by
  rw [h.tracker, h'.tracker]
  exact x.tracker.haltAll_perm (hperm.flatMap_right _)

theorem announcements_perm (h : Sums host x cs report s) (h' : Sums host x cs' report' s')
    (hperm : cs.Perm cs') : s.announcements.Perm s'.announcements := by
  rw [h.announcements, h'.announcements]
  exact hperm.flatMap_right _

end Sums

/-- The order of independent commands makes no difference to what a round of them comes to. -/
theorem Session.tick_rearranges (host : CommandHost κ ε) {x : Session κ ε} {order : Schedule κ}
    (horder : x.schedule.commands.Perm order.commands) (hcs : Independent x.schedule.commands)
    (hx : x.setting.afresh = x.setting) :
    (x.tick host).1.Rearranges (({ x with schedule := order } : Session κ ε).tick host).1 ∧
      (x.tick host).2.Rearranges (({ x with schedule := order } : Session κ ε).tick host).2 ∧
      (host.CreditsCommute → (x.tick host).2.setting.outside =
        (({ x with schedule := order } : Session κ ε).tick host).2.setting.outside) := by
  obtain ⟨hcommands, hsums⟩ := x.sums_tick host hcs hx
  -- both rounds come to the sum of the same commands, taken in two orders
  obtain ⟨hcommands', hsums'⟩ := Session.sums_tick host
    (x := ({ x with schedule := order } : Session κ ε)) (hcs.perm horder) hx
  refine ⟨hsums.report_perm hsums' horder, ⟨?_, hsums.entities_perm hsums' horder,
    hsums.tracker_perm hsums' horder, hsums.announcements_perm hsums' horder,
    hsums.credits_perm hsums' horder⟩, fun hhost => ?_⟩
  · rw [hcommands, hcommands']
    exact horder.filterMap _
  · rw [hsums.outside, hsums'.outside]
    exact host.creditAll_perm hhost (hsums.credits_perm hsums' horder) _

/-! ### Listeners -/

/-- The listeners that are left once some revocations have been heeded. -/
def EventTable.dropAll (t : EventTable) (rs : List EntityRevocation) : EventTable :=
  rs.foldl (fun t r => (t.dropKind r.kind r.subscriber).2) t

theorem EventTable.dropAll_perm {rs rs' : List EntityRevocation} (h : rs.Perm rs')
    (t : EventTable) : t.dropAll rs = t.dropAll rs' :=
  List.Perm.foldl_eq' h (fun _ _ _ _ t => congrArg EventTable.mk
    (t.table.modify_comm fun _ ss => List.filter_comm _ _ ss)) t

namespace Entity

theorem mapEvents_of_events?_eq_none {e : Entity} (h : e.events? = none)
    (f : EventTable → EventTable) : e.mapEvents f = e := by
  cases e with
  | ship | station => cases h
  | loot | deposit => rfl

theorem mapEvents_withEvents {e : Entity} {events : EventTable} (h : e.events? = some events)
    (f g : EventTable → EventTable) :
    (e.withEvents (g events)).mapEvents f = e.mapEvents fun t => f (g t) := by
  cases e with
  | ship | station =>
    cases h
    rfl
  | loot | deposit => cases h

end Entity

namespace Entities

/-- Revocations of an entity concern its own listeners. -/
theorem get?_prune (es : Entities) (rs : List EntityRevocation) (id : EntityId) :
    (es.prune rs).2.get? id =
      (es.get? id).map (Entity.mapEvents (·.dropAll (rs.filter (·.entity = id)))) := by
  unfold prune
  -- how many have been dropped does not matter
  generalize 0 = count
  induction rs generalizing es count with
  | nil =>
    have hnothing : (fun t : EventTable => t.dropAll []) = fun t => t := rfl
    rw [List.filter_nil, hnothing, Entity.mapEvents_self, Option.map_id']
    rfl
  | cons r rs ih =>
    rw [List.foldl_cons]
    cases hevents : (es.get? r.entity).bind Entity.events? with
    | none =>
      simp only [hevents]
      rw [ih]
      by_cases hid : r.entity = id
      · -- who has no listeners cannot lose any
        refine Option.map_congr fun e he => ?_
        have hnone : e.events? = none := by
          rw [hid, he] at hevents
          exact hevents
        rw [Entity.mapEvents_of_events?_eq_none hnone, Entity.mapEvents_of_events?_eq_none hnone]
      · rw [List.filter_cons_of_neg (by simpa using hid)]
    | some events =>
      simp only [hevents]
      rw [ih, putEvents, get?_adjust]
      by_cases hid : r.entity = id
      · rw [if_pos hid.symm, List.filter_cons_of_pos (by simpa using hid), Option.map_map]
        refine Option.map_congr fun e he => ?_
        rw [hid, he] at hevents
        exact Entity.mapEvents_withEvents hevents (·.dropAll (rs.filter (·.entity = id)))
          (fun t => (t.dropKind r.kind r.subscriber).2)
      · rw [if_neg (Ne.symm hid), List.filter_cons_of_neg (by simpa using hid)]

/-- The order of revocations makes no difference. -/
theorem get?_prune_perm {es es' : Entities} (h : ∀ id, es.get? id = es'.get? id)
    {rs rs' : List EntityRevocation} (hrs : rs.Perm rs') (id : EntityId) :
    (es.prune rs).2.get? id = (es'.prune rs').2.get? id := by
  have hdrop : (fun t : EventTable => t.dropAll (rs.filter (·.entity = id))) =
      fun t => t.dropAll (rs'.filter (·.entity = id)) := by
    funext t
    exact t.dropAll_perm (hrs.filter _)
  rw [get?_prune, get?_prune, h, hdrop]

end Entities

/-- What listeners reply depends on the event only. -/
def Host.RepliesByEvent (host : Host κ ε) : Prop :=
  ∀ listener event w w', (host.hearEntity listener event w).1 =
    (host.hearEntity listener event w').1

theorem askAll_of_fst_eq {σ ι ρ : Type} {ask : ι → σ → ρ × σ}
    (hask : ∀ i s s', (ask i s).1 = (ask i s').1) (is : List ι) (s s' : σ) :
    (askAll ask is s).1 = is.map fun i => (ask i s').1 := by
  induction is generalizing s with
  | nil => rfl
  | cons i is ih => exact congrArg₂ List.cons (hask i s s') (ih _)

namespace World

variable {host : Host κ ε} {w w' : World κ ε}

theorem revocations_map (announcements : List Announcement) (f : Announcement → DispatchReport) :
    revocations announcements (announcements.map f) = announcements.flatMap fun a =>
      (f a).revoked.map fun subscriber => ⟨a.event.entity, a.event.kind, subscriber⟩ := by
  unfold revocations
  induction announcements with
  | nil => rfl
  | cons a announcements ih =>
    rw [List.map_cons, List.zip_cons_cons, List.flatMap_cons, ih, List.flatMap_cons]

/-- Whoever is told the same replies the same. -/
theorem revocations_perm (hhost : host.RepliesByEvent)
    {announcements announcements' : List Announcement} (h : announcements.Perm announcements') :
    (revocations announcements (askAll (announce host) announcements w).1).Perm
      (revocations announcements' (askAll (announce host) announcements' w').1) := by
  have hannounce : ∀ (a : Announcement) (w w' : World κ ε),
      (announce host a w).1 = (announce host a w').1 := fun a w w' => by
    have hreplies : ∀ w₀ w₁ : World κ ε,
        (askAll (fun s : Subscription => host.hearEntity s.listener a.event) a.subscriptions w₀).1 =
          a.subscriptions.map fun s => (host.hearEntity s.listener a.event w₁).1 := fun w₀ w₁ =>
      askAll_of_fst_eq (fun s w w' => hhost s.listener a.event w w') a.subscriptions w₀ w₁
    exact congrArg DispatchReport.ofReplies ((hreplies w w).trans (hreplies w' w).symm)
  rw [askAll_of_fst_eq hannounce announcements w w, askAll_of_fst_eq hannounce announcements' w' w,
    revocations_map, revocations_map]
  exact h.flatMap_right _

end World

/-! ### Worlds -/

/-- Worlds that differ in order only, apart from their surroundings. -/
structure World.Rearranges (w w' : World κ ε) : Prop where
  commands : w.registry.schedule.commands.Perm w'.registry.schedule.commands
  /-- Each entity is the same. -/
  entities : ∀ id, w.registry.entities.get? id = w'.registry.entities.get? id
  tracker : w.tracker = w'.tracker
  poisoned : w.registry.poisoned = w'.registry.poisoned

namespace World

/-- The world with other commands. -/
def withSchedule (w : World κ ε) (order : Schedule κ) : World κ ε :=
  w.withRegistry { w.registry with schedule := order }

theorem tickCommands_of_poisoned (host : Host κ ε) (now : Float) {w : World κ ε}
    (hw : w.registry.poisoned = true) : w.tickCommands host now = (.error .poisoned, w) := by
  have hcheck : w.registry.check = .error .poisoned := if_pos hw
  unfold tickCommands
  rw [hcheck]

/-- When the listeners have replied, the world is as the commands have left it, but for the
subscriptions. -/
theorem tickCommands_of_onlyReplies {host : Host κ ε} (hhost : host.OnlyReplies) (now : Float)
    {w : World κ ε} (hw : w.registry.poisoned = false) {report : ScheduleReport} {x : Session κ ε}
    (hround : (w.session now).tick host.toCommandHost = (report, x)) :
    ∃ delivery outside, w.tickCommands host now =
      (.ok ⟨report, delivery⟩,
        { w.resume x with
          registry :=
            { (w.resume x).registry with
              entities := (x.setting.entities.prune (revocations x.setting.announcements
                (askAll (announce host) x.setting.announcements (w.resume x)).1)).2 }
          outside := outside }) := by
  obtain ⟨delivery, outside, hdelivery⟩ :=
    deliver_prunes hhost x.setting.announcements (w := w.resume x) hw
  refine ⟨delivery, outside, ?_⟩
  unfold tickCommands
  rw [Registry.check_of_intact hw, hround]
  simp only [hdelivery]
  rfl

/-- Attacks and mining runs no two of which have an entity in common may be scheduled in any order.
A round of them comes to the same, whatever the listeners do when they are told of it: the same
becomes of each command and of each entity, the same positions are halted, and the same is announced
and credited, in some order.  A poisoned world refuses the round anyway.  Otherwise, if listeners
only reply, the round succeeds, and what it leaves is the same but for the subscriptions; these are
the same as well if it depends on the event only what is replied to it. -/
theorem tickCommands_reordered (host : Host κ ε) (now : Float) (w : World κ ε) {order : Schedule κ}
    (horder : w.registry.schedule.commands.Perm order.commands)
    (hcs : Independent w.registry.schedule.commands) :
    ∃ report x report' x',
      (w.session now).tick host.toCommandHost = (report, x) ∧
      ((w.withSchedule order).session now).tick host.toCommandHost = (report', x') ∧
      report.Rearranges report' ∧ x.Rearranges x' ∧
      (host.CreditsCommute → x.setting.outside = x'.setting.outside) ∧
      (w.registry.poisoned = true →
        w.tickCommands host now = (.error .poisoned, w) ∧
        (w.withSchedule order).tickCommands host now =
          (.error .poisoned, w.withSchedule order)) ∧
      (w.registry.poisoned = false → host.OnlyReplies → ∃ delivery delivery' v v',
        w.tickCommands host now = (.ok ⟨report, delivery⟩, v) ∧
        (w.withSchedule order).tickCommands host now = (.ok ⟨report', delivery'⟩, v') ∧
        v.tracker = v'.tracker ∧ v.silenced.Rearranges v'.silenced ∧
        (host.RepliesByEvent → v.Rearranges v')) := by
  obtain ⟨hreport, hsession, hcredits⟩ :=
    Session.tick_rearranges host.toCommandHost (x := w.session now) horder hcs rfl
  refine ⟨_, _, _, _, rfl, rfl, hreport, hsession, hcredits,
    fun hw => ⟨tickCommands_of_poisoned host now hw, tickCommands_of_poisoned host now hw⟩,
    fun hw hhost => ?_⟩
  obtain ⟨delivery, outside, htick⟩ := tickCommands_of_onlyReplies hhost now hw rfl
  obtain ⟨delivery', outside', htick'⟩ :=
    tickCommands_of_onlyReplies hhost now (w := w.withSchedule order) hw rfl
  refine ⟨delivery, delivery', _, _, htick, htick', hsession.tracker,
    ⟨hsession.commands, fun id => ?_, congrArg Tracker.silenced hsession.tracker, rfl⟩,
    fun hreplies => ⟨hsession.commands, fun id => ?_, hsession.tracker, rfl⟩⟩
  · -- what listeners reply makes no difference but to the subscriptions
    simp only [registry_silenced, Registry.entities_silenced, Entities.prune_silenced]
    rw [Entities.get?_silenced, Entities.get?_silenced]
    exact congrArg _ (hsession.entities id)
  · exact Entities.get?_prune_perm hsession.entities
      (revocations_perm hreplies hsession.announcements) id

end World

/-! ### A fight next to a mine -/

namespace Skirmish

/-- A ship that has nothing to do with the fight. -/
def digger : Ship where
  id := ⟨"digger"⟩
  user := "cyd"
  system := "sol"
  position := place

/-- What it mines. -/
def lode : Deposit where
  id := ⟨"lode"⟩
  system := "sol"
  position := place
  material := "ore"
  quantity := 8

/-- The mining of the one by the other. -/
def dig : Mining := ⟨digger.id, lode.id⟩

/-- The attack comes first. -/
def fightFirst : Schedule Unit where
  commands := [.attack attack, .mining dig]
  distinct := by decide

/-- The mining comes first. -/
def digFirst : Schedule Unit where
  commands := [.mining dig, .attack attack]
  distinct := by decide

/-- All of them are at the same place. -/
def camp : World Unit Unit where
  tracker := tracker
  registry :=
    { entities :=
        { table :=
            { entries :=
                [(hunter.id, .ship hunter),
                  (prey.id, .ship { prey with
                    hold :=
                      { capacity := 100
                        amounts := ({} : Table String UInt32).insert "ore" 3 } }),
                  (digger.id, .ship digger), (lode.id, .deposit lode)]
              nodup := by decide } }
      schedule := fightFirst }
  outside := ()

theorem independent_camp : Independent camp.registry.schedule.commands where
  builtIn c hc := by
    obtain rfl | hc := List.mem_cons.mp hc
    · exact ⟨_, _, _, rfl⟩
    · rw [List.mem_singleton.mp hc]
      exact ⟨_, _, _, rfl⟩
  apart := by decide

end Skirmish

/-- Whether it is the hunter or the digger who begins, the prey is destroyed, ore is mined, and
everybody ends up the same. -/
theorem World.tickCommands_reordered_camp :
    ∃ report report' delivery delivery' v v',
      Skirmish.camp.tickCommands Host.still 0 = (.ok ⟨report, delivery⟩, v) ∧
      (Skirmish.camp.withSchedule Skirmish.digFirst).tickCommands Host.still 0 =
        (.ok ⟨report', delivery'⟩, v') ∧
      report.executed = 2 ∧ report.finished = [Skirmish.attack.commandId] ∧
      report.Rearranges report' ∧ v.Rearranges v' := by
  have horder : Skirmish.camp.registry.schedule.commands.Perm Skirmish.digFirst.commands :=
    List.Perm.swap ..
  obtain ⟨report, x, report', x', hround, -, hreport, -, -, -, hdone⟩ :=
    tickCommands_reordered Host.still 0 Skirmish.camp horder Skirmish.independent_camp
  obtain ⟨delivery, delivery', v, v', htick, htick', -, -, hsame⟩ := hdone rfl Host.onlyReplies_still
  have hsums := (Session.sums_tick Host.still.toCommandHost (x := Skirmish.camp.session 0)
    Skirmish.independent_camp rfl).2.report
  rw [hround] at hsums
  dsimp only at hsums
  refine ⟨report, report', delivery, delivery', v, v', htick, htick', ?_, ?_, hreport,
    hsame fun _ _ _ _ => rfl⟩
  · rw [hsums]
    decide +kernel
  · rw [hsums]
    decide +kernel

end Orrery
