import Mathlib.Data.List.Perm.Basic
import Orrery.Proofs.Operation

/-!
# Ticks of the tracker

A tick goes through the tracked positions twice and changes them in place, with the notices of each
position put down in between (`Tracker.Tick`).  Nonetheless what becomes of a position is settled by
that position alone, given where all positions were before the tick and where they are after every
advance (`Tracked.alone`, `Tracker.Tick.run_spec`).  So the order of registration does not matter:
trackers with the same positions in different orders go on having the same ones, and report the
same (`World.tick_alone_in_any_order`).
-/

namespace Orrery

/-! ### One position alone -/

namespace Tracked

/-- The position after its own advance, if it is active, and after the movement watches have been
looked at. -/
def afterAdvance (t : Tracked) (elapsed : Float) (start : Lookup) : Except MotionError Position :=
  match t.status with
  | .stopped => .ok t.position
  | .active =>
    (t.position.advance elapsed start).map fun (p, changed) =>
      if changed then p.dueMovement.2 else p

/-- Where the position is after its own advance. -/
def coordsAfter (t : Tracked) (elapsed : Float) (start : Lookup) : Point :=
  match t.afterAdvance elapsed start with
  | .ok p => p.coords
  | .error _ => t.position.coords

/-- What becomes of a tracked position in a tick, taken alone: it advances if it is active, and its
due movement watches, then its proximity watches and at last its rule are looked at.  If the advance
fails everything stays as it was. -/
def alone (t : Tracked) (elapsed : Float) (start current : Lookup) : Tracked :=
  match t.afterAdvance elapsed start with
  | .error _ => t
  | .ok p =>
    let p := (p.dueProximity current).2
    { position := p, status := if p.hasTerminated then .stopped else t.status }

/-- What the second phase comes to after the first one, unless the advance failed. -/
def settlement? (t : Tracked) (elapsed : Float) (start current : Lookup) : Option Settlement :=
  let s := t.stride elapsed start
  if s.failure.isSome then none else some (s.slot.settle s.notices current)

variable (t : Tracked) (elapsed : Float) (start current : Lookup)

theorem stride_cases :
    (∃ e, t.status = .active ∧ t.position.advance elapsed start = .error e ∧
      t.afterAdvance elapsed start = .error e ∧
      t.stride elapsed start = { slot := t, failure := some e }) ∨
    (∃ p, t.afterAdvance elapsed start = .ok p ∧ (t.stride elapsed start).failure = none ∧
      (t.stride elapsed start).slot = { position := p, status := t.status }) := by
  obtain ⟨position, status⟩ := t
  unfold afterAdvance stride
  cases status with
  | stopped => exact .inr ⟨_, rfl, rfl, rfl⟩
  | active =>
    cases hadvance : position.advance elapsed start with
    | error e => exact .inl ⟨e, rfl, rfl, rfl, rfl⟩
    | ok r =>
      obtain ⟨p, changed⟩ := r
      cases changed <;> exact .inr ⟨_, rfl, rfl, rfl⟩

theorem failure_of_afterAdvance {e : MotionError} (h : t.afterAdvance elapsed start = .error e) :
    (t.stride elapsed start).failure = some e := by
  obtain ⟨e', -, -, hafter, hstride⟩ | ⟨p, hafter, -, -⟩ := t.stride_cases elapsed start <;>
    rw [hafter] at h <;> cases h
  rw [hstride]

/-- Both phases together make of a position what becomes of it alone. -/
theorem alone_eq : t.alone elapsed start current =
    (t.settlement? elapsed start current).elim (t.stride elapsed start).slot (·.slot) := by
  unfold settlement? alone
  obtain ⟨e, -, -, hmoved, hstride⟩ | ⟨p, hmoved, hfailure, hslot⟩ := t.stride_cases elapsed start
  · rw [hmoved, hstride]
    rfl
  · simp only [hmoved, hfailure, hslot, Option.isSome_none, Bool.false_eq_true, ↓reduceIte,
      Option.elim_some, settle]
    cases hstatus : t.status <;>
      cases (p.dueProximity current).2.hasTerminated <;> simp

theorem coordsAfter_eq :
    t.coordsAfter elapsed start = (t.stride elapsed start).slot.position.coords := by
  unfold coordsAfter
  obtain ⟨e, -, -, hmoved, hstride⟩ | ⟨p, hmoved, -, hslot⟩ := t.stride_cases elapsed start
  · rw [hmoved, hstride]
  · rw [hmoved, hslot]

theorem coords_alone :
    (t.alone elapsed start current).position.coords = t.coordsAfter elapsed start := by
  unfold alone coordsAfter
  cases t.afterAdvance elapsed start <;> rfl

end Tracked

/-! ### Reports -/

/-- Two reports tell the same of the positions, perhaps in different orders. -/
structure TickReport.Agrees (r r' : TickReport) : Prop where
  /-- As many advanced. -/
  advanced : r.advanced = r'.advanced
  /-- As many moved. -/
  moved : r.moved = r'.moved
  /-- The same ones stopped. -/
  stopped : r.stopped.Perm r'.stopped
  /-- The same ones failed, for the same reasons. -/
  failed : r.failed.Perm r'.failed

/-! ### Both passes -/

namespace Tracker

/-- Where the tracked positions are after every advance. -/
def coordinatesAfter (slots : Table PositionId Tracked) (elapsed : Float) : Lookup := fun id =>
  (slots.get? id).map (·.coordsAfter elapsed (coordinatesIn slots))

namespace Tick

/-- The report on the first pass over some entries. -/
def firstReport (elapsed : Float) (start : Lookup) (entries : List (PositionId × Tracked)) :
    TickReport where
  advanced := entries.countP fun e => (e.2.stride elapsed start).advanced
  moved := entries.countP fun e => (e.2.stride elapsed start).moved
  failed := entries.filterMap fun e => (e.2.stride elapsed start).failure.map (e.1, ·)

/-- What is pending of a position after the first pass. -/
def pendingOf (elapsed : Float) (start : Lookup) (t : Tracked) : Option (List Notice) :=
  let s := t.stride elapsed start
  if s.failure.isSome then none else some s.notices

/-- The first pass treats the entries that it comes to one by one, and leaves the others alone. -/
theorem foldl_stride (elapsed : Float) (start : Lookup) (front back : List (PositionId × Tracked))
    (x : Tick) (h : x.slots.entries = front ++ back) :
    let y := (back.map (·.1)).foldl (stride elapsed start) x
    y.slots.entries = front ++ back.map (fun e => (e.1, (e.2.stride elapsed start).slot)) ∧
    y.pending = x.pending ++ back.map (fun e => pendingOf elapsed start e.2) ∧
    y.report =
      { x.report with
        advanced := x.report.advanced + (firstReport elapsed start back).advanced
        moved := x.report.moved + (firstReport elapsed start back).moved
        failed := x.report.failed ++ (firstReport elapsed start back).failed } ∧
    y.calls = x.calls := by
  induction back generalizing front x with
  | nil => simp [h, firstReport]
  | cons e back ih =>
    obtain ⟨id, t⟩ := e
    have hget : x.slots.get? id = some t := Table.get?_of_entries h
    have hentries := Table.entries_modify h fun _ => (t.stride elapsed start).slot
    rw [List.append_cons] at hentries
    have hstep : (x.stride elapsed start id).slots.entries =
        (front ++ [(id, (t.stride elapsed start).slot)]) ++ back := by
      simp only [stride, hget]
      exact hentries
    obtain ⟨h1, h2, h3, h4⟩ := ih _ _ hstep
    simp only [List.map_cons, List.foldl_cons]
    refine ⟨by rw [h1]; simp, ?_, ?_, ?_⟩
    · rw [h2]
      simp [stride, hget, pendingOf]
    · rw [h3]
      simp only [stride, hget, firstReport, List.countP_cons, List.filterMap_cons]
      cases (t.stride elapsed start).advanced <;> cases (t.stride elapsed start).moved <;>
        cases (t.stride elapsed start).failure <;> simp
      all_goals omega
    · rw [h4]
      simp [stride, hget]

/-- The calls that a position gives rise to in a tick. -/
def callsOf (t : Tracked) (elapsed : Float) (start current : Lookup) : List Call :=
  ((t.settlement? elapsed start current).map fun s => s.notices.map (⟨s.slot.position, ·⟩)).getD []

/-- The second pass does the same with the notices that the first one left, and skips the positions
of which none are pending. -/
theorem foldl_settle (elapsed : Float) (start current : Lookup)
    (front back : List (PositionId × Tracked)) (x : Tick)
    (h : x.slots.entries = front ++ back.map fun e => (e.1, (e.2.stride elapsed start).slot)) :
    let y := (back.map fun e => (e.1, pendingOf elapsed start e.2)).foldl (settle current) x
    y.slots.entries = front ++ back.map (fun e => (e.1, e.2.alone elapsed start current)) ∧
    y.report =
      { x.report with
        stopped := x.report.stopped ++ (back.filter fun e =>
          (e.2.settlement? elapsed start current).any (·.stops)).map (·.1) } ∧
    y.calls = x.calls ++ back.flatMap (fun e => callsOf e.2 elapsed start current) := by
  induction back generalizing front x with
  | nil => simp [h]
  | cons e back ih =>
    obtain ⟨id, t⟩ := e
    rw [List.map_cons] at h
    have hget : x.slots.get? id = some (t.stride elapsed start).slot := Table.get?_of_entries h
    have hentries := Table.entries_modify h fun _ => t.alone elapsed start current
    rw [List.append_cons] at hentries
    have halone := t.alone_eq elapsed start current
    simp only [List.map_cons, List.foldl_cons]
    cases hfailure : (t.stride elapsed start).failure.isSome with
    | true =>
      -- a failed advance left the slot as it was, and the second pass leaves it alone
      have hpending : pendingOf elapsed start t = none := by simp [pendingOf, hfailure]
      have hnone : t.settlement? elapsed start current = none := by
        simp [Tracked.settlement?, hfailure]
      rw [hnone, Option.elim_none] at halone
      have hstep : x.settle current (id, pendingOf elapsed start t) = x := by
        simp [settle, hpending]
      rw [← halone, List.append_cons] at h
      obtain ⟨h1, h2, h3⟩ := ih _ _ h
      rw [hstep]
      refine ⟨by rw [h1]; simp, ?_, ?_⟩
      · rw [h2]
        simp [hnone]
      · rw [h3]
        simp [callsOf, hnone]
    | false =>
      have hpending : pendingOf elapsed start t = some (t.stride elapsed start).notices := by
        simp [pendingOf, hfailure]
      have hsome : t.settlement? elapsed start current =
          some ((t.stride elapsed start).slot.settle (t.stride elapsed start).notices current) := by
        simp [Tracked.settlement?, hfailure]
      rw [hsome, Option.elim_some] at halone
      rw [halone] at hentries
      have hstep : (x.settle current (id, pendingOf elapsed start t)).slots.entries =
          (front ++ [(id, t.alone elapsed start current)]) ++
            back.map fun e => (e.1, (e.2.stride elapsed start).slot) := by
        simp only [settle, hpending, hget, halone]
        exact hentries
      obtain ⟨h1, h2, h3⟩ := ih _ _ hstep
      refine ⟨by rw [h1]; simp, ?_, ?_⟩
      · rw [h2]
        simp only [settle, hpending, hget, List.filter_cons, hsome, Option.any_some]
        split <;> simp
      · rw [h3]
        simp [settle, hpending, hget, callsOf, hsome]

/-- Both passes together: each position becomes what it becomes alone, and the report and the calls
put together what each of them gives rise to. -/
theorem run_spec (slots : Table PositionId Tracked) (elapsed : Float) :
    let start := coordinatesIn slots
    let current := coordinatesAfter slots elapsed
    (run slots elapsed).slots.entries =
      slots.entries.map (fun e => (e.1, e.2.alone elapsed start current)) ∧
    (run slots elapsed).report =
      { firstReport elapsed start slots.entries with
        stopped := (slots.entries.filter fun e =>
          (e.2.settlement? elapsed start current).any (·.stops)).map (·.1) } ∧
    (run slots elapsed).calls =
      slots.entries.flatMap (fun e => callsOf e.2 elapsed start current) := by
  intro start current
  obtain ⟨x, hx⟩ : ∃ x, x = slots.keys.foldl (stride elapsed start) { slots := slots } := ⟨_, rfl⟩
  have hfirst := foldl_stride elapsed start [] slots.entries { slots := slots } rfl
  rw [show slots.entries.map (·.1) = slots.keys from rfl, ← hx] at hfirst
  obtain ⟨hslots, hpending, hreport, hcalls⟩ := hfirst
  rw [List.nil_append] at hslots hpending
  -- the second pass sees every position where its own advance has brought it
  have hcurrent : coordinatesIn x.slots = current := by
    funext id
    have hget : x.slots.get? id = (slots.get? id).map fun t => (t.stride elapsed start).slot :=
      Table.get?_of_entries_map hslots id
    simp only [coordinatesIn, hget, Option.map_map, current, coordinatesAfter]
    exact congrArg (Option.map · (slots.get? id)) (funext fun t => (t.coordsAfter_eq ..).symm)
  have hitems : x.slots.keys.zip x.pending =
      slots.entries.map fun e => (e.1, pendingOf elapsed start e.2) := by
    rw [Table.keys, hslots, hpending, List.map_map]
    exact List.zip_map' ..
  have hrun : run slots elapsed =
      (slots.entries.map fun e => (e.1, pendingOf elapsed start e.2)).foldl (settle current) x := by
    rw [← hitems, ← hcurrent, hx]
    rfl
  obtain ⟨h1, h2, h3⟩ := foldl_settle elapsed start current [] slots.entries x
    (by rw [hslots, List.nil_append])
  rw [hrun]
  refine ⟨by rw [h1, List.nil_append], ?_, ?_⟩
  · rw [h2, hreport]
    simp [firstReport]
  · rw [h3, hcalls, List.nil_append]

theorem get?_run (slots : Table PositionId Tracked) (elapsed : Float) (id : PositionId) :
    (run slots elapsed).slots.get? id =
      (slots.get? id).map
        (·.alone elapsed (coordinatesIn slots) (coordinatesAfter slots elapsed)) :=
  Table.get?_of_entries_map (run_spec slots elapsed).1 id

/-- The second phase of a tick sees the positions where they are after the tick. -/
theorem coordinatesIn_run (slots : Table PositionId Tracked) (elapsed : Float) :
    coordinatesIn (run slots elapsed).slots = coordinatesAfter slots elapsed := by
  funext id
  simp only [coordinatesIn, get?_run, Option.map_map, coordinatesAfter]
  exact congrArg (Option.map · (slots.get? id)) (funext fun t => t.coords_alone ..)

/-- In another order of registration a tick makes the same of every position. -/
theorem run_perm {slots slots' : Table PositionId Tracked} (h : slots.entries.Perm slots'.entries)
    (elapsed : Float) :
    (run slots elapsed).slots.entries.Perm (run slots' elapsed).slots.entries ∧
      (run slots elapsed).report.Agrees (run slots' elapsed).report := by
  have hget : ∀ id, slots.get? id = slots'.get? id := Table.get?_of_perm h
  have hstart : coordinatesIn slots = coordinatesIn slots' :=
    funext fun id => by rw [coordinatesIn, coordinatesIn, hget]
  have hcurrent : coordinatesAfter slots elapsed = coordinatesAfter slots' elapsed :=
    funext fun id => by rw [coordinatesAfter, coordinatesAfter, hget, hstart]
  obtain ⟨h1, h2, -⟩ := run_spec slots elapsed
  obtain ⟨h1', h2', -⟩ := run_spec slots' elapsed
  rw [h1, h1', h2, h2', hstart, hcurrent]
  exact ⟨h.map _, h.countP_eq _, h.countP_eq _, (h.filter _).map _, h.filterMap _⟩

end Tick

theorem advance_eq_ok {t : Tracker} (h : t.poisoned = false) (elapsed : Float) :
    t.advance elapsed = .ok ({ t with slots := (Tick.run t.slots elapsed).slots },
      (Tick.run t.slots elapsed).report, (Tick.run t.slots elapsed).calls) := by
  simp [advance, open?, h, bind, Except.bind, pure, Except.pure]

end Tracker

/-! ### Worlds -/

/-- Listeners of positions that answer that all is well and leave the tracker alone. -/
def Host.Obliges {κ ε : Type} (host : Host κ ε) : Prop :=
  ∀ listener event w, (host.hearPosition listener event w).1 = .ok () ∧
    (host.hearPosition listener event w).2.tracker = w.tracker

namespace World

variable {κ ε ε' : Type} {host : Host κ ε}

/-- Ticks of the given lengths one after the other, with what each of them comes to. -/
def ticks (host : Host κ ε) (lengths : List Float) (w : World κ ε) :
    List (Except TrackerError TickReport) × World κ ε :=
  askAll (fun elapsed w => w.tick host elapsed) lengths w

theorem notify_of_obliges (hhost : host.Obliges) (report : TickReport) (calls : List Call)
    (w : World κ ε) :
    (w.notify host report calls).1 = .ok (report.answered (calls.map fun _ => .ok ()) 0) ∧
      (w.notify host report calls).2.tracker = w.tracker := by
  have hask : ∀ w : World κ ε,
      (askAll (fun c : Call => host.hearPosition c.notice.listener c.event) calls w).1 =
        calls.map (fun _ => .ok ()) ∧
      (askAll (fun c : Call => host.hearPosition c.notice.listener c.event) calls w).2.tracker =
        w.tracker := by
    intro w
    induction calls generalizing w with
    | nil => exact ⟨rfl, rfl⟩
    | cons c calls ih =>
      obtain ⟨hreply, htracker⟩ := hhost c.notice.listener c.event w
      obtain ⟨hreplies, htracker'⟩ := ih (host.hearPosition c.notice.listener c.event w).2
      refine ⟨?_, htracker'.trans htracker⟩
      rw [List.map_cons, ← hreplies, ← hreply]
      rfl
  obtain ⟨hreplies, htracker⟩ := hask w
  -- nobody was revoked, so no watch is dropped
  have hnobody : Revocation.ofReplies calls (calls.map fun _ => .ok ()) = [] := by
    rw [Revocation.ofReplies, List.filterMap_eq_nil_iff]
    rintro ⟨c, r⟩ hr
    obtain ⟨-, hr⟩ := List.of_mem_zip hr
    obtain ⟨-, -, rfl⟩ := List.mem_map.mp hr
    rfl
  unfold notify
  simp only [hreplies, hnobody, Tracker.prune, htracker, and_self]

theorem tick_of_obliges (hhost : host.Obliges) {w : World κ ε} (hw : w.tracker.poisoned = false)
    (elapsed : Float) :
    (∃ report : TickReport, (w.tick host elapsed).1 = .ok report ∧
      report.advanced = (Tracker.Tick.run w.tracker.slots elapsed).report.advanced ∧
      report.moved = (Tracker.Tick.run w.tracker.slots elapsed).report.moved ∧
      report.stopped = (Tracker.Tick.run w.tracker.slots elapsed).report.stopped ∧
      report.failed = (Tracker.Tick.run w.tracker.slots elapsed).report.failed) ∧
    (w.tick host elapsed).2.tracker =
      { w.tracker with slots := (Tracker.Tick.run w.tracker.slots elapsed).slots } := by
  have hadvance := Tracker.advance_eq_ok hw elapsed
  unfold tick move
  simp only [hadvance]
  obtain ⟨hreport, htracker⟩ := notify_of_obliges hhost
    (Tracker.Tick.run w.tracker.slots elapsed).report
    (Tracker.Tick.run w.tracker.slots elapsed).calls
    { w with
      tracker := { w.tracker with slots := (Tracker.Tick.run w.tracker.slots elapsed).slots } }
  exact ⟨⟨_, hreport, rfl, rfl, rfl, rfl⟩, htracker⟩

/-- Ticks of two worlds that track the same positions in different orders report the same, and leave
both tracking the same positions. -/
theorem ticks_of_perm {host' : Host κ ε'} (hhost : host.Obliges) (hhost' : host'.Obliges)
    {w : World κ ε} {w' : World κ ε'} (hw : w.tracker.poisoned = false)
    (hw' : w'.tracker.poisoned = false)
    (hperm : w.tracker.slots.entries.Perm w'.tracker.slots.entries) (lengths : List Float) :
    List.Forall₂ (fun r r' => ∃ report report' : TickReport,
        r = .ok report ∧ r' = .ok report' ∧ report.Agrees report')
      (w.ticks host lengths).1 (w'.ticks host' lengths).1 ∧
    (w.ticks host lengths).2.tracker.slots.entries.Perm
      (w'.ticks host' lengths).2.tracker.slots.entries := by
  induction lengths generalizing w w' with
  | nil => exact ⟨.nil, hperm⟩
  | cons elapsed lengths ih =>
    obtain ⟨⟨report, hreport, h1, h2, h3, h4⟩, htracker⟩ := tick_of_obliges hhost hw elapsed
    obtain ⟨⟨report', hreport', h1', h2', h3', h4'⟩, htracker'⟩ :=
      tick_of_obliges hhost' hw' elapsed
    obtain ⟨hentries, hagrees⟩ := Tracker.Tick.run_perm hperm elapsed
    have hreports : report.Agrees report' :=
      ⟨h1.trans (hagrees.advanced.trans h1'.symm), h2.trans (hagrees.moved.trans h2'.symm),
        by rw [h3, h3']; exact hagrees.stopped, by rw [h4, h4']; exact hagrees.failed⟩
    have hintact : (w.tick host elapsed).2.tracker.poisoned = false := by rw [htracker]; exact hw
    have hintact' : (w'.tick host' elapsed).2.tracker.poisoned = false := by
      rw [htracker']
      exact hw'
    obtain ⟨hrest, hend⟩ := ih hintact hintact' (by rw [htracker, htracker']; exact hentries)
    exact ⟨.cons ⟨report, report', hreport, hreport', hreports⟩ hrest, hend⟩

/-- With listeners that answer that all is well, a tick makes of every position what becomes of it
alone, given where all positions were before the tick and where they are after every advance.  A
position whose advance fails stays exactly as it was, and is where it was for all others.  So ticks
of the same positions registered in different orders report the same, and have the same result. -/
theorem tick_alone_in_any_order {host' : Host κ ε'} (hhost : host.Obliges)
    (hhost' : host'.Obliges) :
    (∀ (w : World κ ε) (elapsed : Float), w.tracker.poisoned = false →
      let start := Tracker.coordinatesIn w.tracker.slots
      let current := Tracker.coordinatesAfter w.tracker.slots elapsed
      ∃ report, (w.tick host elapsed).1 = .ok report ∧
        (w.tick host elapsed).2.tracker.poisoned = false ∧
        (∀ id, (w.tick host elapsed).2.tracker.slots.get? id =
          (w.tracker.slots.get? id).map (·.alone elapsed start current)) ∧
        ∀ id t e, w.tracker.slots.get? id = some t → t.afterAdvance elapsed start = .error e →
          (w.tick host elapsed).2.tracker.slots.get? id = some t ∧ current id = start id ∧
            (id, e) ∈ report.failed) ∧
    ∀ (w : World κ ε) (w' : World κ ε') (lengths : List Float),
      w.tracker.poisoned = false → w'.tracker.poisoned = false →
      w.tracker.slots.entries.Perm w'.tracker.slots.entries →
      List.Forall₂ (fun r r' => ∃ report report' : TickReport,
          r = .ok report ∧ r' = .ok report' ∧ report.Agrees report')
        (w.ticks host lengths).1 (w'.ticks host' lengths).1 ∧
      ∀ id, (w.ticks host lengths).2.tracker.slots.get? id =
        (w'.ticks host' lengths).2.tracker.slots.get? id := by
  refine ⟨?_, ?_⟩
  · intro w elapsed hw start current
    obtain ⟨⟨report, hreport, -, -, -, hfailed⟩, htracker⟩ := tick_of_obliges hhost hw elapsed
    obtain ⟨hentries, hrun, -⟩ := Tracker.Tick.run_spec w.tracker.slots elapsed
    have hget : ∀ id, (w.tick host elapsed).2.tracker.slots.get? id =
        (w.tracker.slots.get? id).map (·.alone elapsed start current) := fun id => by
      rw [htracker]
      exact Table.get?_of_entries_map hentries id
    refine ⟨report, hreport, by rw [htracker]; exact hw, hget, ?_⟩
    intro id t e ht he
    refine ⟨by rw [hget, ht]; simp [Tracked.alone, he], ?_, ?_⟩
    · simp [current, start, Tracker.coordinatesAfter, Tracker.coordinatesIn, ht,
        Tracked.coordsAfter, he, Position.coords]
    · rw [hfailed, hrun]
      exact List.mem_filterMap.mpr ⟨(id, t), Table.get?_eq_some_iff.mp ht,
        by rw [t.failure_of_afterAdvance elapsed start he]; rfl⟩
  · intro w w' lengths hw hw' hperm
    obtain ⟨hreports, hentries⟩ := ticks_of_perm hhost hhost' hw hw' hperm lengths
    exact ⟨hreports, Table.get?_of_perm hentries⟩

end World

/-! ### A chase -/

namespace Chase

/-- An active position that pursues another one. -/
def pursuer (id target : PositionId) (x : Float) : Tracked where
  position :=
    { id := id
      state := { (Kinematics.initial : Kinematics Float) with coords := ⟨x, 0.0, 0.0⟩ }
      rule := .pursuit ⟨target, Vec3.origin, 0.0, 1.0, true⟩ }

/-- Two positions that pursue each other, the one on the left first. -/
def world : World Unit Unit where
  tracker :=
    { slots :=
        { entries := [(⟨1⟩, pursuer ⟨1⟩ ⟨2⟩ 0.0), (⟨2⟩, pursuer ⟨2⟩ ⟨1⟩ 10.0)]
          nodup := by decide } }
  outside := ()

/-- The same positions, the one on the right first. -/
def reversed : World Unit Unit where
  tracker :=
    { slots :=
        { entries := [(⟨2⟩, pursuer ⟨2⟩ ⟨1⟩ 10.0), (⟨1⟩, pursuer ⟨1⟩ ⟨2⟩ 0.0)]
          nodup := by decide } }
  outside := ()

end Chase

theorem Host.obliges_still : Host.still.Obliges := fun _ _ _ => ⟨rfl, rfl⟩

/-- A chase goes the same way whichever position is registered first. -/
theorem World.tick_alone_in_any_order_chase :
    (∃ report, (Chase.world.tick Host.still 1.0).1 = .ok report) ∧
    ∀ lengths id, (Chase.world.ticks Host.still lengths).2.tracker.slots.get? id =
      (Chase.reversed.ticks Host.still lengths).2.tracker.slots.get? id := by
  obtain ⟨halone, horder⟩ := tick_alone_in_any_order Host.obliges_still Host.obliges_still
  have hperm : Chase.world.tracker.slots.entries.Perm Chase.reversed.tracker.slots.entries :=
    List.Perm.swap _ _ _
  obtain ⟨report, hreport, -⟩ := halone Chase.world 1.0 rfl
  refine ⟨⟨report, hreport⟩, fun lengths => ?_⟩
  exact (horder Chase.world Chase.reversed lengths rfl rfl hperm).2

end Orrery
