import Orrery.Proofs.Delivery
import Orrery.Proofs.Stops

/-!
# Notices

The calls of a tick are those of the tracked positions one after the other, in the order of
registration (`Tracked.callsIn`): first to the movement watches that are due, if the advance
reported a change, then to the proximity watches whose threshold was crossed, and then, if the
position stopped, to all of its movement watches.  All of them are made, whatever is replied to
others.  Afterwards a watch is dropped if and only if its subscriber was revoked in a reply to a
call of the same position that belongs to a watch of its kind (`Tracker.prune_spec`), and the number
of those is reported (`World.tick_notifies`).
-/

namespace Orrery

variable {κ ε : Type}

/-! ### The calls of one position -/

namespace Tracked

variable (t : Tracked) (elapsed : Float) (start current : Lookup)

/-- The movement watches that are due in a tick; none are unless the position is advanced and its
rule reports a change. -/
def movements : List MovementHit :=
  match t.status, t.position.advance elapsed start with
  | .active, .ok (p, true) => p.dueMovement.1
  | _, _ => []

/-- The proximity watches whose threshold is crossed in a tick; nothing is measured if the advance
fails. -/
def crossings : List ProximityHit :=
  match t.afterAdvance elapsed start with
  | .ok p => (p.dueProximity current).1
  | .error _ => []

/-- The movement watches of a position that stops in a tick. -/
def farewells : List MovementWatch :=
  let after := t.alone elapsed start current
  if t.status = .active ∧ after.status = .stopped then after.position.movementWatches else []

/-- The calls that a tick makes for a position.  Listeners see the position as the tick leaves
it. -/
def callsIn : List Call :=
  ((t.movements elapsed start).map Notice.moved ++
    (t.crossings elapsed start current).map Notice.proximity ++
    (t.farewells elapsed start current).map Notice.stopped).map
      fun n => ⟨(t.alone elapsed start current).position, n⟩

theorem notices_stride : (t.stride elapsed start).notices =
    (t.movements elapsed start).map Notice.moved := by
  unfold stride movements
  cases t.status with
  | stopped => rfl
  | active =>
    cases t.position.advance elapsed start with
    | error e => rfl
    | ok r =>
      obtain ⟨p, changed⟩ := r
      cases changed <;> rfl

/-- Nobody is told anything about a position whose advance fails. -/
theorem callsIn_of_afterAdvance {e : MotionError} (h : t.afterAdvance elapsed start = .error e) :
    t.callsIn elapsed start current = [] := by
  obtain ⟨e', hactive, hadvance, -, -⟩ | ⟨p, hafter, -, -⟩ := t.stride_cases elapsed start
  · have halone : t.alone elapsed start current = t := by
      unfold alone
      rw [h]
    have hmovements : t.movements elapsed start = [] := by
      unfold movements
      rw [hactive, hadvance]
    have hcrossings : t.crossings elapsed start current = [] := by
      unfold crossings
      rw [h]
    have hfarewells : t.farewells elapsed start current = [] := by
      simp [farewells, halone, hactive]
    rw [callsIn, hmovements, hcrossings, hfarewells]
    rfl
  · rw [hafter] at h
    cases h

theorem callsOf_eq : Tracker.Tick.callsOf t elapsed start current =
    t.callsIn elapsed start current := by
  obtain ⟨e, -, -, hafter, hstride⟩ | ⟨p, hafter, hfailure, hslot⟩ := t.stride_cases elapsed start
  · rw [t.callsIn_of_afterAdvance elapsed start current hafter]
    simp only [Tracker.Tick.callsOf, settlement?, hstride]
    rfl
  · have hcrossings : t.crossings elapsed start current = (p.dueProximity current).1 := by
      unfold crossings
      rw [hafter]
    have halone : t.alone elapsed start current =
        { position := (p.dueProximity current).2
          status := if (p.dueProximity current).2.hasTerminated then .stopped else t.status } := by
      unfold alone
      rw [hafter]
    simp only [Tracker.Tick.callsOf, settlement?, hfailure, Option.isSome_none,
      Bool.false_eq_true, ↓reduceIte, Option.map_some, Option.getD_some, settle, hslot,
      notices_stride, callsIn, hcrossings, farewells, halone, stopNotices]
    cases t.status <;> cases (p.dueProximity current).2.hasTerminated <;> simp

end Tracked

/-! ### Dropped watches -/

/-- Whether some listener that was called on behalf of a watch of this position, of this kind,
replied that the subscriber is revoked. -/
def Call.revokes (told : List (Call × Reply)) (id : PositionId) (ofProximity : Bool)
    (subscriber : String) : Bool :=
  told.any fun (c, r) => c.position.id = id && c.notice.isProximity = ofProximity &&
    r.revoked? = some subscriber

theorem Revocation.mem_ofReplies {calls : List Call} {replies : List Reply} {r : Revocation} :
    r ∈ ofReplies calls replies ↔
      Call.revokes (calls.zip replies) r.id r.ofProximity r.subscriber = true := by
  unfold ofReplies Call.revokes
  simp only [List.mem_filterMap, Option.map_eq_some_iff, List.any_eq_true, Bool.and_eq_true,
    decide_eq_true_eq, Prod.exists]
  constructor
  · rintro ⟨c, reply, hmem, s, hs, rfl⟩
    exact ⟨c, reply, hmem, ⟨rfl, rfl⟩, hs⟩
  · rintro ⟨c, reply, hmem, ⟨hid, hkind⟩, hs⟩
    refine ⟨c, reply, hmem, r.subscriber, hs, ?_⟩
    rw [hid, hkind]

/-- The watches whose subscriber satisfies `p` for their kind. -/
def Tracked.retain (p : Bool → String → Bool) (t : Tracked) : Tracked :=
  { t with
    position :=
      { t.position with
        movementWatches := t.position.movementWatches.filter fun w => p false w.subscriber
        proximityWatches := t.position.proximityWatches.filter fun w => p true w.subscriber } }

/-- Number of watches. -/
def Tracked.watchCount (t : Tracked) : Nat :=
  t.position.movementWatches.length + t.position.proximityWatches.length

namespace Tracked

variable (t : Tracked)

theorem retain_retain (p q : Bool → String → Bool) :
    (t.retain p).retain q = t.retain fun kind s => p kind s && q kind s := by
  simp only [retain, List.filter_filter, Bool.and_comm]

theorem retain_true : (t.retain fun _ _ => true) = t := by
  simp [retain]

/-- What heeding a revocation leaves. -/
theorem retain_eq_drop (r : Revocation) :
    (t.retain fun kind s => !(kind = r.ofProximity && s = r.subscriber)) =
      { t with
        position :=
          if r.ofProximity then t.position.dropProximity r.subscriber
          else t.position.dropMovement r.subscriber } := by
  cases h : r.ofProximity <;>
    simp [retain, Position.dropProximity, Position.dropMovement, bne, beq_eq_decide]

/-- The watches that a revocation concerns and those that it leaves are all of them. -/
theorem count_add_watchCount (r : Revocation) :
    (if r.ofProximity then t.position.proximityCount r.subscriber
      else t.position.movementCount r.subscriber) +
    (t.retain fun kind s => !(kind = r.ofProximity && s = r.subscriber)).watchCount =
      t.watchCount := by
  rw [retain_eq_drop]
  have hmovement := t.position.movementWatches.length_eq_length_filter_add
    (·.subscriber == r.subscriber)
  have hproximity := t.position.proximityWatches.length_eq_length_filter_add
    (·.subscriber == r.subscriber)
  rw [← List.countP_eq_length_filter] at hmovement hproximity
  unfold watchCount
  cases r.ofProximity <;>
    simp only [Bool.false_eq_true, ↓reduceIte, Position.dropMovement, Position.dropProximity,
      Position.movementCount, Position.proximityCount, bne] <;> omega

end Tracked

namespace Tracker

/-- The tracked positions with those watches whose subscriber satisfies `p` for the position and
their kind. -/
def retain (p : PositionId → Bool → String → Bool) (t : Tracker) : Tracker :=
  { t with slots := t.slots.map fun id slot => slot.retain (p id) }

/-- Number of watches on tracked positions. -/
def watchCount (t : Tracker) : Nat := t.slots.sum fun _ slot => slot.watchCount

variable (t : Tracker)

theorem get?_retain (p : PositionId → Bool → String → Bool) (id : PositionId) :
    (t.retain p).slots.get? id = (t.slots.get? id).map (Tracked.retain (p id)) :=
  t.slots.get?_map_with_key _ id

theorem retain_retain (p q : PositionId → Bool → String → Bool) :
    (t.retain p).retain q = t.retain fun id kind s => p id kind s && q id kind s := by
  unfold retain
  congr 1
  refine Table.ext_entries ?_
  simp only [Table.map, List.map_map]
  exact List.map_congr_left fun e _ => congrArg (Prod.mk e.1) (e.2.retain_retain ..)

theorem retain_true : (t.retain fun _ _ _ => true) = t := by
  unfold retain
  congr 1
  refine Table.ext_entries ?_
  simp [Table.map, Tracked.retain_true]

/-- A revocation concerns its own position only. -/
theorem revoke_eq_retain (r : Revocation) :
    { t with slots := revoke t.slots r } =
      t.retain fun id kind s => !(id = r.id && kind = r.ofProximity && s = r.subscriber) := by
  unfold retain revoke
  congr 1
  refine Table.ext_entries (List.map_congr_left fun e _ => ?_)
  by_cases hid : e.1 = r.id
  · have hdrop := e.2.retain_eq_drop r
    simp only [hid, ↓reduceIte, decide_true, Bool.true_and]
    exact congrArg (Prod.mk r.id) hdrop.symm
  · rw [if_neg hid]
    simp [hid, Tracked.retain_true]

/-- The number of watches goes down by those that are dropped. -/
theorem revokedCount_add_watchCount (r : Revocation) :
    revokedCount t.slots r + watchCount { t with slots := revoke t.slots r } = t.watchCount := by
  unfold revokedCount watchCount revoke
  cases hget : t.slots.get? r.id with
  | none =>
    rw [Table.modify_of_get?_none hget]
    exact Nat.zero_add _
  | some slot =>
    have hsum := t.slots.sum_modify (fun _ slot => slot.watchCount) (fun slot =>
      { slot with
        position :=
          if r.ofProximity then slot.position.dropProximity r.subscriber
          else slot.position.dropMovement r.subscriber }) hget
    have hown := slot.count_add_watchCount r
    rw [Tracked.retain_eq_drop] at hown
    dsimp only at hsum hown ⊢
    omega

/-- In the midst of heeding revocations, all watches that have been counted so far are gone. -/
theorem foldl_revoke (rs : List Revocation) (count : Nat) :
    let pruned := rs.foldl (fun (count, slots) r =>
      (count + revokedCount slots r, revoke slots r)) (count, t.slots)
    { t with slots := pruned.2 } = t.retain (fun id kind s => !decide (⟨id, kind, s⟩ ∈ rs)) ∧
      pruned.1 + watchCount { t with slots := pruned.2 } = count + t.watchCount := by
  induction rs generalizing t count with
  | nil =>
    simp only [List.foldl_nil, List.not_mem_nil, decide_false, Bool.not_false, retain_true,
      and_self]
  | cons r rs ih =>
    have hcons : (fun id kind s => !decide ((⟨id, kind, s⟩ : Revocation) ∈ r :: rs)) =
        fun id kind s => !(id = r.id && kind = r.ofProximity && s = r.subscriber) &&
          !decide ((⟨id, kind, s⟩ : Revocation) ∈ rs) := by
      funext id kind s
      cases r
      simp only [List.mem_cons, Revocation.mk.injEq, Bool.decide_or, Bool.decide_and,
        Bool.not_or, Bool.and_assoc]
    obtain ⟨hretain, hcount⟩ :=
      ih { t with slots := revoke t.slots r } (count + revokedCount t.slots r)
    have hone := t.revokedCount_add_watchCount r
    rw [List.foldl_cons, hcons, ← retain_retain, ← revoke_eq_retain]
    exact ⟨hretain, hcount.trans (by omega)⟩

/-- Heeding some revocations drops the watches that they name and no others, and the number of those
is told. -/
theorem prune_spec (h : t.poisoned = false) (rs : List Revocation) :
    ∃ count, t.prune rs =
        .ok (count, t.retain fun id kind s => !decide (⟨id, kind, s⟩ ∈ rs)) ∧
      count + (t.retain fun id kind s => !decide (⟨id, kind, s⟩ ∈ rs)).watchCount =
        t.watchCount := by
  obtain ⟨hretain, hcount⟩ := t.foldl_revoke rs 0
  rw [Nat.zero_add] at hcount
  cases rs with
  | nil =>
    refine ⟨0, ?_, ?_⟩
    · rw [← hretain]
      rfl
    · rw [← hretain]
      exact hcount
  | cons r rs =>
    refine ⟨_, ?_, hretain ▸ hcount⟩
    simp only [prune, open?_eq_ok h]
    rw [← hretain]
    rfl

end Tracker

/-! ### Ticks -/

namespace World

/-- The world with other tracked positions. -/
def withTracker (w : World κ ε) (t : Tracker) : World κ ε := { w with tracker := t }

/-- Makes calls, one after the other. -/
def call (host : Host κ ε) (calls : List Call) (w : World κ ε) : List Reply × World κ ε :=
  askAll (fun c : Call => host.hearPosition c.notice.listener c.event) calls w

variable (host : Host κ ε)

/-- Telling listeners does not fail where the tracker can be trusted. -/
theorem notify_eq (report : TickReport) (calls : List Call) {w w' : World κ ε}
    {replies : List Reply} (hcalled : call host calls w = (replies, w'))
    (hw' : w'.tracker.poisoned = false) :
    let kept := w'.tracker.retain fun id kind subscriber =>
      !Call.revokes (calls.zip replies) id kind subscriber
    ∃ answered, w.notify host report calls = (.ok answered, w'.withTracker kept) ∧
      answered = report.answered replies answered.revoked ∧
      answered.revoked + kept.watchCount = w'.tracker.watchCount := by
  intro kept
  obtain ⟨count, hprune, hcount⟩ :=
    w'.tracker.prune_spec hw' (Revocation.ofReplies calls replies)
  have hkept : (w'.tracker.retain fun id kind s =>
      !decide (⟨id, kind, s⟩ ∈ Revocation.ofReplies calls replies)) = kept := by
    congr 1
    funext id kind s
    rw [Bool.eq_iff_iff]
    simp only [Bool.not_eq_true', decide_eq_false_iff_not, Revocation.mem_ofReplies,
      Bool.not_eq_true]
  rw [hkept] at hprune hcount
  refine ⟨report.answered replies count, ?_, rfl, hcount⟩
  unfold call at hcalled
  simp only [notify, hcalled, hprune]
  rfl

/-- What a tick tells is complete, ordered and isolated.  In the order of registration it calls on
behalf of each position the movement watches that are due, if its advance reported a change, then
the proximity watches whose threshold was crossed, and then, if it stopped, all of its movement
watches; nobody on behalf of a position whose advance failed.  All of these are told, in this order
and each once, whatever the others reply, and see the position as the tick has left it.  The report
counts those that handled the notice and those that failed.  Then each position has lost those
movement watches whose subscriber was revoked in a reply to one of its notices of movement or of the
stop, and those proximity watches whose subscriber was revoked in a reply to one of its notices of
crossings; nothing else has changed, and the report has the number of watches that are gone.  If
listeners only reply, what there was before is what the tick itself left. -/
theorem tick_notifies (host : Host κ ε) (w : World κ ε) (hw : w.tracker.IsOrderly)
    (elapsed : Float) :
    let start := Tracker.coordinatesIn w.tracker.slots
    let current := Tracker.coordinatesAfter w.tracker.slots elapsed
    let after := fun t : Tracked => t.alone elapsed start current
    let ticked := w.withTracker { w.tracker with slots := w.tracker.slots.map fun _ => after }
    let calls := w.tracker.slots.entries.flatMap fun e => e.2.callsIn elapsed start current
    (∀ id t, w.tracker.slots.get? id = some t →
      (∀ c ∈ t.callsIn elapsed start current,
        c.position.id = id ∧ c.position = (after t).position) ∧
      ∀ e, t.afterAdvance elapsed start = .error e →
        after t = t ∧ t.callsIn elapsed start current = []) ∧
    ∀ replies w', call host calls ticked = (replies, w') →
      let kept := w'.tracker.retain fun id kind subscriber =>
        !Call.revokes (calls.zip replies) id kind subscriber
      replies.length = calls.length ∧
      (∀ log, host.Records log → log w'.outside =
        log w.outside ++ calls.map fun c => (c.notice.listener, c.event)) ∧
      (host.OnlyReplies → ∃ outside, w' = { ticked with outside := outside }) ∧
      (w'.tracker.poisoned = false → ∃ report,
        w.tick host elapsed = (.ok report, w'.withTracker kept) ∧
        report.notified = replies.countP Reply.isOk ∧
        report.callbackFailures = replies.countP Reply.isFailure ∧
        report.revoked + kept.watchCount = w'.tracker.watchCount) := by
  intro start current after ticked calls
  obtain ⟨hentries, -, hcalls⟩ := Tracker.Tick.run_spec w.tracker.slots elapsed
  have hslots : (Tracker.Tick.run w.tracker.slots elapsed).slots =
      w.tracker.slots.map fun _ => after := Table.ext_entries hentries
  have hcalls : (Tracker.Tick.run w.tracker.slots elapsed).calls = calls := by
    rw [hcalls]
    simp only [Tracked.callsOf_eq]
    rfl
  refine ⟨fun id t ht => ⟨fun c hc => ?_, fun e he => ⟨?_, ?_⟩⟩, fun replies w' hcalled => ?_⟩
  · obtain ⟨n, -, rfl⟩ := List.mem_map.mp hc
    exact ⟨((hw.filed id t ht).alone elapsed start current).id, rfl⟩
  · show t.alone elapsed start current = t
    unfold Tracked.alone
    rw [he]
  · exact t.callsIn_of_afterAdvance elapsed start current he
  · have hreplies : (call host calls ticked).1 = replies := by rw [hcalled]
    have hworld : (call host calls ticked).2 = w' := by rw [hcalled]
    refine ⟨?_, fun log hlog => ?_, fun hhost => ?_, fun hw' => ?_⟩
    · rw [← hreplies]
      exact length_askAll ..
    · rw [← hworld]
      exact log_hearAll hlog calls ticked
    · obtain ⟨outside, houtside⟩ := exists_askAll_eq
        (fun c : Call => hhost.positions c.notice.listener c.event) calls ticked
      exact ⟨outside, hworld.symm.trans houtside⟩
    · have hadvance := Tracker.advance_eq_ok hw.intact elapsed
      rw [hslots, hcalls] at hadvance
      obtain ⟨report, hnotify, hanswered, hcount⟩ := notify_eq host
        (Tracker.Tick.run w.tracker.slots elapsed).report calls hcalled hw'
      refine ⟨report, ?_, ?_, ?_, hcount⟩
      · rw [← hnotify]
        simp only [tick, move, hadvance]
        rfl
      · rw [hanswered]
        rfl
      · rw [hanswered]
        rfl

end World

/-! ### A parade -/

namespace Parade

/-- The position of those who march. -/
def place : PositionId := ⟨1⟩

/-- One step to the side, and then they stop. -/
def march : Position where
  id := place
  rule := .cruise ⟨⟨1.0, 0.0, 0.0⟩, 1.0, some 1.0, none⟩

/-- Ann looks twice.  Bob looks as well, and would also like to know when a position that does not
exist comes near. -/
def scene : List Maneuver :=
  [.track march, .watchMovement place { subscriber := "ann", listener := ⟨0⟩ },
    .watchMovement place { subscriber := "bob", listener := ⟨1⟩ },
    .watchMovement place { subscriber := "ann", listener := ⟨2⟩ },
    .watchProximity place
      { subscriber := "bob", target := ⟨2⟩, distance := 1.0, trigger := .crossed,
        listener := ⟨1⟩ }]

/-- The world before the parade. -/
def world : World Unit (List (ListenerId × PositionEvent)) where
  tracker := ({} : Tracker).after scene
  outside := []

theorem isOrderly_world : world.tracker.IsOrderly := by
  simp only [world]
  exact Tracker.isOrderly_after Tracker.isOrderly_empty scene

/-- The surroundings in which one listener is content, the next one fails, and all others want Bob
to be revoked.  All that they are told is logged. -/
def host : Host Unit (List (ListenerId × PositionEvent)) where
  hook _ progress body scene outside := ⟨.ok (), progress, body, scene, outside⟩
  mayExecute _ _ _ := false
  isOver _ _ _ := true
  credit _ outside := outside
  hearPosition listener event w :=
    (match listener.number with
      | 0 => .ok ()
      | 1 => .error (.failed "busy")
      | _ => .error (.revoked "bob"),
      { w with outside := w.outside ++ [(listener, event)] })
  hearEntity _ _ w := (.ok (), w)

theorem records_host : host.Records id := fun _ _ _ => rfl

theorem onlyReplies_host : host.OnlyReplies where
  positions listener event w := ⟨w.outside ++ [(listener, event)], rfl⟩
  entities _ _ w := ⟨w.outside, rfl⟩

end Parade

open Parade in
/-- Everybody is told of the march and then that it is over, though one listener fails both times.
Bob loses the watch that he has on the march, and keeps the other one. -/
theorem World.tick_notifies_parade :
    ∃ report w', world.tick host 1.0 = (.ok report, w') ∧
      report.notified = 2 ∧ report.callbackFailures = 2 ∧ report.revoked = 1 ∧
      w'.outside.map (·.1) = [⟨0⟩, ⟨1⟩, ⟨2⟩, ⟨0⟩, ⟨1⟩, ⟨2⟩] ∧
      (w'.tracker.slots.get? place).any (fun slot =>
        slot.position.movementWatches.map (·.subscriber) = ["ann", "ann"] ∧
          slot.position.proximityWatches.map (·.subscriber) = ["bob"]) = true := by
  have hworld : world.tracker.IsOrderly := isOrderly_world
  let start := Tracker.coordinatesIn world.tracker.slots
  let current := Tracker.coordinatesAfter world.tracker.slots 1.0
  let ticked := world.withTracker { world.tracker with
    slots := world.tracker.slots.map fun _ t => t.alone 1.0 start current }
  let calls := world.tracker.slots.entries.flatMap fun e => e.2.callsIn 1.0 start current
  obtain ⟨-, hcalls⟩ := tick_notifies host world hworld 1.0
  obtain ⟨-, hlog, hkeeps, hreport⟩ := hcalls (call host calls ticked).1 (call host calls ticked).2
    (Prod.eta _).symm
  have houtside := hlog id records_host
  obtain ⟨outside, hleft⟩ := hkeeps onlyReplies_host
  obtain ⟨report, htick, hnotified, hfailures, hrevoked⟩ :=
    hreport (by simp only [hleft, withTracker, hworld.intact])
  have hok : (call host calls ticked).1.countP Reply.isOk = 2 := by decide +kernel
  have hfailed : (call host calls ticked).1.countP Reply.isFailure = 2 := by decide +kernel
  have hbefore : (call host calls ticked).2.tracker.watchCount = 4 := by decide +kernel
  have hafter : ((call host calls ticked).2.tracker.retain fun id kind subscriber =>
      !Call.revokes (calls.zip (call host calls ticked).1) id kind subscriber).watchCount = 3 := by
    decide +kernel
  have hcount : report.revoked + 3 = 4 :=
    (congrArg (report.revoked + ·) hafter).symm.trans (hrevoked.trans hbefore)
  refine ⟨report, _, htick, hnotified.trans hok, hfailures.trans hfailed,
    Nat.add_right_cancel hcount, ?_, ?_⟩
  · simp only [withTracker, id_eq] at houtside ⊢
    rw [houtside]
    decide +kernel
  · decide +kernel

end Orrery
