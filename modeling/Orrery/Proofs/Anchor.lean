import Mathlib.Data.List.Induction
import Orrery.Proofs.Upkeep

/-!
# Anchors

A movement watch reports when its position has come far enough from its anchor.  What happens to a
position matters to a watch in a few ways only (`Position.Incident`): a change was reported, the
position jumped, or the watches of a subscriber were dropped.  Each watch answers to that by itself
(`Position.perform_watchedBy`), so it reports just what it would if it were the only one.

The anchor is where the position was at the latest of the registration of the watch, its last report
and the last jump, and nothing that is far enough from there goes unreported
(`Position.movement_anchored`).  The advances among all this are what ticks make of active positions
(`Tracked.stride_of_active`).
-/

namespace Orrery

namespace Position

/-! ### Runs -/

/-- Something that is done to a position. -/
inductive Deed where
  /-- Nothing. -/
  | pass
  /-- An advance.  If it reports a change, the movement watches that are due report it. -/
  | advance (elapsed : Float) (targets : Lookup)
  | setRule (rule : Rule Float)
  | teleport (coords : Point)
  | watchMovement (w : MovementWatch)
  | dropMovement (subscriber : String)
  | watchProximity (w : ProximityWatch)
  | dropProximity (subscriber : String)
  /-- The proximity watches take their measurements. -/
  | measure (targets : Lookup)

/-- What a deed leads to. -/
structure Outcome where
  position : Position
  /-- An advance that reported a change. -/
  changed : Bool := false
  /-- A teleport that was not refused. -/
  jumped : Bool := false
  /-- The movement watches that reported. -/
  hits : List MovementHit := []

/-- Does something to a position, which stays as it was if that is refused. -/
def perform (p : Position) : Deed → Outcome
  | .pass => { position := p }
  | .advance elapsed targets =>
    match p.advance elapsed targets with
    | .error _ => { position := p }
    | .ok (p, false) => { position := p }
    | .ok (p, true) => { position := p.dueMovement.2, changed := true, hits := p.dueMovement.1 }
  | .setRule rule => { position := (p.setRule rule).toOption.getD p }
  | .teleport coords =>
    match p.teleport coords with
    | .error _ => { position := p }
    | .ok p => { position := p, jumped := true }
  | .watchMovement w => { position := p.watchMovement w }
  | .dropMovement subscriber => { position := p.dropMovement subscriber }
  | .watchProximity w => { position := p.watchProximity w }
  | .dropProximity subscriber => { position := p.dropProximity subscriber }
  | .measure targets => { position := (p.dueProximity targets).2 }

/-- The position after some deeds. -/
def after (p : Position) (ds : List Deed) : Position :=
  ds.foldl (fun p d => (p.perform d).position) p

/-- What each of some deeds leads to. -/
def outcomes (p : Position) : List Deed → List Outcome
  | [] => []
  | d :: ds => p.perform d :: (p.perform d).position.outcomes ds

/-- The position with other movement watches. -/
def watchedBy (p : Position) (ws : List MovementWatch) : Position :=
  { p with movementWatches := ws }

/-- The deed, unless it registers a movement watch. -/
def Deed.lonely : Deed → Deed
  | watchMovement _ => pass
  | d => d

/-- The deed, unless it registers a movement watch or drops those of another subscriber. -/
def Deed.apartFrom (subscriber : String) : Deed → Deed
  | watchMovement _ => pass
  | dropMovement s => if s = subscriber then dropMovement s else pass
  | d => d

/-! ### One watch at a time -/

/-- What a deed means to the movement watches. -/
inductive Incident where
  /-- Nothing that concerns them. -/
  | none
  /-- A change is reported, and leads there. -/
  | change (coords : Point)
  /-- A jump leads there. -/
  | jump (coords : Point)
  /-- The watches of a subscriber are dropped. -/
  | drop (subscriber : String)

end Position

namespace MovementWatch

open Position (Incident)

/-- A watch after an incident, if it is still there. -/
def after? (w : MovementWatch) : Incident → Option MovementWatch
  | .none => some w
  | .change coords => some (if w.isDue coords then w.anchoredAt coords else w)
  | .jump coords => some (w.anchoredAt coords)
  | .drop subscriber => if w.subscriber = subscriber then none else some w

/-- What a watch reports of an incident. -/
def hit? (w : MovementWatch) : Incident → Option MovementHit
  | .change coords => if w.isDue coords then some ⟨w.anchoredAt coords, w.anchor⟩ else none
  | _ => none

end MovementWatch

namespace Position

/-- What a deed means to the movement watches of a position. -/
def incident (p : Position) : Deed → Incident
  | .advance elapsed targets =>
    match p.advance elapsed targets with
    | .ok (p, true) => .change p.coords
    | _ => .none
  | .teleport coords =>
    match p.teleport coords with
    | .ok _ => .jump coords
    | .error _ => .none
  | .dropMovement subscriber => .drop subscriber
  | _ => .none

/-- The watch that a deed registers, anchored where the position is. -/
def newcomer (p : Position) : Deed → List MovementWatch
  | .watchMovement w => [w.anchoredAt p.coords]
  | _ => []

/-! ### The deeds -/

section Deeds

variable (p : Position) (ws : List MovementWatch)

theorem advance_watchedBy (elapsed : Float) (targets : Lookup) :
    (p.watchedBy ws).advance elapsed targets =
      (p.advance elapsed targets).map fun r => (r.1.watchedBy ws, r.2) := by
  unfold advance watchedBy
  dsimp only
  split
  · rfl
  · split <;> rfl

theorem setRule_watchedBy (rule : Rule Float) :
    (p.watchedBy ws).setRule rule = (p.setRule rule).map (·.watchedBy ws) := by
  unfold setRule
  split <;> rfl

theorem teleport_watchedBy (coords : Point) :
    (p.watchedBy ws).teleport coords =
      (p.teleport coords).map (·.watchedBy (ws.map (·.anchoredAt coords))) := by
  unfold teleport
  split <;> rfl

theorem dueMovement_watchedBy : (p.watchedBy ws).dueMovement =
    (ws.filterMap (·.hit? (.change p.coords)),
      p.watchedBy (ws.filterMap (·.after? (.change p.coords)))) := by
  have hhits : ∀ l : List MovementWatch, (l.filter fun w => w.isDue p.coords).map
      (fun w => (⟨w.anchoredAt p.coords, w.anchor⟩ : MovementHit)) =
        l.filterMap (·.hit? (.change p.coords)) := by
    intro l
    induction l with
    | nil => rfl
    | cons w l ih =>
      rw [List.filter_cons, List.filterMap_cons, ← ih, MovementWatch.hit?]
      split <;> rfl
  have hafter : ∀ l : List MovementWatch,
      (l.map fun w => if w.isDue p.coords then w.anchoredAt p.coords else w) =
        l.filterMap (·.after? (.change p.coords)) :=
    fun l => (congrFun List.filterMap_eq_map l).symm
  exact Prod.ext (hhits ws) (congrArg p.watchedBy (hafter ws))

theorem filterMap_after?_none : ws.filterMap (·.after? .none) = ws := List.filterMap_some

theorem filterMap_after?_drop (s : String) :
    ws.filterMap (·.after? (.drop s)) = ws.filter (·.subscriber != s) := by
  induction ws with
  | nil => rfl
  | cons w ws ih =>
    rw [List.filterMap_cons, List.filter_cons, ih, MovementWatch.after?]
    by_cases h : w.subscriber = s <;> simp [h]

/-- Only a change is reported. -/
theorem filterMap_hit?_eq_nil {i : Incident} (h : ∀ coords, i ≠ .change coords) :
    ws.filterMap (·.hit? i) = [] := by
  rw [List.filterMap_eq_nil_iff]
  intro w _
  cases i with
  | change coords => exact absurd rfl (h coords)
  | none | jump | drop => rfl

end Deeds

/-- The same deed does the same to a position with other movement watches, and each of these answers
by itself. -/
theorem perform_watchedBy (p : Position) (ws : List MovementWatch) (d : Deed) :
    (p.watchedBy ws).perform d =
      { (p.perform d) with
        position := (p.perform d).position.watchedBy
          (ws.filterMap (·.after? (p.incident d)) ++ p.newcomer d)
        hits := ws.filterMap (·.hit? (p.incident d)) } := by
  have hnone : ws.filterMap (·.hit? .none) = [] := filterMap_hit?_eq_nil ws nofun
  cases d with
  | pass | watchProximity | dropProximity | measure | watchMovement =>
    simp only [incident, newcomer, filterMap_after?_none, List.append_nil, hnone]
    rfl
  | advance elapsed targets =>
    simp only [perform, advance_watchedBy, incident, newcomer, List.append_nil]
    cases p.advance elapsed targets with
    | error e => simp only [Except.map, filterMap_after?_none, hnone]
    | ok r =>
      obtain ⟨q, changed⟩ := r
      cases changed with
      | false => simp only [Except.map, filterMap_after?_none, hnone]
      | true =>
        simp only [Except.map, dueMovement_watchedBy]
        rfl
  | setRule rule =>
    simp only [perform, setRule_watchedBy, incident, newcomer, filterMap_after?_none,
      List.append_nil, hnone]
    cases p.setRule rule <;> rfl
  | teleport coords =>
    have hmap : ws.filterMap (·.after? (.jump coords)) = ws.map (·.anchoredAt coords) :=
      congrFun List.filterMap_eq_map ws
    have hjump : ws.filterMap (·.hit? (.jump coords)) = [] := filterMap_hit?_eq_nil ws nofun
    simp only [perform, teleport_watchedBy, incident, newcomer, List.append_nil]
    cases p.teleport coords with
    | error e => simp only [Except.map, filterMap_after?_none, hnone]
    | ok q => simp only [Except.map, hmap, hjump]
  | dropMovement s =>
    have hdrop : ws.filterMap (·.hit? (.drop s)) = [] := filterMap_hit?_eq_nil ws nofun
    simp only [perform, incident, newcomer, List.append_nil, hdrop, filterMap_after?_drop]
    rfl

/-- What an incident says about the deed. -/
theorem incident_cases (p : Position) (d : Deed) :
    (p.incident d = .none ∧ (p.perform d).changed = false ∧ (p.perform d).jumped = false ∧
        ∀ s, d ≠ .dropMovement s) ∨
      (p.incident d = .change (p.perform d).position.coords ∧ (p.perform d).changed = true ∧
        (p.perform d).jumped = false ∧ ∀ s, d ≠ .dropMovement s) ∨
      (p.incident d = .jump (p.perform d).position.coords ∧ (p.perform d).changed = false ∧
        (p.perform d).jumped = true ∧ ∀ s, d ≠ .dropMovement s) ∨
      ∃ s, d = .dropMovement s ∧ p.incident d = .drop s ∧ (p.perform d).changed = false ∧
        (p.perform d).jumped = false := by
  cases d with
  | pass | setRule | watchMovement | watchProximity | dropProximity | measure =>
    exact .inl ⟨rfl, rfl, rfl, nofun⟩
  | dropMovement s => exact .inr (.inr (.inr ⟨s, rfl, rfl, rfl, rfl⟩))
  | advance elapsed targets =>
    simp only [incident, perform]
    cases p.advance elapsed targets with
    | error e => exact .inl ⟨rfl, rfl, rfl, nofun⟩
    | ok r =>
      obtain ⟨q, changed⟩ := r
      cases changed with
      | false => exact .inl ⟨rfl, rfl, rfl, nofun⟩
      | true => exact .inr (.inl ⟨rfl, rfl, rfl, nofun⟩)
  | teleport coords =>
    simp only [incident, perform]
    cases hjump : p.teleport coords with
    | error e => exact .inl ⟨rfl, rfl, rfl, nofun⟩
    | ok q =>
      obtain ⟨-, rfl⟩ := teleport_eq_ok hjump
      exact .inr (.inr (.inl ⟨rfl, rfl, rfl, nofun⟩))

/-! ### Independence -/

/-- Without a registration there is no newcomer. -/
theorem perform_lonely (p : Position) (ws : List MovementWatch) (d : Deed) :
    (p.watchedBy ws).perform d.lonely =
      { (p.perform d) with
        position := (p.perform d).position.watchedBy (ws.filterMap (·.after? (p.incident d)))
        hits := ws.filterMap (·.hit? (p.incident d)) } := by
  have h := p.perform_watchedBy ws d
  cases d with
  | watchMovement w =>
    have hnone : ws.filterMap (·.hit? .none) = [] := filterMap_hit?_eq_nil ws nofun
    simp only [incident, filterMap_after?_none, hnone]
    rfl
  | pass | advance | setRule | teleport | dropMovement | watchProximity | dropProximity | measure =>
    simp only [newcomer, List.append_nil] at h
    exact h

/-- To the watches of one subscriber it does not matter that those of another one are dropped. -/
theorem perform_apartFrom (p : Position) {ws : List MovementWatch} {s : String}
    (hws : ∀ w ∈ ws, w.subscriber = s) (d : Deed) :
    (p.watchedBy ws).perform (d.apartFrom s) =
      { (p.perform d) with
        position := (p.perform d).position.watchedBy (ws.filterMap (·.after? (p.incident d)))
        hits := ws.filterMap (·.hit? (p.incident d)) } := by
  rw [← perform_lonely]
  cases d with
  | dropMovement s' =>
    unfold Deed.apartFrom Deed.lonely
    dsimp only
    split
    · rfl
    · next hne =>
      have hsame : ws.filter (·.subscriber != s') = ws := by
        rw [List.filter_eq_self]
        intro w hw
        rw [hws w hw]
        simpa using fun h => hne h.symm
      simp only [perform, dropMovement, watchedBy, hsame]
  | pass | advance | setRule | teleport | watchMovement | watchProximity | dropProximity |
      measure => rfl

theorem subscriber_of_after? {w w' : MovementWatch} {i : Incident} (h : w.after? i = some w') :
    w'.subscriber = w.subscriber := by
  cases i with
  | none | jump =>
    cases h
    rfl
  | change coords =>
    cases h
    split <;> rfl
  | drop s =>
    rw [MovementWatch.after?] at h
    split at h <;> cases h
    rfl

theorem after_cons (p : Position) (d : Deed) (ds : List Deed) :
    p.after (d :: ds) = (p.perform d).position.after ds := rfl

/-- What is left of some watches after deeds. -/
def remaining (p : Position) (ws : List MovementWatch) : List Deed → List MovementWatch
  | [] => ws
  | d :: ds => (p.perform d).position.remaining (ws.filterMap (·.after? (p.incident d))) ds

/-- What is left of the watches that were registered by the deeds. -/
def joined (p : Position) : List Deed → List MovementWatch
  | [] => []
  | d :: ds =>
    (p.perform d).position.remaining (p.newcomer d) ds ++ (p.perform d).position.joined ds

theorem remaining_nil (p : Position) (ds : List Deed) : p.remaining [] ds = [] := by
  induction ds generalizing p with
  | nil => rfl
  | cons d ds ih => exact ih _

theorem remaining_append (p : Position) (ws ws' : List MovementWatch) (ds : List Deed) :
    p.remaining (ws ++ ws') ds = p.remaining ws ds ++ p.remaining ws' ds := by
  induction ds generalizing p ws ws' with
  | nil => rfl
  | cons d ds ih => rw [remaining, List.filterMap_append, ih]; rfl

theorem after_watchedBy (p : Position) (ws : List MovementWatch) (ds : List Deed) :
    (p.watchedBy ws).after ds = (p.after ds).watchedBy (p.remaining ws ds ++ p.joined ds) := by
  induction ds generalizing p ws with
  | nil => exact congrArg p.watchedBy (List.append_nil ws).symm
  | cons d ds ih =>
    rw [after_cons, perform_watchedBy, ih, remaining_append, List.append_assoc]
    rfl

/-- Without registrations only what there was is left. -/
theorem after_lonely (p : Position) (ws : List MovementWatch) (ds : List Deed) :
    (p.watchedBy ws).after (ds.map Deed.lonely) = (p.after ds).watchedBy (p.remaining ws ds) := by
  induction ds generalizing p ws with
  | nil => rfl
  | cons d ds ih =>
    rw [List.map_cons, after_cons, perform_lonely, ih]
    rfl

/-- Apart from all others only what there was of the subscriber is left, too. -/
theorem after_apartFrom (p : Position) {ws : List MovementWatch} {s : String}
    (hws : ∀ w ∈ ws, w.subscriber = s) (ds : List Deed) :
    (p.watchedBy ws).after (ds.map (Deed.apartFrom s)) =
      (p.after ds).watchedBy (p.remaining ws ds) := by
  induction ds generalizing p ws with
  | nil => rfl
  | cons d ds ih =>
    rw [List.map_cons, after_cons, perform_apartFrom p hws, ih]
    · rfl
    · intro w' hw'
      obtain ⟨w, hw, hafter⟩ := List.mem_filterMap.mp hw'
      rw [subscriber_of_after? hafter, hws w hw]

theorem remaining_concat (p : Position) (ws : List MovementWatch) (ds : List Deed) (d : Deed) :
    p.remaining ws (ds ++ [d]) =
      (p.remaining ws ds).filterMap (·.after? ((p.after ds).incident d)) := by
  induction ds generalizing p ws with
  | nil => rfl
  | cons e ds ih => exact ih ..

/-! ### The origin -/

theorem outcomes_concat (p : Position) (ds : List Deed) (d : Deed) :
    p.outcomes (ds ++ [d]) = p.outcomes ds ++ [(p.after ds).perform d] := by
  induction ds generalizing p with
  | nil => rfl
  | cons e ds ih => exact congrArg (p.perform e :: ·) (ih _)

/-- Where a position was at the latest of its reports and its jumps, or else at `start`. -/
def latest (start : Point) (story : List Outcome) : Point :=
  ((story.filter fun o => o.jumped || !o.hits.isEmpty).getLast?.map (·.position.coords)).getD start

theorem latest_concat (start : Point) (story : List Outcome) (o : Outcome) :
    latest start (story ++ [o]) =
      if o.jumped || !o.hits.isEmpty then o.position.coords else latest start story := by
  unfold latest
  rw [List.filter_append, List.filter_singleton]
  cases o.jumped || !o.hits.isEmpty <;> simp

section Alone

variable {p : Position} {w : MovementWatch} {origin : Point}

/-- A watch goes with the deed that drops it.  Otherwise it is anchored where the position is then,
if it reports or the position jumps. -/
theorem after?_incident (p : Position) (w : MovementWatch) (origin : Point) (d : Deed) :
    (d = .dropMovement w.subscriber → (w.anchoredAt origin).after? (p.incident d) = none) ∧
    (d ≠ .dropMovement w.subscriber → (w.anchoredAt origin).after? (p.incident d) =
      some (w.anchoredAt
        (if (p.perform d).jumped || !((w.anchoredAt origin).hit? (p.incident d)).toList.isEmpty then
          (p.perform d).position.coords
        else origin))) := by
  obtain ⟨hi, -, hjump, hd⟩ | ⟨hi, -, hjump, hd⟩ | ⟨hi, -, hjump, hd⟩ | ⟨s, rfl, hi, -, hjump⟩ :=
    p.incident_cases d
  · exact ⟨fun h => absurd h (hd _), fun _ => by rw [hi, hjump]; rfl⟩
  · refine ⟨fun h => absurd h (hd _), fun _ => ?_⟩
    rw [hi, hjump, MovementWatch.after?, MovementWatch.hit?]
    split <;> rfl
  · exact ⟨fun h => absurd h (hd _), fun _ => by rw [hi, hjump]; rfl⟩
  · rw [hi, hjump]
    refine ⟨?_, fun hne => ?_⟩
    · rintro ⟨⟩
      exact if_pos rfl
    · exact if_neg fun h => hne (congrArg Deed.dropMovement h.symm)

/-- A watch reports just if a change is reported and it is due. -/
theorem hit?_incident (p : Position) (w : MovementWatch) (origin : Point) (d : Deed) :
    (w.anchoredAt origin).hit? (p.incident d) =
      if (p.perform d).changed &&
          w.minDistance.le ((p.perform d).position.coords.distance origin) then
        some ⟨w.anchoredAt (p.perform d).position.coords, origin⟩
      else none := by
  obtain ⟨hi, hchanged, -⟩ | ⟨hi, hchanged, -⟩ | ⟨hi, hchanged, -⟩ | ⟨s, -, hi, hchanged, -⟩ :=
    p.incident_cases d
  · rw [hi, hchanged]
    rfl
  · rw [hi, hchanged, Bool.true_and]
    rfl
  · rw [hi, hchanged]
    rfl
  · rw [hi, hchanged]
    rfl

theorem filterMap_singleton {α β : Type} (f : α → Option β) (a : α) :
    [a].filterMap f = (f a).toList := by
  cases h : f a <;> simp [h]

/-- The watch stays until its subscriber drops it, anchored at the latest of its reports and the
jumps. -/
theorem remaining_alone (p : Position) (w : MovementWatch) (origin : Point) (ds : List Deed) :
    (.dropMovement w.subscriber ∈ ds ∧ p.remaining [w.anchoredAt origin] ds = []) ∨
      (.dropMovement w.subscriber ∉ ds ∧ p.remaining [w.anchoredAt origin] ds =
        [w.anchoredAt (latest origin ((p.watchedBy [w.anchoredAt origin]).outcomes
          (ds.map (Deed.apartFrom w.subscriber))))]) := by
  have hown : ∀ w' ∈ [w.anchoredAt origin], w'.subscriber = w.subscriber := by
    simp [MovementWatch.anchoredAt]
  induction ds using List.reverseRecOn with
  | nil => exact .inr ⟨nofun, rfl⟩
  | append_singleton ds d ih =>
    rw [remaining_concat, List.mem_append, List.mem_singleton, List.map_append, List.map_singleton,
      outcomes_concat, latest_concat, after_apartFrom p hown]
    rcases ih with ⟨hdropped, hnone⟩ | ⟨hthere, hone⟩
    · rw [hnone]
      exact .inl ⟨.inl hdropped, rfl⟩
    · rw [hone]
      generalize latest origin _ = a
      have hsame : ∀ w' ∈ [w.anchoredAt a], w'.subscriber = w.subscriber := by
        simp [MovementWatch.anchoredAt]
      obtain ⟨hdrop, hkeep⟩ := (p.after ds).after?_incident w a d
      rw [perform_apartFrom _ hsame, filterMap_singleton, filterMap_singleton]
      by_cases hd : d = .dropMovement w.subscriber
      · rw [hdrop hd]
        exact .inl ⟨.inr hd.symm, rfl⟩
      · rw [hkeep hd]
        exact .inr ⟨not_or.mpr ⟨hthere, Ne.symm hd⟩, rfl⟩

end Alone

/-- A movement watch is anchored where it should be, and nothing that concerns it goes unreported.
Let it be registered at a position after any deeds in the past, and let more deeds be done.  Then
what the next deed makes the watches report is what it makes those report that were there before,
then what it makes this one report, and then what it makes those report that came after it; and each
of the three parts is the same as if the other watches did not exist.  In particular, for the watch
itself it does not matter which others are registered or dropped.

The watch reports, at most once, only if a change is reported, and then the distance from its origin
is at least its minimal distance; it carries the origin as the previous place.  The origin is where
the position was at the latest of the registration of the watch, its reports and the jumps.  If a
change is reported and the watch, which its subscriber did not drop, is silent, then the distance
from the same origin is not at least the minimal distance. -/
theorem movement_anchored (p : Position) (past : List Deed) (w : MovementWatch)
    (before : List Deed) (d : Deed) :
    let start := p.after past
    let apart := Deed.apartFrom w.subscriber
    let lone := (start.watchedBy []).watchMovement w
    let all := ((start.watchMovement w).after before).perform d
    let older := (start.after (before.map Deed.lonely)).perform d.lonely
    let own := (lone.after (before.map apart)).perform (apart d)
    let younger := ((start.watchedBy []).after before).perform d
    let origin := latest start.coords (lone.outcomes (before.map apart))
    let coords := own.position.coords
    (all.hits = older.hits ++ own.hits ++ younger.hits ∧ all.changed = own.changed ∧
      all.position.coords = coords) ∧
    (∀ hit ∈ own.hits, own.hits = [hit] ∧ own.changed = true ∧ hit.watch = w.anchoredAt coords ∧
      hit.previous = origin ∧ w.minDistance.le (coords.distance origin) = true) ∧
    (own.changed = true → own.hits = [] → .dropMovement w.subscriber ∉ before →
      w.minDistance.le (coords.distance origin) = false) := by
  intro start apart lone all older own younger origin coords
  have hsubscriber : ∀ w' ∈ [w.anchoredAt start.coords], w'.subscriber = w.subscriber := by
    simp [MovementWatch.anchoredAt]
  have hleft : ∀ w' ∈ start.remaining [w.anchoredAt start.coords] before,
      w'.subscriber = w.subscriber := by
    rcases start.remaining_alone w start.coords before with ⟨-, h⟩ | ⟨-, h⟩ <;> rw [h] <;>
      simp [MovementWatch.anchoredAt]
  -- what the four runs make of the deed
  have hall := (congrArg (·.perform d) (start.after_watchedBy
    (start.movementWatches ++ [w.anchoredAt start.coords]) before)).trans (perform_watchedBy ..)
  have holder := (congrArg (·.perform d.lonely)
    (start.after_lonely start.movementWatches before)).trans (perform_lonely ..)
  have hyounger := (congrArg (·.perform d) (start.after_watchedBy [] before)).trans
    (perform_watchedBy ..)
  have hown := (congrArg (·.perform (apart d)) (start.after_apartFrom hsubscriber before)).trans
    (perform_apartFrom _ hleft d)
  change all = _ at hall
  change older = _ at holder
  change younger = _ at hyounger
  change own = _ at hown
  have hcoords : coords = ((start.after before).perform d).position.coords := by
    show own.position.coords = _
    rw [hown]
    rfl
  refine ⟨?_, ?_⟩
  · rw [hcoords, hall, holder, hown, hyounger]
    simp only [remaining_append, remaining_nil, List.nil_append, List.filterMap_append,
      List.append_assoc, true_and]
    rfl
  · rw [hcoords, hown]
    dsimp only
    rcases start.remaining_alone w start.coords before with ⟨hdropped, hnone⟩ | ⟨-, hone⟩
    · rw [hnone]
      exact ⟨nofun, fun _ _ hkept => absurd hdropped hkept⟩
    · have hone : start.remaining [w.anchoredAt start.coords] before = [w.anchoredAt origin] := hone
      rw [hone, filterMap_singleton, hit?_incident]
      generalize ((start.after before).perform d).position.coords = c
      cases ((start.after before).perform d).changed with
      | false => exact ⟨nofun, nofun⟩
      | true =>
        cases hdue : w.minDistance.le (c.distance origin) with
        | false => exact ⟨nofun, fun _ _ _ => rfl⟩
        | true =>
          refine ⟨fun hit hmem => ?_, nofun⟩
          obtain rfl := List.mem_singleton.mp hmem
          exact ⟨rfl, rfl, rfl, rfl, rfl⟩

end Position

/-- In the first phase of a tick an active position makes an advance, and reports what that makes
its watches report. -/
theorem Tracked.stride_of_active {t : Tracked} (h : t.status = .active) (elapsed : Float)
    (start : Lookup) :
    let o := t.position.perform (.advance elapsed start)
    (t.stride elapsed start).slot = { t with position := o.position } ∧
      (t.stride elapsed start).moved = o.changed ∧
      (t.stride elapsed start).notices = o.hits.map .moved := by
  obtain ⟨position, status⟩ := t
  cases h
  simp only [stride, Position.perform]
  cases position.advance elapsed start with
  | error e => exact ⟨rfl, rfl, rfl⟩
  | ok r =>
    obtain ⟨p, changed⟩ := r
    cases changed <;> exact ⟨rfl, rfl, rfl⟩

end Orrery
