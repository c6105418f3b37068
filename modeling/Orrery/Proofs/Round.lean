import Mathlib.Data.List.Nodup
import Mathlib.Data.List.Perm.Basic
import Orrery.Command.Round
import Orrery.Proofs.Sweep
import Orrery.World

/-!
# A round accounts for every command

The schedule changes while a round goes through it: commands leave at the end of their turn, and
stop requests take commands off on both sides of the cursor, which may lead to more requests.  Even
so every command meets exactly one fate, and the deeds in the chronicle are those that go with it
(`Accounted`).

The invariant is `Ledger`.  It splits the commands into those that have left (finished or stopped),
those whose turn is over (before the cursor) and those whose turn is still to come.
-/

namespace Orrery

variable {κ ε : Type}

/-- What commands leave behind when a round is over, or is still going on: `finished` and `stopped`
have left, `done` have had their turn and `todo` have not. -/
structure Ledger (all finished stopped done todo : List CommandId) (log : List (Deed κ)) :
    Prop where
  /-- No name is lost or repeated. -/
  perm : (finished ++ stopped ++ (done ++ todo)).Perm all
  /-- The commands on the schedule are in order. -/
  kept : (done ++ todo).Sublist all
  /-- The turns are taken in order. -/
  turns : (turnsOf log ++ todo).Sublist all
  /-- The deeds of those that are over. -/
  finished : ∀ id ∈ finished, Fate.finished.Fits (deedsOf log id)
  /-- The deeds of those that were stopped. -/
  stopped : ∀ id ∈ stopped, Fate.stopped.Fits (deedsOf log id)
  /-- The deeds of those that have had their turn. -/
  done : ∀ id ∈ done, Fate.kept.Fits (deedsOf log id)
  /-- Those whose turn is still to come have done nothing. -/
  todo : ∀ id ∈ todo, deedsOf log id = []

namespace Ledger

variable {all F S D T D' T' : List CommandId} {log ds : List (Deed κ)} {id : CommandId}

/-- At first every turn is still to come. -/
theorem start (all : List CommandId) : Ledger all [] [] [] all ([] : List (Deed κ)) where
  perm := List.Perm.refl _
  kept := List.Sublist.refl _
  turns := List.Sublist.refl _
  finished := nofun
  stopped := nofun
  done := nofun
  todo _ _ := rfl

/-- A command that leaves the schedule, or has its turn, is nowhere else. -/
theorem not_mem (h : Ledger all F S D T log) (hall : all.Nodup)
    (hleave : (D ++ T).Perm (id :: (D' ++ T'))) : id ∉ F ∧ id ∉ S ∧ id ∉ D' ∧ id ∉ T' := by
  have hperm : (F ++ S ++ (D ++ T)).Perm (id :: (F ++ S ++ (D' ++ T'))) :=
    (hleave.append_left _).trans List.perm_middle
  have hnodup := hperm.nodup_iff.mp (h.perm.nodup_iff.mpr hall)
  simpa [and_assoc] using (List.nodup_cons.mp hnodup).1

/-- What holds of the deeds of other commands still holds when one command has done something. -/
theorem frame {P : List (Deed κ) → Prop} {ids : List CommandId} (hds : ∀ d ∈ ds, d.id = id)
    (hid : id ∉ ids) (h : ∀ other ∈ ids, P (deedsOf log other)) :
    ∀ other ∈ ids, P (deedsOf (log ++ ds) other) := by
  intro other ho
  have hne : other ≠ id := by
    rintro rfl
    exact hid ho
  rw [deedsOf_append, deedsOf_of_ne hds hne, List.append_nil]
  exact h other ho

theorem deedsOf_next (h : Ledger all F S D (id :: T) log) (hds : ∀ d ∈ ds, d.id = id) :
    deedsOf (log ++ ds) id = ds := by
  rw [deedsOf_append, h.todo id (List.mem_cons_self ..), deedsOf_self hds, List.nil_append]

theorem turns_next (h : Ledger all F S D (id :: T) log) (hturn : turnsOf ds = [id]) :
    (turnsOf (log ++ ds) ++ T).Sublist all := by
  rw [turnsOf_append, hturn, List.append_assoc, List.singleton_append]
  exact h.turns

/-- The next command has its turn and is over. -/
theorem finish (h : Ledger all F S D (id :: T) log) (hall : all.Nodup) (hds : ∀ d ∈ ds, d.id = id)
    (hturn : turnsOf ds = [id]) (hfits : Fate.finished.Fits ds) :
    Ledger all (F ++ [id]) S D T (log ++ ds) := by
  obtain ⟨hF, hS, hD, hT⟩ := h.not_mem hall List.perm_middle
  -- only the deeds of `id` change, so `frame` settles everybody else
  refine ⟨?_, ?_, h.turns_next hturn, ?_, frame hds hS h.stopped, frame hds hD h.done,
    frame (P := (· = [])) hds hT fun other ho => h.todo other (List.mem_cons_of_mem _ ho)⟩
  · refine List.Perm.trans ?_ h.perm
    rw [List.perm_iff_count]
    intro a
    simp only [List.count_append, List.count_cons, List.count_nil]
    omega
  · exact ((List.Sublist.refl D).append (List.sublist_cons_self id T)).trans h.kept
  · intro other ho
    rcases List.mem_append.mp ho with ho | ho
    · exact frame hds hF h.finished other ho
    · rw [List.mem_singleton.mp ho, h.deedsOf_next hds]
      exact hfits

/-- The next command has its turn and stays. -/
theorem goOn (h : Ledger all F S D (id :: T) log) (hall : all.Nodup) (hds : ∀ d ∈ ds, d.id = id)
    (hturn : turnsOf ds = [id]) (hfits : Fate.kept.Fits ds) :
    Ledger all F S (D ++ [id]) T (log ++ ds) := by
  obtain ⟨hF, hS, hD, hT⟩ := h.not_mem hall List.perm_middle
  refine ⟨?_, ?_, h.turns_next hturn, frame hds hF h.finished, frame hds hS h.stopped, ?_,
    frame (P := (· = [])) hds hT fun other ho => h.todo other (List.mem_cons_of_mem _ ho)⟩
  · rw [List.append_assoc D, List.singleton_append]
    exact h.perm
  · rw [List.append_assoc, List.singleton_append]
    exact h.kept
  · intro other ho
    rcases List.mem_append.mp ho with ho | ho
    · exact frame hds hD h.done other ho
    · rw [List.mem_singleton.mp ho, h.deedsOf_next hds]
      exact hfits

/-- A command is stopped, whether or not it has had its turn. -/
theorem stop {d : Deed κ} (h : Ledger all F S D T log) (hall : all.Nodup) (hd : d.id = id)
    (hstage : d.stage? = some .stop) (hD : D'.Sublist D) (hT : T'.Sublist T)
    (hleave : (D ++ T).Perm (id :: (D' ++ T'))) :
    Ledger all F (S ++ [id]) D' T' (log ++ [d]) := by
  have hds : ∀ e ∈ [d], e.id = id := by simp [hd]
  obtain ⟨hF', hS', hD', hT'⟩ := h.not_mem hall hleave
  have hturns : turnsOf (log ++ [d]) = turnsOf log := by
    have hnone : turnsOf [d] = [] := turnsOf_eq_nil (by simp [hstage])
    rw [turnsOf_append, hnone, List.append_nil]
  refine ⟨?_, (hD.append hT).trans h.kept, ?_, frame hds hF' h.finished, ?_,
    frame hds hD' fun other ho => h.done other (hD.subset ho),
    frame (P := (· = [])) hds hT' fun other ho => h.todo other (hT.subset ho)⟩
  · refine List.Perm.trans ?_ h.perm
    rw [List.perm_iff_count] at hleave ⊢
    intro a
    have hcount := hleave a
    simp only [List.count_append, List.count_cons, List.count_nil] at hcount ⊢
    omega
  · rw [hturns]
    exact ((List.Sublist.refl _).append hT).trans h.turns
  · intro other ho
    rcases List.mem_append.mp ho with ho | ho
    · exact frame hds hS' h.stopped other ho
    · rw [List.mem_singleton.mp ho, deedsOf_append, deedsOf_self hds]
      refine ⟨_, d, rfl, ?_, hstage⟩
      -- before it was stopped it had had its turn, or had done nothing
      have hmem : id ∈ D ++ T := hleave.symm.subset (List.mem_cons_self ..)
      rcases List.mem_append.mp hmem with hmem | hmem
      · exact .inr (h.done id hmem)
      · exact .inl (h.todo id hmem)

end Ledger

/-! ### Places on the schedule -/

/-- Where the place `k` of a list moves to if the element at place `i` leaves. -/
def placeAfter (i k : Nat) : Nat := if i < k then k - 1 else k

theorem placeAfter_succ (i k : Nat) : placeAfter (i + 1) (k + 1) = placeAfter i k + 1 := by
  unfold placeAfter
  by_cases h : i < k
  · rw [if_pos (by omega), if_pos h]
    omega
  · rw [if_neg (by omega), if_neg h]

/-- If an element leaves a list that is cut at a place, nothing crosses the cut. -/
theorem cut_eraseIdx {α : Type} (l : List α) (i k : Nat) :
    ((l.eraseIdx i).take (placeAfter i k)).Sublist (l.take k) ∧
      ((l.eraseIdx i).drop (placeAfter i k)).Sublist (l.drop k) := by
  induction l generalizing i k with
  | nil => simp
  | cons a l ih =>
    cases i with
    | zero =>
      cases k with
      | zero => exact ⟨List.Sublist.refl _, List.sublist_cons_self a l⟩
      | succ k => exact ⟨List.sublist_cons_self a _, List.Sublist.refl _⟩
    | succ i =>
      cases k with
      | zero => exact ⟨List.Sublist.refl _, (List.eraseIdx_sublist l i).cons_cons a⟩
      | succ k =>
        rw [placeAfter_succ]
        exact ⟨(ih i k).1.cons_cons a, (ih i k).2⟩

/-! ### Rounds -/

/-- What becomes of the ledger while requests are met: `cursor` is where the turns go on. -/
def Sweep.InLedger (all finished before : List CommandId) (w : Sweep κ ε) : Prop :=
  Ledger all finished (before ++ w.stopped)
    ((w.commands.take w.cursor).map Command.id) ((w.commands.drop w.cursor).map Command.id)
    w.session.setting.chronicle

namespace Sweep

variable (host : CommandHost κ ε) {all F S : List CommandId}

theorem inLedger_stopAt (hall : all.Nodup) {w : Sweep κ ε} (h : w.InLedger all F S) (i : Nat)
    (hi : i < w.commands.length) : (w.stopAt host i w.commands[i]).InLedger all F S := by
  obtain ⟨outcome, left, hafter⟩ := after_stopAt host w i w.commands[i]
  obtain ⟨htake, hdrop⟩ := cut_eraseIdx w.commands i w.cursor
  unfold InLedger
  rw [hafter.chronicle]
  show Ledger all F (S ++ (w.stopped ++ [w.commands[i].id])) _ _ _
  rw [← List.append_assoc S]
  refine h.stop hall rfl rfl (htake.map _) (hdrop.map _) ?_
  -- the cursor moves as the place behind the cut does
  have hcut : (w.stopAt host i w.commands[i]).commands.take (placeAfter i w.cursor) ++
      (w.stopAt host i w.commands[i]).commands.drop (placeAfter i w.cursor) =
        w.commands.eraseIdx i := List.take_append_drop ..
  rw [← List.map_append, List.take_append_drop]
  refine ((List.getElem_cons_eraseIdx_perm hi).symm.map Command.id).trans ?_
  rw [← hcut, List.map_cons, List.map_append]
  exact List.Perm.refl _

theorem inLedger_meetRequests (hall : all.Nodup) {w : Sweep κ ε} (h : w.InLedger all F S) :
    (meetRequests host w).InLedger all F S :=
  keeps_meetRequests (P := (·.InLedger all F S))
    (fun _ i hi hw => inLedger_stopAt host hall hw i hi) (fun _ _ hw => hw) w h

/-- No turn begins while requests are met. -/
theorem turnsOf_meetRequests (w : Sweep κ ε) :
    turnsOf (meetRequests host w).session.setting.chronicle =
      turnsOf w.session.setting.chronicle := by
  refine keeps_meetRequests (P := fun v => turnsOf v.session.setting.chronicle =
    turnsOf w.session.setting.chronicle) (fun v i hi hv => ?_) (fun _ _ hv => hv) w rfl
  obtain ⟨outcome, left, hafter⟩ := after_stopAt host v i v.commands[i]
  have hnone : turnsOf [Deed.hook v.commands[i] .stop outcome v.session.setting.scene left] = [] :=
    rfl
  rw [hafter.chronicle, turnsOf_append, hnone, List.append_nil, hv]

end Sweep

namespace Round

variable (host : CommandHost κ ε)

/-- What every step of a round keeps, the whole of it keeps; in the end every command on the
schedule has had its turn. -/
theorem keeps_run {P : Round κ ε → Prop}
    (hturn : ∀ (r : Round κ ε) (h : r.cursor < r.commands.length),
      P r → P (r.turn host r.commands[r.cursor])) (r : Round κ ε) (hr : P r) :
    P (r.run host) ∧ (r.run host).commands.length ≤ (r.run host).cursor := by
  induction r using Round.run.induct host with
  | case1 r h ih =>
    rw [run, dif_pos h]
    exact ih (hturn r h hr)
  | case2 r h =>
    rw [run, dif_neg h]
    exact ⟨hr, Nat.le_of_not_lt h⟩

variable {host} {Q : Command κ → Prop} {P : Setting κ ε → Prop}

theorem afterTick_keeps {r : Round κ ε} (hQ : ∀ c ∈ r.commands, Q c) (outcome : TickOutcome)
    {c : Command κ} (hc : Q c) {s : Setting κ ε} (hs : P s) :
    (∀ d ∈ (r.afterTick outcome c s).commands, Q d) ∧
      P (r.afterTick outcome c s).session.setting := by
  unfold afterTick
  split
  · exact ⟨fun d hd => hQ d ((List.eraseIdx_sublist ..).subset hd), hs⟩
  · refine ⟨fun d hd => ?_, hs⟩
    obtain ⟨e, he, rfl⟩ := List.mem_map.mp hd
    split
    · exact hc
    · exact hQ e he

/-- A turn is a tick and a sweep. -/
theorem turn_keeps (htick : ∀ c s, Q c → P s → Q (c.tick host s).2.1 ∧ P (c.tick host s).2.2)
    (hhalt : ∀ c s, Q c → P s → P (c.halt host s))
    (hpop : ∀ s queue, P s → P { s with stopRequests := queue }) {r : Round κ ε}
    (hQ : ∀ c ∈ r.commands, Q c) (hP : P r.session.setting) {c : Command κ} (hc : Q c) :
    (∀ d ∈ (r.turn host c).commands, Q d) ∧ P (r.turn host c).session.setting := by
  obtain ⟨hafter, hleft⟩ := htick c r.session.setting hc hP
  obtain ⟨hcommands, hsetting⟩ := afterTick_keeps hQ (c.tick host r.session.setting).1 hafter hleft
  exact Sweep.meetRequests_keeps hhalt hpop hcommands hsetting

end Round

/-- What ticks and stops of the commands on the schedule keep, a round keeps. -/
theorem Session.tick_keeps (host : CommandHost κ ε) {Q : Command κ → Prop} {P : Setting κ ε → Prop}
    (htick : ∀ c s, Q c → P s → Q (c.tick host s).2.1 ∧ P (c.tick host s).2.2)
    (hhalt : ∀ c s, Q c → P s → P (c.halt host s))
    (hpop : ∀ s queue, P s → P { s with stopRequests := queue }) {x : Session κ ε}
    (hQ : ∀ c ∈ x.schedule.commands, Q c) (hP : P x.setting) :
    (∀ c ∈ (x.tick host).2.schedule.commands, Q c) ∧ P (x.tick host).2.setting :=
  (Round.keeps_run host
    (P := fun r : Round κ ε => (∀ c ∈ r.commands, Q c) ∧ P r.session.setting)
    (fun _ h hr => Round.turn_keeps htick hhalt hpop hr.1 hr.2 (hr.1 _ (List.getElem_mem h)))
    { session := x } ⟨hQ, hP⟩).1

/-- A round of one command which is over is no more than a tick of that. -/
theorem Session.tick_singleton (host : CommandHost κ ε) {x : Session κ ε} {c : Command κ}
    (h : x.schedule.commands = [c]) (hremoved : (c.tick host x.setting).1.removed = true) :
    (x.tick host).2 = ⟨{}, { (c.tick host x.setting).2.2 with stopRequests := [] }⟩ := by
  -- one turn, after which nothing is left whose turn could come
  have hlen : 0 < ({ session := x } : Round κ ε).commands.length := by
    rw [Round.commands, h]
    exact Nat.zero_lt_one
  have hget : ({ session := x } : Round κ ε).commands[0] = c := by
    simp only [Round.commands, h]
    rfl
  rcases htick : c.tick host x.setting with ⟨outcome, c', s⟩
  rw [htick] at hremoved
  have hnone : (({ session := x } : Round κ ε).afterTick outcome c' s).commands = [] := by
    unfold Round.afterTick
    rw [if_pos hremoved]
    show x.schedule.commands.eraseIdx 0 = []
    rw [h]
    rfl
  have hturn : (Round.turn host c { session := x }).session =
      ((({ session := x } : Round κ ε).afterTick outcome c' s).withRequests []).session := by
    simp only [Round.turn, htick]
    rw [Sweep.meetRequests_of_unconcerned host _ (by simp [hnone])]
  have hrun : (x.tick host).2 = (Round.turn host c { session := x }).session := by
    show (Round.run host { session := x }).session = _
    have hend : (Round.turn host c { session := x }).commands = [] := by
      rw [Round.commands, hturn]
      exact hnone
    rw [Round.run, dif_pos hlen, hget, Round.run, dif_neg (by rw [hend]; exact Nat.not_lt_zero _)]
  rw [hrun, hturn]
  refine Session.ext (Schedule.ext hnone) ?_
  unfold Round.afterTick
  rw [if_pos hremoved]
  rfl

/-- To meet a request that concerns the only command is no more than to stop that. -/
theorem Session.meetRequests_singleton (host : CommandHost κ ε) {x : Session κ ε} {c : Command κ}
    {id : EntityId} (h : x.schedule.commands = [c]) (hrequests : x.setting.stopRequests = [id])
    (hconcerns : c.concerns id = true) : (x.meetRequests host).2 =
      ⟨{}, { c.halt host { x.setting with stopRequests := [] } with stopRequests := [] }⟩ := by
  let w : Sweep κ ε := Sweep.withRequests { session := x } []
  obtain ⟨-, hcommands, hsetting, -⟩ := Sweep.stopActing_spec host id 0 w
  have hw : w.commands = [c] := h
  rw [hw] at hcommands hsetting
  simp only [List.take_zero, List.drop_zero, List.nil_append, hconcerns, Bool.not_true,
    List.filter_cons, Bool.false_eq_true, ↓reduceIte, List.filter_nil] at hcommands hsetting
  show (Sweep.meetRequests host { session := x }).session = _
  have hnone : ∀ c ∈ (Sweep.stopActing host id 0 w).commands, ∀ id' ∈
      (Sweep.stopActing host id 0 w).session.setting.stopRequests, c.concerns id' = false := by
    simp [hcommands]
  rw [Sweep.meetRequests_cons host hrequests, Sweep.meetRequests_of_unconcerned host _ hnone]
  refine Session.ext (Schedule.ext hcommands) ?_
  simp only [Sweep.withRequests]
  rw [hsetting]
  rfl

namespace Round

variable (host : CommandHost κ ε)

/-- What is true between two turns of a round. -/
structure Accounts (all : List CommandId) (r : Round κ ε) : Prop where
  /-- Every command is accounted for. -/
  ledger : Ledger all r.report.finished r.report.stopped
    ((r.commands.take r.cursor).map Command.id) ((r.commands.drop r.cursor).map Command.id)
    r.session.setting.chronicle
  /-- The turns have been counted. -/
  ran : r.report.ran = (turnsOf r.session.setting.chronicle).length
  /-- There is no request left. -/
  noRequest : r.session.setting.stopRequests = []
  /-- All requests have been met. -/
  heeded : ∀ d ∈ r.session.setting.chronicle, ∀ id ∈ d.requests, ∀ c ∈ r.commands,
    c.concerns id = false

/-- Right after a tick the schedule has no command that acts on other entities than before. -/
theorem exists_of_mem_afterTick {r : Round κ ε} (h : r.cursor < r.commands.length)
    {outcome : TickOutcome} {c d : Command κ} {s : Setting κ ε}
    (hc : c.concerns = r.commands[r.cursor].concerns)
    (hd : d ∈ (r.afterTick outcome c s).commands) : ∃ e ∈ r.commands, d.concerns = e.concerns := by
  unfold afterTick at hd
  split at hd
  · exact ⟨d, (List.eraseIdx_sublist ..).subset hd, rfl⟩
  · obtain ⟨e, he, rfl⟩ := List.mem_map.mp hd
    by_cases hid : e.id = c.id
    · exact ⟨_, List.getElem_mem h, by rw [if_pos hid, hc]⟩
    · exact ⟨e, he, by rw [if_neg hid]⟩

/-- A command that takes the place of one of its name has that name. -/
theorem ids_put (s : Schedule κ) (c : Command κ) : (s.put c).ids = s.ids := by
  unfold Schedule.ids Schedule.put
  rw [List.map_map]
  refine List.map_congr_left fun d _ => ?_
  by_cases hd : d.id = c.id <;> simp [hd]

/-- Right after a tick the ledger knows what became of the command. -/
theorem inLedger_afterTick {all : List CommandId} (hall : all.Nodup) {r : Round κ ε}
    (hr : r.Accounts all) (h : r.cursor < r.commands.length) {outcome : TickOutcome}
    {c : Command κ} {s : Setting κ ε} {ds : List (Deed κ)}
    (hafter : r.session.setting.After ds s) (hids : ∀ d ∈ ds, d.id = r.commands[r.cursor].id)
    (hturn : turnsOf ds = [r.commands[r.cursor].id])
    (hfits : Fate.Fits (if outcome.removed then .finished else .kept) ds) :
    (r.afterTick outcome c s).InLedger all
      (r.report.finished ++ if outcome.removed then [r.commands[r.cursor].id] else [])
      r.report.stopped := by
  have hledger := hr.ledger
  rw [List.drop_eq_getElem_cons h, List.map_cons] at hledger
  unfold Sweep.InLedger afterTick
  cases hremoved : outcome.removed with
  | true =>
    rw [hremoved] at hfits
    have htake : (r.commands.eraseIdx r.cursor).take r.cursor = r.commands.take r.cursor := by
      rw [List.eraseIdx_eq_take_drop_succ, List.take_left' (by simp; omega)]
    have hdrop : (r.commands.eraseIdx r.cursor).drop r.cursor = r.commands.drop (r.cursor + 1) := by
      rw [List.eraseIdx_eq_take_drop_succ, List.drop_left' (by simp; omega)]
    simp only [↓reduceIte, Sweep.commands, Schedule.eraseAt, hafter.chronicle, List.append_nil]
    rw [← commands, htake, hdrop]
    exact hledger.finish hall hids hturn hfits
  | false =>
    rw [hremoved] at hfits
    have hput : (r.session.schedule.put c).commands.map Command.id = r.commands.map Command.id :=
      ids_put r.session.schedule c
    simp only [Bool.false_eq_true, ↓reduceIte, Sweep.commands, hafter.chronicle, List.append_nil]
    rw [List.map_take, List.map_drop, hput, ← List.map_take, ← List.map_drop,
      List.take_succ_eq_append_getElem h, List.map_append]
    exact hledger.goOn hall hids hturn hfits

/-- Right after a tick, only the requests that it raised are still to be met. -/
theorem heedsAll_afterTick {all : List CommandId} {r : Round κ ε} (hr : r.Accounts all)
    (h : r.cursor < r.commands.length) {outcome : TickOutcome} {c : Command κ} {s : Setting κ ε}
    {ds : List (Deed κ)} (hconcerns : c.concerns = r.commands[r.cursor].concerns)
    (hafter : r.session.setting.After ds s) : (r.afterTick outcome c s).HeedsAll none := by
  have hsetting : (r.afterTick outcome c s).session.setting = s := by
    unfold afterTick
    split <;> rfl
  intro d hd id hid
  refine .inr ?_
  unfold Sweep.Heeds
  rw [hsetting] at hd ⊢
  rw [hafter.chronicle] at hd
  rw [hafter.stopRequests, hr.noRequest, List.nil_append]
  rcases List.mem_append.mp hd with hd | hd
  · right
    intro e he
    obtain ⟨e', he', heq⟩ := exists_of_mem_afterTick h hconcerns he
    rw [heq]
    exact hr.heeded d hd id hid e' he'
  · exact .inl (List.mem_flatMap.mpr ⟨d, hd, hid⟩)

/-- A turn keeps the accounts. -/
theorem accounts_turn {all : List CommandId} (hall : all.Nodup) (r : Round κ ε)
    (h : r.cursor < r.commands.length) (hr : r.Accounts all) :
    (r.turn host r.commands[r.cursor]).Accounts all := by
  obtain ⟨-, hconcerns, ds, hafter, hids, hturn, hfits⟩ :=
    Command.after_tick host r.commands[r.cursor] r.session.setting
  rcases htick : r.commands[r.cursor].tick host r.session.setting with ⟨outcome, c, s⟩
  rw [htick] at hconcerns hafter hfits
  have hledger := Sweep.inLedger_meetRequests host hall
    (inLedger_afterTick hall hr h (c := c) hafter hids hturn hfits)
  have hheeds := Sweep.heedsAll_meetRequests host (r.afterTick outcome c s)
    (heedsAll_afterTick hr h hconcerns hafter)
  have hqueue := Sweep.stopRequests_meetRequests host (r.afterTick outcome c s)
  have hchronicle : (r.afterTick outcome c s).session.setting.chronicle =
      r.session.setting.chronicle ++ ds := by
    rw [← hafter.chronicle]
    unfold afterTick
    split <;> rfl
  have hturns := Sweep.turnsOf_meetRequests host (r.afterTick outcome c s)
  rw [hchronicle, turnsOf_append, hturn] at hturns
  simp only [turn, htick]
  refine ⟨hledger, ?_, hqueue, ?_⟩
  · rw [hturns, List.length_append, ← hr.ran]
    rfl
  · intro d hd id hid
    rcases (hheeds d hd id hid).resolve_left nofun with hmem | hmet
    · rw [hqueue] at hmem
      cases hmem
    · exact hmet

/-- At first the accounts are empty. -/
theorem accounts_start {x : Session κ ε} (hrequests : x.setting.stopRequests = [])
    (hchronicle : x.setting.chronicle = []) :
    Accounts x.schedule.ids ({ session := x } : Round κ ε) where
  ledger := by
    rw [hchronicle]
    exact Ledger.start _
  ran := by rw [hchronicle]; rfl
  noRequest := hrequests
  heeded := by simp [hchronicle]

end Round

/-! ### The main result -/

/-- A round that finds the commands of `x`, says what `report` says, and leaves the commands of `y`
has lost, repeated and skipped none. -/
structure Accounted (x : Session κ ε) (report : ScheduleReport) (y : Session κ ε) : Prop where
  /-- Every command is over, was stopped, or is still there. -/
  perm : (report.finished ++ report.stopped ++ y.schedule.ids).Perm x.schedule.ids
  /-- No command meets two of these fates. -/
  nodup : (report.finished ++ report.stopped ++ y.schedule.ids).Nodup
  /-- Those that are still there are in order. -/
  kept : y.schedule.ids.Sublist x.schedule.ids
  /-- The turns are taken in order, and no command has two. -/
  turns : (turnsOf y.setting.chronicle).Sublist x.schedule.ids
  /-- The report counts the turns. -/
  ran : report.ran = (turnsOf y.setting.chronicle).length
  /-- A command that is over has had one turn, which ended with `teardown`. -/
  finished : ∀ id ∈ report.finished, Fate.finished.Fits (deedsOf y.setting.chronicle id)
  /-- A command that was stopped ran `stop` once, and nothing after it. -/
  stopped : ∀ id ∈ report.stopped, Fate.stopped.Fits (deedsOf y.setting.chronicle id)
  /-- A command that is still there has had one turn. -/
  survived : ∀ id ∈ y.schedule.ids, Fate.kept.Fits (deedsOf y.setting.chronicle id)
  /-- No command that is still there acts on an entity for which there was a stop request, no matter
  which hook raised it. -/
  heeded : ∀ d ∈ y.setting.chronicle, ∀ id ∈ d.requests, ∀ c ∈ y.schedule.commands,
    c.concerns id = false

theorem accounted_tick (host : CommandHost κ ε) {x : Session κ ε}
    (hrequests : x.setting.stopRequests = []) (hchronicle : x.setting.chronicle = []) :
    Accounted x (x.tick host).1 (x.tick host).2 := by
  obtain ⟨⟨hledger, hran, -, hheeded⟩, hend⟩ :=
    Round.keeps_run host (Round.accounts_turn host x.schedule.distinct)
      { session := x } (Round.accounts_start hrequests hchronicle)
  rw [List.take_of_length_le hend, List.drop_eq_nil_of_le hend, List.map_nil] at hledger
  obtain ⟨hperm, hkept, hturns, hfinished, hstopped, hdone, -⟩ := hledger
  rw [List.append_nil] at hperm hkept hturns
  exact ⟨hperm, hperm.nodup_iff.mpr x.schedule.distinct, hkept, hturns, hran, hfinished, hstopped,
    hdone, hheeded⟩

/-- Whatever the hooks of the commands do, a tick of the commands takes one round, which loses,
repeats and skips no command, and then tells the listeners.  A poisoned registry takes none. -/
theorem World.tickCommands_accounted (host : Host κ ε) (now : Float) (w : World κ ε) :
    let (report, y) := (w.session now).tick host.toCommandHost
    Accounted (w.session now) report y ∧
      w.tickCommands host now =
        match w.registry.check with
        | .error e => (.error e, w)
        | .ok () =>
          let (delivery, w') := deliver host y.setting.announcements (w.resume y)
          (delivery.map (CommandReport.mk report), w') :=
  ⟨accounted_tick host.toCommandHost rfl rfl, rfl⟩

end Orrery
