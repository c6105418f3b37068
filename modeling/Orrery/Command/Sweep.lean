import Orrery.Command.Lifecycle
import Orrery.Command.Schedule

/-!
# Stop requests

A hook may ask that all commands acting on an entity be stopped.  The requests are met one by one,
in the order in which they were made.  For each of them the schedule is gone through from its
beginning, and every command that acts on the entity leaves it and is stopped; requests that stop
hooks make are met as well.

Meanwhile a place on the schedule, the `cursor`, moves along with the commands behind it: it goes
back by one for every command before it that leaves.  `stopActing_spec` says what one request comes
to, and `remaining_meetRequests_le` that no command gets behind the cursor.
-/

namespace Orrery

/-- The schedule while commands run. -/
@[ext]
structure Session (κ ε : Type) where
  schedule : Schedule κ
  /-- What they can reach. -/
  setting : Setting κ ε

/-- A session in which stop requests are being met. -/
@[ext]
structure Sweep (κ ε : Type) where
  /-- The names of the commands that were stopped, in order. -/
  stopped : List CommandId := []
  /-- A place on the schedule. -/
  cursor : Nat := 0
  session : Session κ ε

namespace Sweep

variable {κ ε : Type}

/-- The commands on the schedule. -/
def commands (w : Sweep κ ε) : List (Command κ) := w.session.schedule.commands

/-- Replaces the requests that are still to be met. -/
def withRequests (w : Sweep κ ε) (queue : List EntityId) : Sweep κ ε :=
  { w with
    session := { w.session with setting := { w.session.setting with stopRequests := queue } } }

/-- Takes the command at place `i` off the schedule and stops it. -/
def stopAt (host : CommandHost κ ε) (i : Nat) (c : Command κ) (w : Sweep κ ε) : Sweep κ ε where
  stopped := w.stopped ++ [c.id]
  cursor := if i < w.cursor then w.cursor - 1 else w.cursor
  session := ⟨w.session.schedule.eraseAt i, c.halt host w.session.setting⟩

/-- Stops the commands at place `i` or behind it that act on an entity.  A command that leaves makes
room for the next one, so `i` stays where it is then. -/
def stopActing (host : CommandHost κ ε) (id : EntityId) (i : Nat) (w : Sweep κ ε) : Sweep κ ε :=
  if h : i < w.commands.length then
    if w.commands[i].concerns id then stopActing host id i (w.stopAt host i w.commands[i])
    else stopActing host id (i + 1) w
  else w
termination_by w.commands.length - i
decreasing_by
  · have hlen : ((w.stopAt host i w.commands[i]).commands).length = w.commands.length - 1 :=
      List.length_eraseIdx_of_lt h
    omega
  · omega

/-- What a stop request comes to: of the commands at place `i` or behind it, those that act on the
entity leave the schedule and are stopped in order, the others stay, and the cursor goes back by
the number of those before it that leave. -/
theorem stopActing_spec (host : CommandHost κ ε) (id : EntityId) (i : Nat) (w : Sweep κ ε) :
    (stopActing host id i w).stopped =
      w.stopped ++ ((w.commands.drop i).filter (·.concerns id)).map Command.id ∧
    (stopActing host id i w).commands =
      w.commands.take i ++ (w.commands.drop i).filter (!·.concerns id) ∧
    (stopActing host id i w).session.setting =
      ((w.commands.drop i).filter (·.concerns id)).foldl (fun s c => c.halt host s)
        w.session.setting ∧
    (stopActing host id i w).cursor =
      w.cursor - ((w.commands.drop i).take (w.cursor - i)).countP (·.concerns id) := by
  induction i, w using stopActing.induct host id with
  | case1 i w h hc ih =>
    have hrest : (w.stopAt host i w.commands[i]).commands.drop i = w.commands.drop (i + 1) := by
      show (w.commands.eraseIdx i).drop i = _
      rw [List.eraseIdx_eq_take_drop_succ, List.drop_left' (by simp; omega)]
    have hfront : (w.stopAt host i w.commands[i]).commands.take i = w.commands.take i := by
      show (w.commands.eraseIdx i).take i = _
      rw [List.eraseIdx_eq_take_drop_succ, List.take_left' (by simp; omega)]
    have hacting : (w.commands.drop i).filter (·.concerns id)
        = w.commands[i] :: (w.commands.drop (i + 1)).filter (·.concerns id) := by
      rw [List.drop_eq_getElem_cons h, List.filter_cons, if_pos hc]
    have hothers : (w.commands.drop i).filter (!·.concerns id)
        = (w.commands.drop (i + 1)).filter (!·.concerns id) := by
      rw [List.drop_eq_getElem_cons h, List.filter_cons_of_neg (by simp [hc])]
    obtain ⟨h1, h2, h3, h4⟩ := ih
    rw [hrest] at h1 h2 h3 h4
    rw [stopActing, dif_pos h, if_pos hc, hacting, hothers]
    refine ⟨by rw [h1]; simp [stopAt], by rw [h2, hfront], h3, ?_⟩
    rw [h4, List.drop_eq_getElem_cons h]
    simp only [stopAt]
    by_cases hi : i < w.cursor
    · obtain ⟨n, hn⟩ : ∃ n, w.cursor - i = n + 1 := ⟨w.cursor - i - 1, by omega⟩
      have hn' : w.cursor - 1 - i = n := by omega
      rw [if_pos hi, hn, hn', List.take_succ_cons, List.countP_cons, if_pos hc]
      omega
    · have hn : w.cursor - i = 0 := by omega
      rw [if_neg hi, hn]
      simp
  | case2 i w h hc ih =>
    have hacting : (w.commands.drop i).filter (·.concerns id)
        = (w.commands.drop (i + 1)).filter (·.concerns id) := by
      rw [List.drop_eq_getElem_cons h, List.filter_cons, if_neg hc]
    have hothers : (w.commands.drop i).filter (!·.concerns id)
        = w.commands[i] :: (w.commands.drop (i + 1)).filter (!·.concerns id) := by
      rw [List.drop_eq_getElem_cons h, List.filter_cons_of_pos (by simp [hc])]
    obtain ⟨h1, h2, h3, h4⟩ := ih
    rw [stopActing, dif_pos h, if_neg hc, hacting, hothers]
    refine ⟨h1, ?_, h3, ?_⟩
    · rw [h2, List.take_succ_eq_append_getElem h, List.append_assoc, List.singleton_append]
    · rw [h4, List.drop_eq_getElem_cons h]
      by_cases hi : i < w.cursor
      · obtain ⟨n, hn⟩ : ∃ n, w.cursor - i = n + 1 := ⟨w.cursor - i - 1, by omega⟩
        have hn' : w.cursor - (i + 1) = n := by omega
        rw [hn, hn', List.take_succ_cons, List.countP_cons, if_neg hc]
        rfl
      · have hn : w.cursor - i = 0 := by omega
        have hn' : w.cursor - (i + 1) = 0 := by omega
        rw [hn, hn']
        simp
  | case3 i w h =>
    have hdrop : w.commands.drop i = [] := List.drop_eq_nil_of_le (by omega)
    have htake : w.commands.take i = w.commands := List.take_of_length_le (by omega)
    rw [stopActing, dif_neg h, hdrop, htake]
    simp

/-- Either a request takes a command off the schedule, or it changes nothing. -/
theorem stopActing_eq_or_lt (host : CommandHost κ ε) (id : EntityId) (w : Sweep κ ε) :
    stopActing host id 0 w = w ∨
      (stopActing host id 0 w).commands.length < w.commands.length := by
  obtain ⟨h1, h2, h3, h4⟩ := stopActing_spec host id 0 w
  simp only [List.drop_zero, List.take_zero, List.nil_append, Nat.sub_zero] at h1 h2 h3 h4
  rcases Nat.eq_zero_or_pos (w.commands.countP (·.concerns id)) with hnone | hsome
  · have hall : ∀ c ∈ w.commands, ¬ c.concerns id = true := List.countP_eq_zero.mp hnone
    have hacting : w.commands.filter (·.concerns id) = [] := List.filter_eq_nil_iff.mpr hall
    have hothers : w.commands.filter (!·.concerns id) = w.commands :=
      List.filter_eq_self.mpr fun c hc => by simpa using hall c hc
    have hcount : (w.commands.take w.cursor).countP (·.concerns id) = 0 :=
      List.countP_eq_zero.mpr fun c hc => hall c (List.mem_of_mem_take hc)
    rw [hacting] at h1 h3
    rw [hothers] at h2
    rw [hcount] at h4
    exact .inl (Sweep.ext (by simpa using h1) (by simpa using h4)
      (Session.ext (Schedule.ext h2) (by simpa using h3)))
  · refine .inr ?_
    have hlen := List.length_eq_countP_add_countP (l := w.commands) (·.concerns id)
    rw [h2, ← List.countP_eq_length_filter]
    have hneg : w.commands.countP (fun c => !c.concerns id)
        = w.commands.countP (fun c => ¬ c.concerns id = true) := by
      congr 1
      funext c
      cases c.concerns id <;> rfl
    omega

/-- How many commands are at the cursor or behind it. -/
def remaining (w : Sweep κ ε) : Nat := w.commands.length - w.cursor

/-- Meets all stop requests, those made on the way included. -/
def meetRequests (host : CommandHost κ ε) (w : Sweep κ ε) : Sweep κ ε :=
  match _h : w.session.setting.stopRequests with
  | [] => w
  | id :: queue => meetRequests host (stopActing host id 0 (w.withRequests queue))
termination_by (w.commands.length, w.session.setting.stopRequests.length)
decreasing_by
  rcases stopActing_eq_or_lt host id (w.withRequests queue) with heq | hlt
  · rw [heq, _h]
    exact Prod.Lex.right _ (Nat.lt_succ_self _)
  · exact Prod.Lex.left _ _ hlt

/-- A request lets no command get behind the cursor, which stays on the schedule. -/
theorem remaining_stopActing_le (host : CommandHost κ ε) (id : EntityId) (w : Sweep κ ε)
    (hw : w.cursor ≤ w.commands.length) :
    (stopActing host id 0 w).cursor ≤ (stopActing host id 0 w).commands.length ∧
      (stopActing host id 0 w).remaining ≤ w.remaining := by
  obtain ⟨-, h2, -, h4⟩ := stopActing_spec host id 0 w
  simp only [List.drop_zero, List.take_zero, List.nil_append, Nat.sub_zero] at h2 h4
  unfold remaining
  rw [h2, h4]
  have hsplit := List.take_append_drop w.cursor w.commands
  have hfilter : ∀ l : List (Command κ),
      (l.filter (!·.concerns id)).length + l.countP (·.concerns id) = l.length := by
    intro l
    induction l with
    | nil => rfl
    | cons c l ih => by_cases hc : c.concerns id = true <;> simp_all <;> omega
  have htake := hfilter (w.commands.take w.cursor)
  have hdrop := hfilter (w.commands.drop w.cursor)
  have hall := hfilter w.commands
  have hcount : w.commands.countP (·.concerns id) =
      (w.commands.take w.cursor).countP (·.concerns id) +
        (w.commands.drop w.cursor).countP (·.concerns id) := by
    rw [← List.countP_append, hsplit]
  rw [List.length_take, Nat.min_eq_left hw] at htake
  rw [List.length_drop] at hdrop
  omega

theorem meetRequests_nil (host : CommandHost κ ε) {w : Sweep κ ε}
    (h : w.session.setting.stopRequests = []) : meetRequests host w = w := by
  rw [meetRequests]
  split
  · rfl
  · next h' => rw [h] at h'; cases h'

theorem meetRequests_cons (host : CommandHost κ ε) {w : Sweep κ ε} {id : EntityId}
    {queue : List EntityId} (h : w.session.setting.stopRequests = id :: queue) :
    meetRequests host w = meetRequests host (stopActing host id 0 (w.withRequests queue)) := by
  rw [meetRequests]
  split
  · next h' => rw [h] at h'; cases h'
  · next h' =>
    rw [h] at h'
    obtain ⟨rfl, rfl⟩ := List.cons.inj h'
    rfl

theorem remaining_meetRequests_le (host : CommandHost κ ε) (w : Sweep κ ε)
    (hw : w.cursor ≤ w.commands.length) :
    (meetRequests host w).cursor ≤ (meetRequests host w).commands.length ∧
      (meetRequests host w).remaining ≤ w.remaining := by
  induction w using meetRequests.induct host with
  | case1 w h =>
    rw [meetRequests_nil host h]
    exact ⟨hw, Nat.le_refl _⟩
  | case2 w id queue h ih =>
    obtain ⟨h1, h2⟩ := remaining_stopActing_le host id (w.withRequests queue) hw
    obtain ⟨h3, h4⟩ := ih h1
    rw [meetRequests_cons host h]
    exact ⟨h3, Nat.le_trans h4 h2⟩

end Sweep

/-- Meets all stop requests of a session.  Returns the names of the stopped commands in order. -/
def Session.meetRequests {κ ε : Type} (host : CommandHost κ ε) (x : Session κ ε) :
    List CommandId × Session κ ε :=
  let w := Sweep.meetRequests host { session := x }
  (w.stopped, w.session)

end Orrery
