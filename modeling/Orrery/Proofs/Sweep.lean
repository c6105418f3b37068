import Orrery.Command.Sweep
import Orrery.Proofs.Chronicle

/-!
# Meeting stop requests

Whatever survives that one command is stopped, and that a request is taken off the queue, survives
the meeting of all requests (`Sweep.keeps_meetRequests`).  Afterwards no request is left, and no
command on the schedule acts on an entity for which there was one, be it from the beginning or
raised by a `stop` hook on the way (`Sweep.heeds_meetRequests`).
-/

namespace Orrery.Sweep

variable {κ ε : Type} {host : CommandHost κ ε}

/-! ### What sweeps keep -/

theorem keeps_stopActing {P : Sweep κ ε → Prop} (id : EntityId)
    (hstop : ∀ (w : Sweep κ ε) (i : Nat) (h : i < w.commands.length),
      w.commands[i].concerns id = true → P w → P (w.stopAt host i w.commands[i]))
    (i : Nat) (w : Sweep κ ε) (hw : P w) : P (stopActing host id i w) := by
  induction i, w using stopActing.induct host id with
  | case1 i w h hc ih =>
    rw [stopActing, dif_pos h, if_pos hc]
    exact ih (hstop w i h hc hw)
  | case2 i w h hc ih =>
    rw [stopActing, dif_pos h, if_neg hc]
    exact ih hw
  | case3 i w h =>
    rw [stopActing, dif_neg h]
    exact hw

/-- What every step of a sweep keeps, the whole of it keeps. -/
theorem keeps_meetRequests {P : Sweep κ ε → Prop}
    (hstop : ∀ (w : Sweep κ ε) (i : Nat) (h : i < w.commands.length),
      P w → P (w.stopAt host i w.commands[i]))
    (hpop : ∀ (w : Sweep κ ε) (queue : List EntityId), P w → P (w.withRequests queue))
    (w : Sweep κ ε) (hw : P w) : P (meetRequests host w) := by
  induction w using meetRequests.induct host with
  | case1 w h =>
    rw [meetRequests_nil host h]
    exact hw
  | case2 w id queue h ih =>
    rw [meetRequests_cons host h]
    exact ih (keeps_stopActing id (fun w i hi _ => hstop w i hi) 0 _ (hpop w queue hw))

/-- What `stop` hooks of the commands on the schedule keep, a sweep keeps. -/
theorem meetRequests_keeps {Q : Command κ → Prop} {P : Setting κ ε → Prop}
    (hhalt : ∀ c s, Q c → P s → P (c.halt host s))
    (hpop : ∀ s queue, P s → P { s with stopRequests := queue }) {w : Sweep κ ε}
    (hQ : ∀ c ∈ w.commands, Q c) (hP : P w.session.setting) :
    (∀ c ∈ (meetRequests host w).commands, Q c) ∧ P (meetRequests host w).session.setting := by
  refine keeps_meetRequests
    (P := fun w : Sweep κ ε => (∀ c ∈ w.commands, Q c) ∧ P w.session.setting)
    (fun w i hi hw => ?_) (fun w queue hw => ⟨hw.1, hpop _ queue hw.2⟩) w ⟨hQ, hP⟩
  exact ⟨fun c hc => hw.1 c ((List.eraseIdx_sublist ..).subset hc),
    hhalt _ _ (hw.1 _ (List.getElem_mem hi)) hw.2⟩

/-! ### Requests -/

variable (host)

theorem after_stopAt (w : Sweep κ ε) (i : Nat) (c : Command κ) :
    ∃ outcome left, w.session.setting.After
      [.hook c .stop outcome w.session.setting.scene left] (w.stopAt host i c).session.setting :=
  Command.after_halt host c w.session.setting

/-- In the end no request is left. -/
theorem stopRequests_meetRequests (w : Sweep κ ε) :
    (meetRequests host w).session.setting.stopRequests = [] := by
  induction w using meetRequests.induct host with
  | case1 w h => rwa [meetRequests_nil host h]
  | case2 w id queue h ih => rwa [meetRequests_cons host h]

/-- Requests that concern no command on the schedule come to nothing. -/
theorem meetRequests_of_unconcerned (w : Sweep κ ε)
    (h : ∀ c ∈ w.commands, ∀ id ∈ w.session.setting.stopRequests, c.concerns id = false) :
    meetRequests host w = w.withRequests [] := by
  induction w using meetRequests.induct host with
  | case1 w hnil =>
    rw [meetRequests_nil host hnil, withRequests, ← hnil]
  | case2 w id queue hcons ih =>
    have hfirst : ∀ c ∈ w.commands, c.concerns id = false := fun c hc =>
      h c hc id (hcons ▸ List.mem_cons_self ..)
    have hrest : ∀ c ∈ w.commands, ∀ id ∈ queue, c.concerns id = false := fun c hc j hj =>
      h c hc j (hcons ▸ List.mem_cons_of_mem _ hj)
    -- nobody leaves, so the request changes nothing but the queue
    have hstay : stopActing host id 0 (w.withRequests queue) = w.withRequests queue := by
      refine (stopActing_eq_or_lt host id (w.withRequests queue)).resolve_right fun hlt => ?_
      obtain ⟨-, hcommands, -⟩ := stopActing_spec host id 0 (w.withRequests queue)
      have hall : (w.withRequests queue).commands.filter (!·.concerns id) =
          (w.withRequests queue).commands :=
        List.filter_eq_self.mpr fun c hc => by rw [hfirst c hc]; rfl
      rw [List.take_zero, List.nil_append, List.drop_zero, hall] at hcommands
      rw [hcommands] at hlt
      exact Nat.lt_irrefl _ hlt
    rw [hstay] at ih
    rw [meetRequests_cons host hcons, hstay, ih hrest]
    rfl

/-- The request to stop all commands that act on an entity is queued or has been met. -/
def Heeds (w : Sweep κ ε) (id : EntityId) : Prop :=
  id ∈ w.session.setting.stopRequests ∨ ∀ c ∈ w.commands, c.concerns id = false

/-- Every request that was ever raised is queued or has been met, apart from one that is being met
now. -/
def HeedsAll (being : Option EntityId) (w : Sweep κ ε) : Prop :=
  ∀ d ∈ w.session.setting.chronicle, ∀ id ∈ d.requests, being = some id ∨ w.Heeds id

theorem mem_commands_of_mem_stopAt {w : Sweep κ ε} {i : Nat} {c d : Command κ}
    (h : d ∈ (w.stopAt host i c).commands) : d ∈ w.commands :=
  (List.eraseIdx_sublist ..).subset h

theorem heeds_stopAt {w : Sweep κ ε} {id : EntityId} (h : w.Heeds id) (i : Nat) (c : Command κ) :
    (w.stopAt host i c).Heeds id := by
  obtain ⟨outcome, left, hafter⟩ := after_stopAt host w i c
  rcases h with hqueue | hmet
  · left
    rw [hafter.stopRequests]
    exact List.mem_append_left _ hqueue
  · exact .inr fun d hd => hmet d (mem_commands_of_mem_stopAt host hd)

theorem heedsAll_stopAt {being : Option EntityId} {w : Sweep κ ε} (h : w.HeedsAll being) (i : Nat)
    (c : Command κ) : (w.stopAt host i c).HeedsAll being := by
  obtain ⟨outcome, left, hafter⟩ := after_stopAt host w i c
  intro d hd id hid
  rw [hafter.chronicle] at hd
  rcases List.mem_append.mp hd with hd | hd
  · exact (h d hd id hid).imp_right fun hheeds => heeds_stopAt host hheeds i c
  -- what the `stop` hook asks for is queued
  · right
    left
    rw [hafter.stopRequests]
    exact List.mem_append_right _ (List.mem_flatMap.mpr ⟨d, hd, hid⟩)

/-- After a request no command on the schedule acts on its entity. -/
theorem concerns_stopActing (id : EntityId) (w : Sweep κ ε) :
    ∀ c ∈ (stopActing host id 0 w).commands, c.concerns id = false := by
  obtain ⟨-, hcommands, -, -⟩ := stopActing_spec host id 0 w
  rw [List.take_zero, List.nil_append, List.drop_zero] at hcommands
  intro c hc
  rw [hcommands] at hc
  simpa using (List.mem_filter.mp hc).2

theorem heeds_withRequests {w : Sweep κ ε} {first id : EntityId} {queue : List EntityId}
    (hcons : w.session.setting.stopRequests = first :: queue) (h : w.Heeds id) :
    some first = some id ∨ (w.withRequests queue).Heeds id := by
  rcases h with hmem | hmet
  · rw [hcons] at hmem
    rcases List.mem_cons.mp hmem with rfl | hmem
    · exact .inl rfl
    · exact .inr (.inl hmem)
  · exact .inr (.inr hmet)

/-- A request that is met leaves the others as they are. -/
theorem heeds_stopActing {w : Sweep κ ε} {first id : EntityId}
    (h : some first = some id ∨ w.Heeds id) : (stopActing host first 0 w).Heeds id := by
  rcases h with hid | h
  · exact .inr (Option.some.inj hid ▸ concerns_stopActing host first w)
  · exact keeps_stopActing (P := (·.Heeds id)) first
      (fun w i _ _ hw => heeds_stopAt host hw i _) 0 w h

/-- No command on the schedule acts on an entity for which there was a request at first. -/
theorem heeds_meetRequests (w : Sweep κ ε) {id : EntityId} (h : w.Heeds id) :
    ∀ c ∈ (meetRequests host w).commands, c.concerns id = false := by
  induction w using meetRequests.induct host with
  | case1 w hnil =>
    rw [meetRequests_nil host hnil]
    rcases h with h | h
    · rw [hnil] at h
      cases h
    · exact h
  | case2 w first queue hcons ih =>
    rw [meetRequests_cons host hcons]
    exact ih (heeds_stopActing host (heeds_withRequests hcons h))

/-- All requests that were ever raised have been met, those that `stop` hooks raised on the way
included. -/
theorem heedsAll_meetRequests (w : Sweep κ ε) (h : w.HeedsAll none) :
    (meetRequests host w).HeedsAll none := by
  induction w using meetRequests.induct host with
  | case1 w hnil => rwa [meetRequests_nil host hnil]
  | case2 w first queue hcons ih =>
    rw [meetRequests_cons host hcons]
    refine ih ?_
    -- while the first request is being met, it is the only one neither queued nor met
    have hpopped : (w.withRequests queue).HeedsAll (some first) := fun d hd id hid =>
      heeds_withRequests hcons ((h d hd id hid).resolve_left (by simp))
    have hswept : (stopActing host first 0 (w.withRequests queue)).HeedsAll (some first) :=
      keeps_stopActing (P := (·.HeedsAll (some first))) first
        (fun w i _ _ hw => heedsAll_stopAt host hw i _) 0 _ hpopped
    intro d hd id hid
    rcases hswept d hd id hid with hfirst | hheeds
    · exact .inr (.inr (Option.some.inj hfirst ▸ concerns_stopActing host first _))
    · exact .inr hheeds

end Orrery.Sweep
