import Orrery.Proofs.Activity
import Orrery.Proofs.Operation

/-!
# Credits for destroyed ships

When an attack is won, the owners of both ships get a credit and the defender is told of its
destruction.  That is once for the hit that destroys the ship, but once more for each relapse: the
attacker may be sent against its own wreck again, and such an attack is won as soon as its turn
begins.  `Balance` keeps count of this, deed by deed: what is given for a ship, and whether it is
still alive, make up whether it was alive before and how many relapses there have been.  The deeds
note the credits; `World.outside_after` says that the account outside of the simulation takes note
of just these.
-/

namespace Orrery

variable {κ ε : Type}

/-! ### What is counted -/

/-- The sum of what is counted in each of some deeds. -/
def tally (count : Deed κ → Nat) (deeds : List (Deed κ)) : Nat := (deeds.map count).sum

@[simp] theorem tally_nil (count : Deed κ → Nat) : tally count [] = 0 := rfl

@[simp] theorem tally_cons (count : Deed κ → Nat) (d : Deed κ) (deeds : List (Deed κ)) :
    tally count (d :: deeds) = count d + tally count deeds := List.sum_cons

@[simp] theorem tally_append (count : Deed κ → Nat) (deeds deeds' : List (Deed κ)) :
    tally count (deeds ++ deeds') = tally count deeds + tally count deeds' := by
  simp [tally]

theorem tally_eq_zero {count : Deed κ → Nat} {deeds : List (Deed κ)}
    (h : ∀ d ∈ deeds, count d = 0) : tally count deeds = 0 := by
  refine List.sum_eq_zero fun n hn => ?_
  obtain ⟨d, hd, rfl⟩ := List.mem_map.mp hn
  exact h d hd

theorem le_tally_of_mem (count : Deed κ → Nat) {deeds : List (Deed κ)} {d : Deed κ}
    (h : d ∈ deeds) : count d ≤ tally count deeds := by
  obtain ⟨before, after, rfl⟩ := List.append_of_mem h
  rw [tally_append, tally_cons]
  omega

namespace Deed

/-- Whether an attack on a ship does it. -/
def attacks (id : EntityId) (d : Deed κ) : Bool :=
  match d.command.task with
  | .attack a => a.defender == id
  | _ => false

/-- The credits that it gives. -/
def credits : Deed κ → List Credit
  | turn .. => []
  | hook _ _ _ _ left => left.credits

/-- The events that it raises. -/
def raised : Deed κ → List EntityEvent
  | turn .. => []
  | hook _ _ _ _ left => left.raised

/-- Credits to the owner of a ship for the loss of it. -/
def losses (id : EntityId) (d : Deed κ) : Nat :=
  if d.attacks id then d.credits.countP (·.counter = Credit.userShipsDestroyed) else 0

/-- Credits for the destruction of a ship to the owner of the one that destroyed it. -/
def gains (id : EntityId) (d : Deed κ) : Nat :=
  if d.attacks id then d.credits.countP (·.counter = Credit.shipsUserDestroyed) else 0

/-- Events that tell a ship of its destruction. -/
def notices (id : EntityId) (d : Deed κ) : Nat :=
  d.raised.countP fun e => e.isDestruction && e.entity == id

/-- Whether an attack has its turn on a ship that its attacker has destroyed before. -/
def isRelapse (id : EntityId) : Deed κ → Bool
  | turn ⟨_, .attack a⟩ found => a.defender == id && a.isWon found
  | _ => false

/-- Whether this is so and the attacker is there. -/
def isAttended (id : EntityId) : Deed κ → Bool
  | turn ⟨_, .attack a⟩ found => a.defender == id && a.isWon found &&
      (found.entities.outline? a.attacker).any Outline.isShip
  | _ => false

/-- Whether an attack is stopped whose attacker has destroyed the ship before but is still marked
with it. -/
def isHollow (id : EntityId) : Deed κ → Bool
  | hook ⟨_, .attack a⟩ .stop _ found _ => a.defender == id && a.isEngaged found.entities &&
      a.isWon found
  | _ => false

/-- Relapses, in numbers. -/
def relapses (id : EntityId) (d : Deed κ) : Nat := (d.isRelapse id).toNat

/-- Relapses of an attacker that is there, in numbers. -/
def attended (id : EntityId) (d : Deed κ) : Nat := (d.isAttended id).toNat

/-- Hollow stops, in numbers. -/
def hollows (id : EntityId) (d : Deed κ) : Nat := (d.isHollow id).toNat

theorem isHollow_of_ne_stop {id : EntityId} {c : Command κ} {stage : Stage} (h : stage ≠ .stop)
    (outcome : Except CommandError Unit) (found left : Scene) :
    (hook c stage outcome found left).isHollow id = false := by
  unfold isHollow
  split
  · next heq =>
    cases heq
    exact absurd rfl h
  · rfl

theorem isRelapse_of_isAttended {id : EntityId} {d : Deed κ} (h : d.isAttended id = true) :
    d.isRelapse id = true := by
  unfold isAttended at h
  split at h
  · rw [Bool.and_eq_true] at h
    exact h.1
  · cases h

end Deed

/-! ### Balances -/

open Deed

/-- What some deeds give for a ship, given whether the ship is alive before and after them. -/
structure Balance (id : EntityId) (before after : Bool) (deeds : List (Deed κ)) : Prop where
  /-- No ship comes back to life. -/
  alive : after = true → before = true
  /-- The owner of the ship gets one credit for its destruction and one for each relapse. -/
  losses : tally (losses id) deeds + after.toNat = before.toNat + tally (relapses id) deeds
  /-- So does the owner of the other ship, as long as that is there. -/
  gains : tally (gains id) deeds + after.toNat = before.toNat + tally (attended id) deeds
  /-- The ship is told of its destruction as often, and once for each hollow stop. -/
  notices : tally (notices id) deeds + after.toNat =
    before.toNat + (tally (relapses id) deeds + tally (hollows id) deeds)

namespace Balance

variable {id : EntityId} {before middle after : Bool} {deeds deeds' : List (Deed κ)}

theorem refl (id : EntityId) (before : Bool) : Balance id before before ([] : List (Deed κ)) := by
  constructor <;> simp

theorem trans (h : Balance id before middle deeds) (h' : Balance id middle after deeds') :
    Balance id before after (deeds ++ deeds') := by
  obtain ⟨halive, hlosses, hgains, hnotices⟩ := h
  obtain ⟨halive', hlosses', hgains', hnotices'⟩ := h'
  refine ⟨fun hafter => halive (halive' hafter), ?_, ?_, ?_⟩
  · simp only [tally_append]
    omega
  · simp only [tally_append]
    omega
  · simp only [tally_append]
    omega

/-- Deeds that are balanced by themselves make no difference between two others. -/
theorem around {d last : Deed κ} (hdeeds : Balance id before before deeds)
    (h : Balance id before after [d, last]) : Balance id before after (d :: deeds ++ [last]) := by
  obtain ⟨-, hlosses, hgains, hnotices⟩ := hdeeds
  obtain ⟨halive', hlosses', hgains', hnotices'⟩ := h
  simp only [tally_cons, tally_nil] at hlosses' hgains' hnotices'
  refine ⟨halive', ?_, ?_, ?_⟩
  · simp only [tally_append, tally_cons, tally_nil]
    omega
  · simp only [tally_append, tally_cons, tally_nil]
    omega
  · simp only [tally_append, tally_cons, tally_nil]
    omega

/-- Quiet hooks give nothing. -/
theorem of_isQuiet (id : EntityId) (before : Bool) (h : ∀ d ∈ deeds, d.IsQuiet) :
    Balance id before before deeds := by
  have hnone : ∀ d ∈ deeds, d.losses id = 0 ∧ d.gains id = 0 ∧ d.notices id = 0 ∧
      d.relapses id = 0 ∧ d.attended id = 0 ∧ d.hollows id = 0 := by
    intro d hd
    have hquiet := h d hd
    cases d with
    | turn => exact hquiet.elim
    | hook c stage outcome found left =>
      obtain ⟨hstage, hcredits, -, hraised⟩ := hquiet
      refine ⟨?_, ?_, ?_, rfl, rfl, by rw [Deed.hollows, isHollow_of_ne_stop hstage]; rfl⟩
      · simp [Deed.losses, credits, hcredits]
      · simp [Deed.gains, credits, hcredits]
      · rw [Deed.notices, List.countP_eq_zero]
        intro e he
        simp [hraised e he]
  have hrelapses : tally (Deed.relapses id) deeds = 0 :=
    tally_eq_zero fun d hd => (hnone d hd).2.2.2.1
  refine ⟨fun hafter => hafter, ?_, ?_, ?_⟩
  · rw [tally_eq_zero fun d hd => (hnone d hd).1, hrelapses, Nat.zero_add]
    rfl
  · rw [tally_eq_zero fun d hd => (hnone d hd).2.1,
      tally_eq_zero fun d hd => (hnone d hd).2.2.2.2.1, Nat.zero_add]
    rfl
  · rw [tally_eq_zero fun d hd => (hnone d hd).2.2.1, hrelapses,
      tally_eq_zero fun d hd => (hnone d hd).2.2.2.2.2, Nat.zero_add]
    rfl

/-- All is given for destructions alone if there are no relapses and no hollow stops. -/
theorem tally_eq_iff (h : Balance id before after deeds) {kills : Nat}
    (hkills : kills + after.toNat = before.toNat) :
    (tally (Deed.losses id) deeds = kills ∧ tally (Deed.gains id) deeds = kills ∧
        tally (Deed.notices id) deeds = kills) ↔
      ∀ d ∈ deeds, d.isRelapse id = false ∧ d.isHollow id = false := by
  obtain ⟨-, hlosses, hgains, hnotices⟩ := h
  constructor
  · rintro ⟨hloss, -, hnotice⟩ d hd
    have hrelapse : d.relapses id = 0 := by
      have hle := le_tally_of_mem (Deed.relapses id) hd
      omega
    have hhollow : d.hollows id = 0 := by
      have hle := le_tally_of_mem (Deed.hollows id) hd
      omega
    exact ⟨Bool.toNat_eq_zero.mp hrelapse, Bool.toNat_eq_zero.mp hhollow⟩
  · intro hnone
    have hrelapse : tally (Deed.relapses id) deeds = 0 :=
      tally_eq_zero fun d hd => Bool.toNat_eq_zero.mpr (hnone d hd).1
    have hhollow : tally (Deed.hollows id) deeds = 0 :=
      tally_eq_zero fun d hd => Bool.toNat_eq_zero.mpr (hnone d hd).2
    -- attended relapses are relapses
    have hattended : tally (Deed.attended id) deeds = 0 := by
      refine tally_eq_zero fun d hd => Bool.toNat_eq_zero.mpr ?_
      refine Bool.eq_false_iff.mpr fun hattended => ?_
      have hrelapse := isRelapse_of_isAttended hattended
      rw [(hnone d hd).1] at hrelapse
      cases hrelapse
    refine ⟨?_, ?_, ?_⟩
    · omega
    · omega
    · omega

end Balance

/-! ### Ticks and stops -/

namespace Setting

/-- Whether a ship is alive. -/
def isAlive (s : Setting κ ε) (id : EntityId) : Bool :=
  (s.entities.outline? id).any Outline.isLive

/-- A ship that is there after some deeds, which are balanced. -/
structure Reckons (id : EntityId) (before : Bool) (s : Setting κ ε) : Prop where
  /-- The ship is there. -/
  present : (s.entities.outline? id).any Outline.isShip = true
  /-- The deeds are balanced. -/
  balance : Balance id before (s.isAlive id) s.chronicle

end Setting

namespace Attack

variable (a : Attack)

theorem countP_farewell (id : EntityId) (won : Bool) :
    ((a.farewell won).countP fun e => e.isDestruction && e.entity == id) =
      (a.defender == id && won).toNat := by
  unfold farewell
  cases won with
  | false => simp [eventTo, EntityEvent.isDestruction]
  | true =>
    cases hid : a.defender == id with
    | false => simp [eventTo, EntityEvent.isDestruction, hid]
    | true => simp [eventTo, EntityEvent.isDestruction, hid]

end Attack

namespace Command

variable (host : CommandHost κ ε) {c : Command κ}

/-- A turn that is no relapse gives nothing. -/
theorem balance_turn (id : EntityId) (before : Bool) {found : Scene}
    (h : (Deed.turn c found).isRelapse id = false) :
    Balance id before before [Deed.turn c found] := by
  have hattended : (Deed.turn c found).isAttended id = false := by
    rw [Bool.eq_false_iff] at h ⊢
    exact fun hattended => h (isRelapse_of_isAttended hattended)
  have hhollow : (Deed.turn c found).isHollow id = false := rfl
  refine ⟨fun hafter => hafter, ?_, ?_, ?_⟩
  · simp [h, Deed.losses, credits, relapses]
  · simp [hattended, Deed.gains, credits, attended]
  · simp [h, hhollow, Deed.notices, raised, relapses, hollows]

theorem isRelapse_turn {a : Attack} (h : c.task = .attack a) (id : EntityId) (found : Scene) :
    (Deed.turn c found).isRelapse id = (a.defender == id &&
      (found.entities.outline? a.defender).any (·.isWreckOf a.attacker)) := by
  obtain ⟨progress, task⟩ := c
  cases h
  rw [← Attack.isWon_eq]
  rfl

theorem isAttended_turn {a : Attack} (h : c.task = .attack a) (id : EntityId) (found : Scene) :
    (Deed.turn c found).isAttended id = ((Deed.turn c found).isRelapse id &&
      (found.entities.outline? a.attacker).any Outline.isShip) := by
  obtain ⟨progress, task⟩ := c
  cases h
  rfl

/-- What the last hook of an attack that is over gives. -/
theorem balance_teardown {a : Attack} (h : c.task = .attack a) (id : EntityId)
    (outcome : Except CommandError Unit) (found : Scene) {left : Scene} {won present : Bool}
    (hend : a.EndsWith won present left) :
    (Deed.hook c .teardown outcome found left).losses id = (a.defender == id && won).toNat ∧
    (Deed.hook c .teardown outcome found left).gains id =
      (a.defender == id && won && present).toNat ∧
    (Deed.hook c .teardown outcome found left).notices id = (a.defender == id && won).toNat := by
  have hattacks : (Deed.hook c .teardown outcome found left).attacks id = (a.defender == id) := by
    simp only [attacks, command, h]
  refine ⟨?_, ?_, ?_⟩
  · rw [Deed.losses, hattacks, credits, hend.loss]
    cases a.defender == id <;> rfl
  · rw [Deed.gains, hattacks, credits, hend.gain]
    cases a.defender == id <;> rfl
  · rw [Deed.notices, raised, hend.raised, a.countP_farewell]

/-- The two ways to a credit for a ship exclude each other: a ship is destroyed now only if it is
alive, and it has been destroyed before only if it is not. -/
theorem toNat_destroyed (hit killed wreck present live : Bool)
    (hlive : hit = true → killed = true → live = true)
    (hwreck : hit = true → live = true → wreck = false)
    (hpresent : hit = true → killed = true → present = true) :
    (hit && (killed || wreck)).toNat + (live && !(killed && hit)).toNat =
        live.toNat + (hit && wreck).toNat ∧
      (hit && (killed || wreck) && present).toNat + (live && !(killed && hit)).toNat =
        live.toNat + (hit && wreck && present).toNat := by
  revert hit killed wreck present live
  decide

/-- An attack that is over is won by the hit that destroys the ship, or it is a relapse. -/
theorem balance_ends {a : Attack} (h : c.task = .attack a) (id : EntityId) {s s' : Setting κ ε}
    {killed : Bool} (hend : AttackEnds a c s s' killed) :
    ∃ deeds, s'.chronicle = s.chronicle ++ deeds ∧
      Balance id (s.isAlive id) (s'.isAlive id) deeds := by
  obtain ⟨hooks, last, outcome, found, left, hafter, hquiet, hlast, hendsWith⟩ := hend.deeds
  obtain ⟨engaged, hout⟩ := hend.outlines
  obtain ⟨hloss, hgain, hnotice⟩ := balance_teardown hlast id outcome found hendsWith
  have hrelapse : (Deed.turn c s.scene).isRelapse id = (a.defender == id &&
      (s.entities.outline? a.defender).any (·.isWreckOf a.attacker)) := isRelapse_turn h id s.scene
  have hattended : (Deed.turn c s.scene).isAttended id = ((Deed.turn c s.scene).isRelapse id &&
      (s.entities.outline? a.attacker).any Outline.isShip) := isAttended_turn h id s.scene
  have hhollow : (Deed.hook last .teardown outcome found left).isHollow id = false :=
    isHollow_of_ne_stop (by decide) outcome found left
  have halive : s'.isAlive id = (s.isAlive id && !(killed && a.defender == id)) := by
    unfold Setting.isAlive
    rw [hout, any_reviseIf (Outline.isLive_attack _), any_isLive_destroyed,
      any_reviseIf (Outline.isLive_attack _), Bool.beq_comm]
  -- the credits are those for the hit and those for a relapse, which exclude each other
  obtain ⟨hlosses, hgains⟩ := toNat_destroyed (a.defender == id) killed
    ((s.entities.outline? a.defender).any (·.isWreckOf a.attacker))
    ((s.entities.outline? a.attacker).any Outline.isShip) (s.isAlive id)
    (fun hid hk => by
      rw [beq_iff_eq] at hid
      rw [← hid]
      exact hend.live hk)
    (fun hid hlive => by
      rw [beq_iff_eq] at hid
      rw [← hid] at hlive
      obtain ⟨x, hx, hlive⟩ := (Option.any_eq_true ..).mp hlive
      rw [hx, Option.any_some, Outline.isWreckOf_of_isLive hlive])
    (fun _ hk => hend.present hk)
  have hturn : (Deed.turn c s.scene).losses id = 0 ∧ (Deed.turn c s.scene).gains id = 0 ∧
      (Deed.turn c s.scene).notices id = 0 := by
    simp [Deed.losses, Deed.gains, Deed.notices, credits, raised]
  have hrelapses : tally (relapses id) [Deed.turn c s.scene,
      .hook last .teardown outcome found left] = (a.defender == id &&
        (s.entities.outline? a.defender).any (·.isWreckOf a.attacker)).toNat :=
    congrArg Bool.toNat hrelapse
  refine ⟨_, hafter.chronicle, (Balance.of_isQuiet id _ hquiet).around ⟨?_, ?_, ?_, ?_⟩⟩
  · rw [halive]
    exact fun hlive => (Bool.and_eq_true_iff.mp hlive).1
  · rw [hrelapses, halive, ← hlosses, tally_cons, tally_cons, hturn.1, hloss, tally_nil]
    omega
  · have hattends : tally (attended id) [Deed.turn c s.scene,
        .hook last .teardown outcome found left] = (a.defender == id &&
          (s.entities.outline? a.defender).any (·.isWreckOf a.attacker) &&
            (s.entities.outline? a.attacker).any Outline.isShip).toNat := by
      rw [← hrelapse, ← hattended]
      rfl
    rw [hattends, halive, ← hgains, tally_cons, tally_cons, hturn.2.1, hgain, tally_nil]
    omega
  · have hhollows : tally (hollows id) [Deed.turn c s.scene,
        .hook last .teardown outcome found left] = 0 := by
      rw [tally_cons, tally_cons, tally_nil, hollows, hollows, hhollow]
      rfl
    rw [hrelapses, hhollows, halive, Nat.add_zero, ← hlosses, tally_cons, tally_cons, hturn.2.2,
      hnotice, tally_nil]
    omega

theorem balance_tick_attack {a : Attack} (h : c.task = .attack a) (id : EntityId)
    (s : Setting κ ε) : ∃ deeds, (c.tick host s).2.2.chronicle = s.chronicle ++ deeds ∧
      Balance id (s.isAlive id) ((c.tick host s).2.2.isAlive id) deeds := by
  obtain ⟨-, ⟨-, hon⟩ | ⟨-, killed, hend⟩⟩ := tick_attack host h s
  -- an attack that goes on finds the defender alive, so it is no relapse
  · obtain ⟨hooks, hafter, hquiet⟩ := hon.deeds
    have halive : (c.tick host s).2.2.isAlive id = s.isAlive id := by
      unfold Setting.isAlive
      rw [hon.outlines, any_reviseIf (Outline.isLive_attack _)]
    have hturn : (Deed.turn c s.scene).isRelapse id = false := by
      obtain ⟨x, hx, hlive⟩ := (Option.any_eq_true ..).mp hon.defender
      have hdefender : s.scene.entities.outline? a.defender = some x := hx
      rw [isRelapse_turn h, hdefender, Option.any_some, Outline.isWreckOf_of_isLive hlive,
        Bool.and_false]
    rw [halive]
    exact ⟨_, hafter.chronicle, (balance_turn id _ hturn).trans (Balance.of_isQuiet id _ hquiet)⟩
  · exact balance_ends h id hend

theorem balance_tick_mining {m : Mining} (h : c.task = .mining m) (id : EntityId)
    (s : Setting κ ε) : ∃ deeds, (c.tick host s).2.2.chronicle = s.chronicle ++ deeds ∧
      Balance id (s.isAlive id) ((c.tick host s).2.2.isAlive id) deeds := by
  have hturn : (Deed.turn c s.scene).isRelapse id = false := by
    obtain ⟨progress, task⟩ := c
    cases h
    rfl
  have hquiet : ∃ hooks, s.After (.turn c s.scene :: hooks) (c.tick host s).2.2 ∧
      ∀ d ∈ hooks, d.IsQuiet := by
    obtain ⟨-, ⟨-, hon⟩ | ⟨-, hend⟩⟩ := tick_mining host h s
    · exact hon.deeds
    · exact hend.deeds
  have halive : (c.tick host s).2.2.isAlive id = s.isAlive id := by
    unfold Setting.isAlive
    obtain ⟨-, ⟨-, hon⟩ | ⟨-, hend⟩⟩ := tick_mining host h s
    · rw [hon.outlines, any_reviseIf (Outline.isLive_mine _)]
    · obtain ⟨engaged, hout⟩ := hend.outlines
      rw [hout, any_reviseIf (Outline.isLive_mine _), any_reviseIf (Outline.isLive_mine _)]
  obtain ⟨hooks, hafter, hquiet⟩ := hquiet
  rw [halive]
  exact ⟨_, hafter.chronicle, (balance_turn id _ hturn).trans (Balance.of_isQuiet id _ hquiet)⟩

theorem balance_halt_attack {a : Attack} (h : c.task = .attack a) (id : EntityId)
    (s : Setting κ ε) : ∃ deeds, (c.halt host s).chronicle = s.chronicle ++ deeds ∧
      Balance id (s.isAlive id) ((c.halt host s).isAlive id) deeds := by
  obtain ⟨hout, outcome, left, hafter, hcredits, -, hraised⟩ := halt_attack host h s
  have halive : (c.halt host s).isAlive id = s.isAlive id := by
    unfold Setting.isAlive
    rw [hout, any_reviseIf (Outline.isLive_attack _)]
  have hhollow : (Deed.hook c .stop outcome s.scene left).isHollow id = (a.defender == id &&
      a.isEngaged s.entities && a.isWon s.scene) := by
    obtain ⟨progress, task⟩ := c
    cases h
    rfl
  have hnotice : (Deed.hook c .stop outcome s.scene left).notices id =
      (Deed.hook c .stop outcome s.scene left).hollows id := by
    rw [Deed.notices, raised, hraised, hollows, hhollow]
    cases a.isEngaged s.entities with
    | true => rw [if_pos rfl, a.countP_farewell, Bool.and_true]
    | false => simp
  rw [halive]
  refine ⟨_, hafter.chronicle, fun hlive => hlive, ?_, ?_, ?_⟩
  · simp [Deed.losses, credits, hcredits, relapses, isRelapse]
  · simp [Deed.gains, credits, hcredits, attended, isAttended]
  · simp [hnotice, relapses, isRelapse, Nat.add_comm]

theorem balance_halt_mining {m : Mining} (h : c.task = .mining m) (id : EntityId)
    (s : Setting κ ε) : ∃ deeds, (c.halt host s).chronicle = s.chronicle ++ deeds ∧
      Balance id (s.isAlive id) ((c.halt host s).isAlive id) deeds := by
  obtain ⟨hout, outcome, left, hafter, hcredits, -, hraised⟩ := halt_mining host h s
  have halive : (c.halt host s).isAlive id = s.isAlive id := by
    unfold Setting.isAlive
    rw [hout, any_reviseIf (Outline.isLive_mine _)]
  have hhollow : (Deed.hook c .stop outcome s.scene left).isHollow id = false := by
    obtain ⟨progress, task⟩ := c
    cases h
    rfl
  have hnotice : (Deed.hook c .stop outcome s.scene left).notices id = 0 := by
    rw [Deed.notices, List.countP_eq_zero]
    intro e he
    simp [hraised e he]
  rw [halive]
  refine ⟨_, hafter.chronicle, fun hlive => hlive, ?_, ?_, ?_⟩
  · simp [Deed.losses, credits, hcredits, relapses, isRelapse]
  · simp [Deed.gains, credits, hcredits, attended, isAttended]
  · simp [hnotice, relapses, isRelapse, hollows, hhollow]

/-- A tick keeps ships where they are, and its deeds are balanced. -/
theorem reckons_tick (hc : c.BuiltIn) {id : EntityId} {before : Bool} {s : Setting κ ε}
    (hs : s.Reckons id before) :
    (c.tick host s).2.1.BuiltIn ∧ (c.tick host s).2.2.Reckons id before := by
  obtain ⟨k, actor, target, hdrives⟩ := hc
  obtain ⟨htask, hways⟩ := tick_drives host hdrives s
  have hpresent : ((c.tick host s).2.2.entities.outline? id).any Outline.isShip = true := by
    rw [← hs.present]
    rcases hways with ⟨-, hon⟩ | ⟨-, killed, hend⟩
    · rw [hon.outlines, any_reviseIf (k.isShip_turn _)]
    · obtain ⟨engaged, hout⟩ := hend.outlines
      rw [hout, any_reviseIf (k.isShip_turn _), any_reviseIf (Outline.isShip_destroy _),
        any_reviseIf (k.isShip_turn _)]
  have hbalance : ∃ deeds, (c.tick host s).2.2.chronicle = s.chronicle ++ deeds ∧
      Balance id (s.isAlive id) ((c.tick host s).2.2.isAlive id) deeds := by
    cases h : c.task with
    | attack a => exact balance_tick_attack host h id s
    | mining m => exact balance_tick_mining host h id s
    | custom =>
      rw [h] at hdrives
      cases hdrives
  obtain ⟨deeds, hchronicle, hbalance⟩ := hbalance
  refine ⟨⟨k, actor, target, by rw [htask, hdrives]⟩, hpresent, ?_⟩
  rw [hchronicle]
  exact hs.balance.trans hbalance

/-- So are those of a stop. -/
theorem reckons_halt (hc : c.BuiltIn) {id : EntityId} {before : Bool} {s : Setting κ ε}
    (hs : s.Reckons id before) : (c.halt host s).Reckons id before := by
  obtain ⟨k, actor, target, hdrives⟩ := hc
  have hpresent : ((c.halt host s).entities.outline? id).any Outline.isShip = true := by
    rw [← hs.present, halt_drives host hdrives, any_reviseIf (k.isShip_turn _)]
  have hbalance : ∃ deeds, (c.halt host s).chronicle = s.chronicle ++ deeds ∧
      Balance id (s.isAlive id) ((c.halt host s).isAlive id) deeds := by
    cases h : c.task with
    | attack a => exact balance_halt_attack host h id s
    | mining m => exact balance_halt_mining host h id s
    | custom =>
      rw [h] at hdrives
      cases hdrives
  obtain ⟨deeds, hchronicle, hbalance⟩ := hbalance
  refine ⟨hpresent, ?_⟩
  rw [hchronicle]
  exact hs.balance.trans hbalance

end Command

namespace Session

variable (host : CommandHost κ ε) {x : Session κ ε} {id : EntityId} {before : Bool}

theorem reckons_tick (hx : x.schedule.BuiltIn) (hs : x.setting.Reckons id before) :
    (x.tick host).2.schedule.BuiltIn ∧ (x.tick host).2.setting.Reckons id before :=
  tick_keeps host (P := (·.Reckons id before)) (fun _ _ hc hs => Command.reckons_tick host hc hs)
    (fun _ _ hc hs => Command.reckons_halt host hc hs)
    (fun _ _ hs => ⟨hs.present, hs.balance⟩) hx hs

theorem reckons_meetRequests (hx : x.schedule.BuiltIn) (hs : x.setting.Reckons id before) :
    (x.meetRequests host).2.schedule.BuiltIn ∧ (x.meetRequests host).2.setting.Reckons id before :=
  Sweep.meetRequests_keeps (P := (·.Reckons id before))
    (fun _ _ hc hs => Command.reckons_halt host hc hs)
    (fun _ _ hs => ⟨hs.present, hs.balance⟩) hx hs

end Session

/-! ### The account of credits -/

/-- The account once it has taken note of credits. -/
def CommandHost.creditAll (host : CommandHost κ ε) (credits : List Credit) (outside : ε) : ε :=
  credits.foldl (fun o c => host.credit c o) outside

/-- The state outside of the simulation is the account of the credits that deeds have given. -/
def Setting.Credits (host : CommandHost κ ε) (outside : ε) (s : Setting κ ε) : Prop :=
  s.outside = host.creditAll (s.chronicle.flatMap credits) outside

namespace Command

variable (host : CommandHost κ ε) {c : Command κ} {outside : ε}

/-- A hook credits what it notes. -/
theorem credits_run (hc : c.BuiltIn) {s : Setting κ ε} (hs : s.Credits host outside)
    (stage : Stage) : (c.run host stage s).2.2.Credits host outside := by
  obtain ⟨k, actor, target, hdrives⟩ := hc
  obtain ⟨progress, task⟩ := c
  have happend : ∀ cs cs' : List Credit, host.creditAll cs' (host.creditAll cs outside) =
      host.creditAll (cs ++ cs') outside := fun cs cs' => (List.foldl_append ..).symm
  cases task with
  | custom => cases hdrives
  | attack a =>
    show host.creditAll ((a.hook stage).run.run s.scene).2.credits s.outside =
      host.creditAll (List.flatMap credits (s.chronicle ++ [_])) outside
    rw [hs, happend, List.flatMap_append, List.flatMap_singleton]
    rfl
  | mining m =>
    show host.creditAll ((m.hook stage).run.run s.scene).2.credits s.outside =
      host.creditAll (List.flatMap credits (s.chronicle ++ [_])) outside
    rw [hs, happend, List.flatMap_append, List.flatMap_singleton]
    rfl

theorem credits_tick (hc : c.BuiltIn) {s : Setting κ ε} (hs : s.Credits host outside) :
    (c.tick host s).2.1.BuiltIn ∧ (c.tick host s).2.2.Credits host outside := by
  have hkeep : ∀ stage (c : Command κ) (s : Setting κ ε), c.BuiltIn ∧ s.Credits host outside →
      (c.run host stage s).2.1.BuiltIn ∧ (c.run host stage s).2.2.Credits host outside := by
    intro stage c s ⟨hc, hs⟩
    rw [hc.run_eq_self]
    exact ⟨hc, credits_run host hc hs stage⟩
  refine tick_keeps (P := fun c s => c.BuiltIn ∧ s.Credits host outside) host hkeep
    (fun c s progress h => h) ⟨hc, ?_⟩
  show s.outside = host.creditAll (List.flatMap credits (s.chronicle ++ [_])) outside
  rw [List.flatMap_append, List.flatMap_singleton, hs]
  exact congrArg (host.creditAll · outside) (List.append_nil _).symm

end Command

/-! ### Runs -/

namespace World

/-- Whether a ship is alive. -/
def isAlive (w : World κ ε) (id : EntityId) : Bool :=
  (w.registry.entities.outline? id).any Outline.isLive

/-- In how many of some operations a ship that was alive is destroyed. -/
def kills (host : CommandHost κ ε) (id : EntityId) (w : World κ ε) : List (Operation κ ε) → Nat
  | [] => 0
  | op :: ops => (w.isAlive id && !(op.commit host w).2.isAlive id).toNat +
      kills host id (op.commit host w).2 ops

/-- A world in which a ship is there, and that has attacks and mining runs only. -/
structure HasShip (id : EntityId) (w : World κ ε) : Prop where
  /-- All commands are attacks or mining runs. -/
  builtIn : w.registry.schedule.BuiltIn
  /-- The ship is there. -/
  present : (w.registry.entities.outline? id).any Outline.isShip = true

end World

namespace Operation

/-- An entity is not removed. -/
def Spares (id : EntityId) : Operation κ ε → Prop
  | remove _ other => other ≠ id
  | _ => True

variable (host : CommandHost κ ε) {w : World κ ε} {id : EntityId}

/-- The deeds of an operation are balanced. -/
theorem balance_commit {op : Operation κ ε} (hop : op.IsBuiltIn) (hspares : op.Spares id)
    (hw : w.HasShip id) : (op.commit host w).2.HasShip id ∧
      Balance id (w.isAlive id) ((op.commit host w).2.isAlive id) (op.commit host w).1 := by
  -- effects without deeds leave the ship as it was
  have hsame : ∀ w' : World κ ε, w'.registry.schedule.BuiltIn →
      w'.registry.entities.outline? id = w.registry.entities.outline? id →
      w'.HasShip id ∧ Balance id (w.isAlive id) (w'.isAlive id) ([] : List (Deed κ)) := by
    intro w' hbuiltIn hout
    have halive : w'.isAlive id = w.isAlive id := congrArg (·.any Outline.isLive) hout
    rw [halive]
    exact ⟨⟨hbuiltIn, by rw [hout]; exact hw.present⟩, Balance.refl id _⟩
  have hstart : ∀ s : Setting κ ε, s.entities = w.registry.entities → s.chronicle = [] →
      s.Reckons id (w.isAlive id) := by
    intro s hentities hchronicle
    refine ⟨by rw [hentities]; exact hw.present, ?_⟩
    rw [hchronicle, Setting.isAlive, hentities]
    exact Balance.refl id _
  have heffect := op.effect_commit host w
  generalize op.commit host w = r at heffect ⊢
  cases heffect with
  | refused => exact hsame _ hw.builtIn rfl
  | @create e es hadd =>
    refine hsame _ hw.builtIn ?_
    show es.outline? id = _
    rw [Entities.outline?_of_add hadd, if_neg]
    -- the name of the ship is taken
    rintro rfl
    have hpresent := hw.present
    rw [Entities.outline?, (Entities.get?_of_add hadd).1] at hpresent
    cases hpresent
  | schedule hadd => exact hsame _ (hw.builtIn.add hop hadd) rfl
  | tick now =>
    obtain ⟨hbuiltIn, hreckons⟩ :=
      Session.reckons_tick host (x := w.session now) hw.builtIn (hstart _ rfl rfl)
    exact ⟨⟨hbuiltIn, hreckons.present⟩, hreckons.balance⟩
  | stopCommands now other =>
    obtain ⟨hbuiltIn, hreckons⟩ :=
      Session.reckons_meetRequests host (x := w.stopping now other) hw.builtIn (hstart _ rfl rfl)
    exact ⟨⟨hbuiltIn, hreckons.present⟩, hreckons.balance⟩
  | remove now other =>
    obtain ⟨hbuiltIn, hreckons⟩ :=
      Session.reckons_meetRequests host (x := w.stopping now other) hw.builtIn (hstart _ rfl rfl)
    have hout : ((w.resume ((w.stopping now other).meetRequests host).2).erase
        other).registry.entities.outline? id =
          ((w.stopping now other).meetRequests host).2.setting.entities.outline? id := by
      show (Entities.erase _ other).outline? id = _
      rw [Entities.outline?_erase, if_neg fun h => hspares h.symm]
      rfl
    have halive : ((w.resume ((w.stopping now other).meetRequests host).2).erase
        other).isAlive id = ((w.stopping now other).meetRequests host).2.setting.isAlive id :=
      congrArg (·.any Outline.isLive) hout
    refine ⟨⟨hbuiltIn, by rw [hout]; exact hreckons.present⟩, ?_⟩
    simp only [halive]
    exact hreckons.balance
  | transfer src dst material quantity =>
    refine hsame _ hw.builtIn ?_
    show (Registry.moveMaterial ..).2.outline? id = _
    rw [Registry.outline?_moveMaterial]
  | listen other events =>
    refine hsame _ hw.builtIn ?_
    show (w.registry.entities.putEvents other events).outline? id = _
    rw [Entities.outline?_putEvents]
  | drift => exact hsame _ hw.builtIn rfl

/-- The surroundings do not change by themselves. -/
def IsCalm : Operation κ ε → Prop
  | drift .. => False
  | _ => True

/-- What an operation does to the state outside of the simulation is to credit what it notes. -/
theorem outside_commit {op : Operation κ ε} (hcalm : op.IsCalm) (hw : w.registry.schedule.BuiltIn) :
    (op.commit host w).2.outside =
      host.creditAll ((op.commit host w).1.flatMap credits) w.outside := by
  have hhalt : ∀ (c : Command κ) (s : Setting κ ε), c.BuiltIn → s.Credits host w.outside →
      (c.halt host s).Credits host w.outside :=
    fun _ _ hc hs => Command.credits_run host hc hs .stop
  have hmeet : ∀ x : Session κ ε, x.schedule.BuiltIn → x.setting.Credits host w.outside →
      (x.meetRequests host).2.setting.Credits host w.outside := fun x hx hs =>
    (Sweep.meetRequests_keeps (P := (·.Credits host w.outside)) (w := { session := x }) hhalt
      (fun _ _ hs => hs) hx hs).2
  have heffect := op.effect_commit host w
  generalize op.commit host w = r at heffect ⊢
  cases heffect with
  | refused | create | schedule | transfer | listen => rfl
  | tick now =>
    exact (Session.tick_keeps host (P := (·.Credits host w.outside))
      (fun _ _ hc hs => Command.credits_tick host hc hs) hhalt (fun _ _ hs => hs)
      (x := w.session now) hw rfl).2
  | stopCommands now other | remove now other => exact hmeet (w.stopping now other) hw rfl
  | drift => exact hcalm.elim

end Operation

namespace World

variable (host : CommandHost κ ε) {id : EntityId}

/-- All that a run does to the state outside of the simulation is to credit what it notes. -/
theorem outside_after {w : World κ ε} (hw : w.registry.schedule.BuiltIn)
    {ops : List (Operation κ ε)} (hops : ∀ op ∈ ops, op.IsBuiltIn ∧ op.IsCalm) :
    (w.after host ops).outside = host.creditAll ((w.deeds host ops).flatMap credits) w.outside := by
  induction ops generalizing w with
  | nil => rfl
  | cons op ops ih =>
    obtain ⟨hop, hcalm⟩ := hops op (List.mem_cons_self ..)
    have hrest := ih (Operation.builtIn_commit host hop hw)
      fun op' h => hops op' (List.mem_cons_of_mem _ h)
    rw [Operation.outside_commit host hcalm hw] at hrest
    show (after host (op.commit host w).2 ops).outside = _
    rw [hrest, deeds, List.flatMap_append]
    exact (List.foldl_append ..).symm

/-- The deeds of a run are balanced, and a ship that is destroyed in the course of it was alive
before. -/
theorem balance_deeds {w : World κ ε} (hw : w.HasShip id) {ops : List (Operation κ ε)}
    (hops : ∀ op ∈ ops, op.IsBuiltIn ∧ op.Spares id) :
    Balance id (w.isAlive id) ((w.after host ops).isAlive id) (w.deeds host ops) ∧
      w.kills host id ops + ((w.after host ops).isAlive id).toNat = (w.isAlive id).toNat := by
  induction ops generalizing w with
  | nil => exact ⟨Balance.refl id _, Nat.zero_add _⟩
  | cons op ops ih =>
    obtain ⟨hbuiltIn, hspares⟩ := hops op (List.mem_cons_self ..)
    obtain ⟨hw', hbalance⟩ := Operation.balance_commit host hbuiltIn hspares hw
    obtain ⟨hrest, hkills⟩ := ih hw' fun op' h => hops op' (List.mem_cons_of_mem _ h)
    refine ⟨hbalance.trans hrest, ?_⟩
    have halive := hbalance.alive
    have hafter : w.after host (op :: ops) = after host (op.commit host w).2 ops := rfl
    rw [hafter, kills, Nat.add_assoc, hkills]
    -- a ship is alive before, between and after, or no longer from some operation on
    cases hbefore : w.isAlive id with
    | true => cases (op.commit host w).2.isAlive id <;> rfl
    | false =>
      have hdead : (op.commit host w).2.isAlive id = false := by
        rw [hbefore] at halive
        exact Bool.eq_false_iff.mpr fun h => Bool.noConfusion (halive h)
      rw [hdead]
      rfl

end World

namespace Skirmish

/-- The hunter destroys the prey, and is then sent against the wreck. -/
def relapse : List (Operation Unit Unit) :=
  [.schedule (.attack attack), .tick 0, .schedule (.attack attack), .tick 1]

theorem spares_relapse : ∀ op ∈ relapse, op.IsBuiltIn ∧ op.Spares prey.id := by
  simp [relapse, Operation.IsBuiltIn, Operation.Spares, Command.BuiltIn, Task.drives?,
    Command.attack]

/-- Both ships, and nothing else. -/
def ships : Registry Unit where
  entities :=
    { table :=
        { entries := [(hunter.id, .ship hunter), (prey.id, .ship prey)]
          nodup := by decide } }

/-- The first attack. -/
def onset : World Unit Unit where
  tracker := tracker
  registry := { ships with schedule := onslaught }
  outside := ()

/-- What the first attack comes to. -/
def strike : Setting Unit Unit :=
  ((Command.attack attack).tick Host.still.toCommandHost (onset.session 0).setting).2.2

/-- The second attack. -/
def aftermath : World Unit Unit where
  tracker := strike.tracker
  registry := { entities := strike.entities, schedule := onslaught }
  outside := ()

/-- What the second attack comes to. -/
def echo : Setting Unit Unit :=
  ((Command.attack attack).tick Host.still.toCommandHost (aftermath.session 1).setting).2.2

theorem commit_onset : (Operation.tick 0).commit Host.still.toCommandHost onset =
    (strike.chronicle, onset.resume ⟨{}, { strike with stopRequests := [] }⟩) :=
  Operation.commit_tick_singleton _ rfl rfl (by decide +kernel)

theorem commit_aftermath : (Operation.tick 1).commit Host.still.toCommandHost aftermath =
    (echo.chronicle, aftermath.resume ⟨{}, { echo with stopRequests := [] }⟩) :=
  Operation.commit_tick_singleton _ rfl rfl (by decide +kernel)

end Skirmish

namespace World

/-- Whatever has been done to a registry that was empty at first, and whatever is done after a ship
has been created and as long as it is not removed: the credits for the ship are one for each
operation that destroys it and one more for each relapse, and so are the events that tell the ship,
with one more for each hollow stop.  The ship is destroyed at most once, so all of them are given
exactly once for its destruction if and only if there are no relapses and no hollow stops.  Unless
the surroundings change by themselves, the account outside of the simulation receives these credits
and those for other ships, in the order of the deeds, and nothing else. -/
theorem credits_eq_kills_iff (host : CommandHost κ ε) (tracker : Tracker) (outside : ε)
    (earlier later : List (Operation κ ε)) (hearlier : ∀ op ∈ earlier, op.IsBuiltIn) (ship : Ship)
    {r : Registry κ} :
    let w₀ := World.after host { tracker := tracker, outside := outside } earlier
    w₀.registry.create (.ship ship) = .ok r →
    (∀ op ∈ later, op.IsBuiltIn ∧ op.Spares ship.id) →
    let w := w₀.withRegistry r
    let deeds := w.deeds host later
    let kills := w.kills host ship.id later
    (tally (losses ship.id) deeds = kills + tally (relapses ship.id) deeds ∧
      tally (gains ship.id) deeds = kills + tally (attended ship.id) deeds ∧
      tally (notices ship.id) deeds =
        kills + tally (relapses ship.id) deeds + tally (hollows ship.id) deeds) ∧
    kills ≤ 1 ∧
    ((tally (losses ship.id) deeds = kills ∧ tally (gains ship.id) deeds = kills ∧
        tally (notices ship.id) deeds = kills) ↔
      ∀ d ∈ deeds, d.isRelapse ship.id = false ∧ d.isHollow ship.id = false) ∧
    ((∀ op ∈ later, op.IsCalm) →
      (w.after host later).outside = host.creditAll (deeds.flatMap credits) w.outside) := by
  intro w₀ hcreate hlater w deeds kills
  have hbuiltIn : w₀.registry.schedule.BuiltIn :=
    after_induction (P := (·.registry.schedule.BuiltIn)) host
      (fun _ _ hop hv => Operation.builtIn_commit host hop hv) (by simp [Schedule.BuiltIn]) hearlier
  have hw : w.HasShip ship.id := by
    obtain ⟨es, hadd, hr⟩ := Registry.create_eq_ok hcreate
    constructor
    · show r.schedule.BuiltIn
      rw [hr]
      exact hbuiltIn
    · show (r.entities.outline? ship.id).any Outline.isShip = true
      rw [hr, Entities.outline?_of_add hadd]
      simp [Entity.id, Entity.outline?, Ship.outline, Outline.isShip]
  have hrun : Balance ship.id (w.isAlive ship.id) ((w.after host later).isAlive ship.id) deeds ∧
      kills + ((w.after host later).isAlive ship.id).toNat = (w.isAlive ship.id).toNat :=
    balance_deeds host hw hlater
  obtain ⟨hbalance, hkills⟩ := hrun
  have hlosses := hbalance.losses
  have hgains := hbalance.gains
  have hnotices := hbalance.notices
  have hbefore := Bool.toNat_le (w.isAlive ship.id)
  refine ⟨⟨?_, ?_, ?_⟩, ?_, hbalance.tally_eq_iff hkills, fun hcalm =>
    outside_after host hw.builtIn fun op hop => ⟨(hlater op hop).1, hcalm op hop⟩⟩
  · omega
  · omega
  · omega
  · omega

/-- In particular so if a ship is sent against its own wreck. -/
theorem credits_eq_kills_iff_skirmish :
    let host := Host.still.toCommandHost
    let w : World Unit Unit := World.after host { tracker := Skirmish.tracker, outside := () }
      [.create (.ship Skirmish.hunter), .create (.ship Skirmish.prey)]
    let id := Skirmish.prey.id
    let deeds := w.deeds host Skirmish.relapse
    let kills := w.kills host id Skirmish.relapse
    (tally (losses id) deeds = kills ∧ tally (gains id) deeds = kills ∧
        tally (notices id) deeds = kills) ↔
      ∀ d ∈ deeds, d.isRelapse id = false ∧ d.isHollow id = false := by
  have hcreate : (World.after Host.still.toCommandHost
      ({ tracker := Skirmish.tracker, outside := () } : World Unit Unit)
      [.create (.ship Skirmish.hunter)]).registry.create (.ship Skirmish.prey) =
        .ok Skirmish.ships := rfl
  exact (credits_eq_kills_iff Host.still.toCommandHost Skirmish.tracker ()
    [.create (.ship Skirmish.hunter)] Skirmish.relapse (by simp [Operation.IsBuiltIn]) Skirmish.prey
    hcreate Skirmish.spares_relapse).2.2.1

/-- The prey is destroyed once, but there are two credits to each owner, and the prey is told twice
of its destruction. -/
theorem credits_relapse :
    let host := Host.still.toCommandHost
    let w : World Unit Unit := World.after host { tracker := Skirmish.tracker, outside := () }
      [.create (.ship Skirmish.hunter), .create (.ship Skirmish.prey)]
    let id := Skirmish.prey.id
    let deeds := w.deeds host Skirmish.relapse
    w.kills host id Skirmish.relapse = 1 ∧ tally (losses id) deeds = 2 ∧
      tally (gains id) deeds = 2 ∧ tally (notices id) deeds = 2 := by
  intro host w id deeds
  have hdeeds : deeds = Skirmish.strike.chronicle ++ Skirmish.echo.chronicle := by
    show [] ++ (((Operation.tick 0).commit host Skirmish.onset).1 ++
      World.deeds host ((Operation.tick 0).commit host Skirmish.onset).2
        [.schedule (.attack Skirmish.attack), .tick 1]) = _
    rw [Skirmish.commit_onset]
    show [] ++ (Skirmish.strike.chronicle ++ ([] ++
      (((Operation.tick 1).commit host Skirmish.aftermath).1 ++ []))) = _
    rw [Skirmish.commit_aftermath]
    simp
  have hship : w.HasShip id := ⟨nofun, rfl⟩
  obtain ⟨hbalance, hkills⟩ := balance_deeds host hship Skirmish.spares_relapse
  have hlosses : tally (losses id) deeds = 2 := by
    rw [hdeeds]
    decide +kernel
  have hrelapses : tally (relapses id) deeds = 1 := by
    rw [hdeeds]
    decide +kernel
  have hbalanced : tally (losses id) deeds + ((w.after host Skirmish.relapse).isAlive id).toNat =
    (w.isAlive id).toNat + tally (relapses id) deeds := hbalance.losses
  refine ⟨?_, hlosses, ?_, ?_⟩
  · omega
  · rw [hdeeds]
    decide +kernel
  · rw [hdeeds]
    decide +kernel

end World

end Orrery
