import Orrery.Proofs.Supply

/-!
# Salvage

What becomes of the cargo of a wreck when it is cleared up (`Attack.Looted`): it is left behind as
loot that is named after the ship.  All of it should be found where the ship was destroyed, and a
ship that carries nothing should leave nothing behind (`Attack.Recovers`).  That is so if and only
if the cargo `CanRecover`.  It cannot if there is loot of that name already which lies elsewhere or
has no room, and a hold of nothing but empty stacks becomes loot without cargo.

No hook takes anything away from loot, nor does it move loot (`Entities.KeepsLoot`).
-/

namespace Orrery

/-! ### What clearing up leaves -/

namespace Entities

variable {es es' : Entities}

theorem loot?_of_get? {id : EntityId} {loot : Loot} (h : es.get? id = some (.loot loot)) :
    es.loot? id = some loot := by
  rw [loot?, h]
  rfl

theorem loot?_put {id : EntityId} {loot : Loot} (h : es.get? id = some (.loot loot))
    (loot' : Loot) (j : EntityId) :
    (es.put id (.loot loot')).loot? j = if j = id then some loot' else es.loot? j := by
  unfold loot?
  rw [put, get?_adjust]
  split
  · next hj =>
    rw [hj, h]
    rfl
  · rfl

theorem loot?_of_add {loot : Loot} (h : es.add (.loot loot) = .ok es') (j : EntityId) :
    es'.loot? j = if j = loot.id then some loot else es.loot? j := by
  unfold loot?
  rw [(get?_of_add h).2]
  by_cases hj : j = (Entity.loot loot).id
  · rw [if_pos hj]
    exact (if_pos hj).symm
  · rw [if_neg hj]
    exact (if_neg hj).symm

theorem loot?_adjustDeposit (es : Entities) (id : EntityId) (f : Deposit → Deposit) (j : EntityId) :
    (es.adjustDeposit id f).loot? j = es.loot? j := by
  unfold loot?
  rw [adjustDeposit, get?_adjust]
  split
  · cases es.get? j with
    | none => rfl
    | some e => cases e <;> rfl
  · rfl

theorem keys_of_add {e : Entity} (h : es.add e = .ok es') :
    es'.table.keys = es.table.keys ++ [e.id] := by
  have hfree : es.table.get? e.id = none := (get?_of_add h).1
  unfold add at h
  split at h
  · cases h
  · cases h
    simp [Table.keys, Table.insert_of_get?_none hfree]

theorem keys_adjust (es : Entities) (id : EntityId) (f : Entity → Entity) :
    (es.adjust id f).table.keys = es.table.keys := Table.keys_modify ..

end Entities

namespace Hold

variable {h : Hold}

theorem contents_ne_nil_of_pos (hpos : 0 < h.sum) : h.contents ≠ [] := by
  intro hnil
  rw [← sum_contents, hnil] at hpos
  cases hpos

/-- Nothing is refused if nothing is missing of any material. -/
theorem unitsIn_refused_eq_zero_iff {load : List Stack} :
    (∀ m, unitsIn m (h.refused load) = 0) ↔ h.refused load = [] := by
  constructor
  · intro hzero
    by_contra hne
    obtain ⟨s, hs, hpos⟩ := exists_pos_of_refused_ne_nil hne
    have hle := le_unitsIn_of_mem hs
    rw [hzero s.material] at hle
    omega
  · intro hnil m
    rw [hnil, unitsIn_nil]

/-- Adding takes nothing away. -/
theorem units_le_addAll (h : Hold) (load : List Stack) (m : String) :
    h.units m ≤ (h.addAll load).1.units m := by
  induction load generalizing h with
  | nil => exact Nat.le_refl _
  | cons s rest ih =>
    unfold addAll
    cases hadd : h.add s.material s.quantity with
    | error e => exact Nat.le_refl _
    | ok h' =>
      obtain ⟨-, -, hunits, -⟩ := add_spec hadd
      have hle := ih h'
      rw [hunits] at hle
      exact Nat.le_trans (Nat.le_add_right ..) hle

end Hold

namespace Attack

variable (a : Attack) (s : Scene)

/-- The loot of the name of the wreck after its cargo has been left behind, given what there was
before: loot that is there already takes the stacks that fit, and new loot takes all or nothing. -/
def lootAfter (old : Option Loot) (wreck : Ship) : Option Loot :=
  if wreck.hold.contents = [] then old
  else
    match old with
    | some loot =>
      some { loot with hold := ((roomy loot wreck.hold).addAll wreck.hold.contents).1 }
    | none =>
      if (fresh wreck.hold).refused wreck.hold.contents = [] then
        some ⟨a.lootId, wreck.system, wreck.position,
          ((fresh wreck.hold).addAll wreck.hold.contents).1⟩
      else none

/-- It is the cargo of the wreck and its place that count. -/
theorem lootAfter_congr {wreck wreck' : Ship} (hhold : wreck.hold = wreck'.hold)
    (hsystem : wreck.system = wreck'.system) (hposition : wreck.position = wreck'.position)
    (old : Option Loot) : a.lootAfter old wreck = a.lootAfter old wreck' := by
  unfold lootAfter
  rw [hhold, hsystem, hposition]

/-- What becomes of loot when the cargo of a wreck is left behind. -/
structure Looted (wreck : Ship) (es es' : Entities) : Prop where
  /-- The loot of the name of the wreck takes the cargo. -/
  loot : es'.loot? a.lootId = a.lootAfter (es.loot? a.lootId) wreck
  /-- All other loot stays as it is. -/
  others : ∀ id, id ≠ a.lootId → es'.loot? id = es.loot? id
  /-- No entity goes, and none comes but new loot. -/
  keys : es'.table.keys = es.table.keys ++
    if es.loot? a.lootId = none ∧ (a.lootAfter none wreck).isSome then [a.lootId] else []

variable {a} in
/-- Nothing is left behind, and nothing changes. -/
theorem Looted.of_eq {wreck : Ship} {es es' : Entities}
    (hsame : a.lootAfter (es.loot? a.lootId) wreck = es.loot? a.lootId)
    (hloot : ∀ id, es'.loot? id = es.loot? id) (hkeys : es'.table.keys = es.table.keys) :
    a.Looted wreck es es' := by
  refine ⟨(hloot _).trans hsame.symm, fun id _ => hloot id, ?_⟩
  rw [if_neg, List.append_nil, hkeys]
  rintro ⟨hnone, hsome⟩
  rw [hnone] at hsame
  rw [hsame] at hsome
  cases hsome

theorem looted_addToLoot {wreck : Ship} (hne : wreck.hold.contents ≠ []) {loot : Loot}
    (h : s.entities.get? a.lootId = some (.loot loot)) :
    a.Looted wreck s.entities
      ((a.addToLoot loot wreck.hold.contents).run.run s).2.entities := by
  obtain ⟨r, hrun⟩ := a.addToLoot_cases s loot wreck.hold.contents
  have hloot := Entities.loot?_put h
    { loot with hold := ((roomy loot wreck.hold).addAll wreck.hold.contents).1 }
  have hold := Entities.loot?_of_get? h
  rw [hrun]
  refine ⟨?_, fun id hid => (hloot id).trans (if_neg hid), ?_⟩
  · rw [hold, lootAfter, if_neg hne]
    exact (hloot a.lootId).trans (if_pos rfl)
  · rw [hold, if_neg (by simp), List.append_nil]
    exact Entities.keys_adjust ..

theorem looted_createLoot {wreck : Ship} (hne : wreck.hold.contents ≠ [])
    (h : s.entities.get? a.lootId = none) :
    a.Looted wreck s.entities
      ((a.createLoot wreck wreck.hold.contents).run.run s).2.entities := by
  have hnone : s.entities.loot? a.lootId = none := by
    rw [Entities.loot?, h]
    rfl
  have hfits := (fresh wreck.hold).addAll_snd_eq_none_iff wreck.hold.contents
  obtain ⟨hold, es, hall, hadd, hrun⟩ | ⟨hfault, e, hrun⟩ :=
    a.createLoot_cases s wreck wreck.hold.contents
  · have hall' : (fresh wreck.hold).addAll wreck.hold.contents = (hold, none) := hall
    have hrefused := hfits.mp (congrArg Prod.snd hall')
    have hafter : a.lootAfter none wreck = some ⟨a.lootId, wreck.system, wreck.position, hold⟩ := by
      simp only [lootAfter, if_neg hne, if_pos hrefused, hall']
    have hloot := Entities.loot?_of_add hadd
    rw [hrun]
    refine ⟨?_, fun id hid => (hloot id).trans (if_neg hid), ?_⟩
    · rw [hnone, hafter]
      exact (hloot a.lootId).trans (if_pos rfl)
    · rw [hnone, hafter, if_pos ⟨rfl, rfl⟩]
      exact Entities.keys_of_add hadd
  · -- new loot takes nothing unless it takes everything
    have hrefused : (fresh wreck.hold).refused wreck.hold.contents ≠ [] := by
      rcases hfault with hfault | htaken
      · exact fun hnil => hfault (hfits.mpr hnil)
      · rw [h] at htaken
        cases htaken
    rw [hrun]
    refine Looted.of_eq ?_ (fun _ => rfl) rfl
    simp only [hnone, lootAfter, if_neg hne, if_neg hrefused]

theorem looted_leaveLoot (wreck : Ship) (h : a.lootIdUsable s.entities = true) :
    a.Looted wreck s.entities
      ((a.leaveLoot wreck wreck.hold.contents).run.run s).2.entities := by
  unfold leaveLoot
  by_cases hempty : wreck.hold.contents = []
  · rw [if_neg (by simp [hempty])]
    exact Looted.of_eq (if_pos hempty) (fun _ => rfl) rfl
  · rw [if_pos (by simp [hempty]), run_bind, run_get]
    unfold lootIdUsable at h
    cases hget : s.entities.get? a.lootId with
    | none =>
      simp only [hget]
      exact a.looted_createLoot s hempty hget
    | some e =>
      cases e with
      | loot loot =>
        simp only [hget]
        exact a.looted_addToLoot s hempty hget
      | ship | station | deposit =>
        rw [hget] at h
        cases h

variable {a} in
/-- Changes of ships on the way do not matter. -/
theorem Looted.of_adjustShip {wreck : Ship} {es es' : Entities} {id : EntityId} {f : Ship → Ship}
    (h : a.Looted wreck (es.adjustShip id f) es') : a.Looted wreck es es' := by
  obtain ⟨hloot, hothers, hkeys⟩ := h
  simp only [Entities.loot?_adjustShip] at hloot hothers hkeys
  rw [Entities.adjustShip, Entities.keys_adjust] at hkeys
  exact ⟨hloot, hothers, hkeys⟩

variable {a} in
theorem Looted.congr {wreck wreck' : Ship} {es es' : Entities} (h : a.Looted wreck es es')
    (hhold : wreck.hold = wreck'.hold) (hsystem : wreck.system = wreck'.system)
    (hposition : wreck.position = wreck'.position) : a.Looted wreck' es es' := by
  have hafter := a.lootAfter_congr hhold hsystem hposition
  exact ⟨hafter _ ▸ h.loot, h.others, hafter _ ▸ h.keys⟩

theorem looted_clearUp {wreck : Ship} (h : s.entities.ship a.defender = .ok wreck)
    (husable : a.lootIdUsable s.entities = true) :
    a.Looted wreck s.entities (a.clearUp.run.run s).2.entities := by
  unfold clearUp
  simp only [run_bind, run_read, h, strip_run, settleUp_run]
  unfold salvage stripped
  simp only [husable, ↓reduceIte]
  have husable' : a.lootIdUsable (s.entities.adjustShip a.defender
      ({ · with hold := wreck.hold.emptied })) = true :=
    (a.lootIdUsable_adjustShip ..).trans husable
  exact Looted.of_adjustShip (f := ({ · with hold := wreck.hold.emptied }))
    (a.looted_leaveLoot { s with
      entities := s.entities.adjustShip a.defender ({ · with hold := wreck.hold.emptied })
      tracker := s.tracker.halt wreck.position
      stopRequests := s.stopRequests ++ [a.defender]
      credits := s.credits ++ a.bounty
        (s.entities.adjustShip a.defender ({ · with hold := wreck.hold.emptied })) wreck }
      wreck husable')

/-- A wreck whose loot would have the name of something else is left alone. -/
theorem entities_clearUp_of_not_usable {wreck : Ship} (h : s.entities.ship a.defender = .ok wreck)
    (husable : a.lootIdUsable s.entities = false) :
    (a.clearUp.run.run s).2.entities = s.entities := by
  unfold clearUp
  simp only [run_bind, run_read, h, strip_run, settleUp_run]
  unfold salvage stripped
  simp only [husable, Bool.false_eq_true, ↓reduceIte]
  rfl

/-- Clearing up leaves the cargo of the wreck behind. -/
theorem looted_teardown {wreck : Ship} (hwon : a.isWon s = true)
    (h : s.entities.ship a.defender = .ok wreck) (husable : a.lootIdUsable s.entities = true) :
    a.Looted wreck s.entities (a.teardown.run.run s).2.entities := by
  have hwreck := Entities.ship_adjustShip s.entities a.attacker ({ · with attacking := none }) h
  have hclear := a.looted_clearUp { s with entities := a.disengaged s.entities } hwreck
    ((a.lootIdUsable_adjustShip ..).trans husable)
  rw [entities_teardown, hwon, if_pos rfl]
  refine Looted.of_adjustShip (Looted.congr hclear ?_ ?_ ?_) <;> split <;> rfl

/-! ### When cargo is recovered -/

/-- What should become of the cargo of a wreck: all of it is in loot where the wreck is, and if
there is none, nothing new is there. -/
structure Recovers (es es' : Entities) (wreck : Ship) : Prop where
  cargo : 0 < wreck.hold.sum → ∃ loot, es'.loot? a.lootId = some loot ∧
    loot.position = wreck.position ∧ loot.system = wreck.system ∧
    ∀ m, loot.hold.units m =
      (es.loot? a.lootId).elim 0 (·.hold.units m) + wreck.hold.units m
  nothing : wreck.hold.sum = 0 → es'.table.keys = es.table.keys

/-- Whether the cargo can be recovered.  Loot that is there already has to be where the wreck is,
and there has to be room in it; otherwise there must not be more units than can be counted, and no
stacks without units only. -/
def CanRecover (es : Entities) (wreck : Ship) : Prop :=
  match es.loot? a.lootId with
  | some loot => 0 < wreck.hold.sum →
      loot.position = wreck.position ∧ loot.system = wreck.system ∧
      loot.hold.sum ≤ loot.hold.capacity.toNat ∧ loot.hold.sum + wreck.hold.sum ≤ 2 ^ 32 - 1
  | none => wreck.hold.sum ≤ 2 ^ 32 - 1 ∧ (wreck.hold.sum = 0 → wreck.hold.contents = [])

variable {a}

/-- Loot that is there already. -/
theorem Looted.recovers_iff_of_some {wreck : Ship} {es es' : Entities}
    (h : a.Looted wreck es es') {old : Loot} (hold : es.loot? a.lootId = some old) :
    a.Recovers es es' wreck ↔ a.CanRecover es wreck := by
  have hkeys : es'.table.keys = es.table.keys := by
    rw [h.keys, hold, if_neg (by simp), List.append_nil]
  unfold CanRecover
  simp only [hold]
  rcases Nat.eq_zero_or_pos wreck.hold.sum with hzero | hpos
  · have hnot : ¬ 0 < wreck.hold.sum := by omega
    exact ⟨fun _ hpos => absurd hpos hnot, fun _ => ⟨fun hpos => absurd hpos hnot, fun _ => hkeys⟩⟩
  · have hloot := h.loot
    rw [hold, lootAfter, if_neg (Hold.contents_ne_nil_of_pos hpos)] at hloot
    have hunits := (roomy old wreck.hold).units_addAll wreck.hold.contents
    simp only [Hold.unitsIn_contents] at hunits
    have hroom := refused_roomy_eq_nil_iff old wreck.hold
    constructor
    · intro hrecovers _
      obtain ⟨loot, hsome, hposition, hsystem, hall⟩ := hrecovers.cargo hpos
      rw [hloot] at hsome
      cases hsome
      -- the loot takes everything, so nothing is refused
      have hnil : (roomy old wreck.hold).refused wreck.hold.contents = [] := by
        rw [← Hold.unitsIn_refused_eq_zero_iff]
        intro m
        have hm := hunits m
        have hm' := hall m
        have hsame : (roomy old wreck.hold).units m = old.hold.units m := rfl
        rw [hold, Option.elim_some] at hm'
        simp only [] at hm'
        omega
      obtain hzero | ⟨hfit, htotal⟩ := hroom.mp hnil
      · omega
      · exact ⟨hposition, hsystem, hfit, htotal⟩
    · intro hcan
      obtain ⟨hposition, hsystem, hfit, htotal⟩ := hcan hpos
      refine ⟨fun _ => ⟨_, hloot, hposition, hsystem, fun m => ?_⟩, fun _ => hkeys⟩
      have hm := hunits m
      rw [hroom.mpr (.inr ⟨hfit, htotal⟩), unitsIn_nil] at hm
      rw [hold, Option.elim_some]
      exact hm

/-- New loot. -/
theorem Looted.recovers_iff_of_none {wreck : Ship} {es es' : Entities}
    (h : a.Looted wreck es es') (hnone : es.loot? a.lootId = none) :
    a.Recovers es es' wreck ↔ a.CanRecover es wreck := by
  have hfits := refused_fresh_eq_nil_iff wreck.hold
  have hkeys := h.keys
  have hloot := h.loot
  rw [hnone] at hkeys hloot
  unfold CanRecover
  simp only [hnone]
  rcases Nat.eq_zero_or_pos wreck.hold.sum with hzero | hpos
  · have hnot : ¬ 0 < wreck.hold.sum := by omega
    have hafter : (a.lootAfter none wreck).isSome = true ↔ wreck.hold.contents ≠ [] := by
      unfold lootAfter
      rw [if_pos (hfits.mpr (by omega))]
      split
      · next hnil => simp [hnil]
      · next hne => simp [hne]
    constructor
    · intro hrecovers
      refine ⟨by omega, fun _ => ?_⟩
      -- empty stacks alone make loot
      by_contra hne
      rw [hrecovers.nothing hzero, if_pos ⟨rfl, hafter.mpr hne⟩] at hkeys
      simp at hkeys
    · rintro ⟨-, hnil⟩
      refine ⟨fun hpos => absurd hpos hnot, fun _ => ?_⟩
      rw [if_neg (fun hand => hafter.mp hand.2 (hnil hzero)), List.append_nil] at hkeys
      exact hkeys
  · have hne := Hold.contents_ne_nil_of_pos hpos
    have hunits := (fresh wreck.hold).units_addAll wreck.hold.contents
    simp only [Hold.unitsIn_contents] at hunits
    have hempty : ∀ m, (fresh wreck.hold).units m = 0 := fun _ => rfl
    simp only [lootAfter, if_neg hne] at hloot
    constructor
    · intro hrecovers
      refine ⟨?_, fun hzero => by omega⟩
      obtain ⟨loot, hsome, -⟩ := hrecovers.cargo hpos
      rw [← hfits]
      by_contra hrefused
      rw [hloot, if_neg hrefused] at hsome
      cases hsome
    · rintro ⟨htotal, -⟩
      have hrefused := hfits.mpr htotal
      rw [if_pos hrefused] at hloot
      refine ⟨fun _ => ⟨_, hloot, rfl, rfl, fun m => ?_⟩, fun hzero => by omega⟩
      have hm := hunits m
      rw [hrefused, unitsIn_nil, hempty] at hm
      rw [hnone, Option.elim_none]
      exact hm

/-- Cargo is recovered if and only if it can be. -/
theorem Looted.recovers_iff {wreck : Ship} {es es' : Entities} (h : a.Looted wreck es es') :
    a.Recovers es es' wreck ↔ a.CanRecover es wreck := by
  cases hold : es.loot? a.lootId with
  | some old => exact h.recovers_iff_of_some hold
  | none => exact h.recovers_iff_of_none hold

end Attack

/-! ### Loot stays -/

/-- Loot that stays where it is and loses nothing. -/
structure Loot.Stays (l l' : Loot) : Prop where
  system : l'.system = l.system
  position : l'.position = l.position
  units : ∀ m, l.hold.units m ≤ l'.hold.units m

/-- All loot stays where it is and loses nothing. -/
def Entities.KeepsLoot (es es' : Entities) : Prop :=
  ∀ id loot, es.loot? id = some loot → ∃ loot', es'.loot? id = some loot' ∧ loot.Stays loot'

namespace Entities.KeepsLoot

variable {es es' es'' : Entities}

theorem of_eq (h : ∀ id, es'.loot? id = es.loot? id) : es.KeepsLoot es' := fun id loot hloot =>
  ⟨loot, (h id).trans hloot, rfl, rfl, fun _ => Nat.le_refl _⟩

theorem refl (es : Entities) : es.KeepsLoot es := of_eq fun _ => rfl

theorem adjustShip (id : EntityId) (f : Ship → Ship) : es.KeepsLoot (es.adjustShip id f) :=
  of_eq fun _ => loot?_adjustShip ..

theorem trans (h : es.KeepsLoot es') (h' : es'.KeepsLoot es'') : es.KeepsLoot es'' := by
  intro id loot hloot
  obtain ⟨loot', hloot', hstays⟩ := h id loot hloot
  obtain ⟨loot'', hloot'', hstays'⟩ := h' id loot' hloot'
  exact ⟨loot'', hloot'', hstays'.system.trans hstays.system,
    hstays'.position.trans hstays.position,
    fun m => Nat.le_trans (hstays.units m) (hstays'.units m)⟩

end Entities.KeepsLoot

theorem Attack.Looted.keepsLoot {a : Attack} {wreck : Ship} {es es' : Entities}
    (h : a.Looted wreck es es') : es.KeepsLoot es' := by
  intro id loot hloot
  by_cases hid : id = a.lootId
  · subst hid
    have hafter := h.loot
    rw [hloot] at hafter
    unfold lootAfter at hafter
    split at hafter
    · exact ⟨loot, hafter, rfl, rfl, fun _ => Nat.le_refl _⟩
    · exact ⟨_, hafter, rfl, rfl, (roomy loot wreck.hold).units_le_addAll _⟩
  · exact ⟨loot, (h.others id hid).trans hloot, rfl, rfl, fun _ => Nat.le_refl _⟩

/-- No hook of an attack takes anything away from loot. -/
theorem Attack.keepsLoot_hook (a : Attack) (s : Scene) (stage : Stage) :
    s.entities.KeepsLoot ((a.hook stage).run.run s).2.entities := by
  cases stage with
  | setup =>
    show s.entities.KeepsLoot (a.setup.run.run s).2.entities
    rcases a.setup_cases s with hrun | ⟨e, hrun⟩
    · rw [hrun]
      exact .adjustShip _ _
    · rw [hrun]
      exact .refl _
  | before =>
    obtain ⟨r, hrun⟩ := a.before_cases s
    show s.entities.KeepsLoot (a.before.run.run s).2.entities
    rw [hrun]
    exact .refl _
  | execute =>
    show s.entities.KeepsLoot (a.execute.run.run s).2.entities
    obtain ⟨x, d, -, -, hrun⟩ | ⟨e, hrun⟩ := a.execute_cases s
    · rw [hrun]
      exact .adjustShip _ _
    · rw [hrun]
      exact .refl _
  | after => exact .refl _
  | teardown =>
    show s.entities.KeepsLoot (a.teardown.run.run s).2.entities
    cases hwon : a.isWon s with
    | false =>
      rw [entities_teardown, hwon]
      exact .adjustShip _ _
    | true =>
      obtain ⟨wreck, hwreck⟩ := a.exists_ship_of_isWon hwon
      cases husable : a.lootIdUsable s.entities with
      | true => exact (a.looted_teardown s hwon hwreck husable).keepsLoot
      | false =>
        have hclear := a.entities_clearUp_of_not_usable
          { s with entities := a.disengaged s.entities }
          (Entities.ship_adjustShip s.entities a.attacker _ hwreck)
          ((a.lootIdUsable_adjustShip ..).trans husable)
        rw [entities_teardown, hwon, if_pos rfl, hclear]
        exact .adjustShip _ _
  | stop =>
    show s.entities.KeepsLoot (a.stop.run.run s).2.entities
    rw [a.stop_run s]
    split
    · exact .adjustShip _ _
    · exact .refl _

/-- No hook of a mining run touches loot. -/
theorem Mining.keepsLoot_hook (m : Mining) (s : Scene) (stage : Stage) :
    s.entities.KeepsLoot ((m.hook stage).run.run s).2.entities := by
  cases stage with
  | setup =>
    show s.entities.KeepsLoot (m.setup.run.run s).2.entities
    rcases m.setup_cases s with hrun | ⟨e, hrun⟩
    · rw [hrun]
      exact .adjustShip _ _
    · rw [hrun]
      exact .refl _
  | before | after => exact .refl _
  | execute =>
    show s.entities.KeepsLoot (m.execute.run.run s).2.entities
    obtain ⟨r, hrun⟩ | ⟨x, d, hold, -, -, -, hrun⟩ := m.execute_cases s
    · rw [hrun]
      exact .refl _
    · rw [hrun]
      have hdeposits : s.entities.KeepsLoot (m.debited s.entities (haul x d)) :=
        .of_eq fun _ => Entities.loot?_adjustDeposit ..
      exact hdeposits.trans (.adjustShip _ _)
  | teardown => exact .adjustShip _ _
  | stop =>
    show s.entities.KeepsLoot (m.stop.run.run s).2.entities
    rw [m.stop_run s]
    split
    · exact .adjustShip _ _
    · exact .refl _

end Orrery
