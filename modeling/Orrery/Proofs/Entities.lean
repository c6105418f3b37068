import Orrery.Entity.Collection
import Orrery.Proofs.Table

/-!
# Look-up among entities

The operations on the collection of entities in terms of `get?`, and what remains of an entity if
one looks only at what commands decide by: the `Outline` of a ship is whether it is alive, what it
attacks and mines, and who destroyed it; of a deposit nothing but its being there.  Material,
listeners and shields do not show in outlines.
-/

namespace Orrery

/-- What commands decide by. -/
inductive Outline where
  /-- A ship. -/
  | ship (live : Bool) (attacking mining destroyedBy : Option EntityId)
  /-- A deposit. -/
  | deposit
deriving DecidableEq

namespace Outline

/-- Whether it is that of a ship. -/
def isShip : Outline → Bool
  | ship .. => true
  | deposit => false

/-- Whether it is that of a ship with hit points. -/
def isLive : Outline → Bool
  | ship live .. => live
  | deposit => false

/-- Whether it is that of a ship that `id` destroyed. -/
def isWreckOf (id : EntityId) : Outline → Bool
  | ship live _ _ destroyedBy => !live && destroyedBy == some id
  | deposit => false

/-- The ship that a ship attacks. -/
def attacking? : Outline → Option EntityId
  | ship _ attacking _ _ => attacking
  | deposit => none

/-- The deposit that a ship mines. -/
def mining? : Outline → Option EntityId
  | ship _ _ mining _ => mining
  | deposit => none

/-- Another ship to attack. -/
def attack (target : Option EntityId) : Outline → Outline
  | ship live _ mining destroyedBy => ship live target mining destroyedBy
  | deposit => deposit

/-- Another deposit to mine. -/
def mine (target : Option EntityId) : Outline → Outline
  | ship live attacking _ destroyedBy => ship live attacking target destroyedBy
  | deposit => deposit

/-- A ship without hit points, and who destroyed it. -/
def destroy (id : EntityId) : Outline → Outline
  | ship _ attacking mining _ => ship false attacking mining (some id)
  | deposit => deposit

@[simp] theorem isShip_attack (target : Option EntityId) (o : Outline) :
    (o.attack target).isShip = o.isShip := by cases o <;> rfl

@[simp] theorem isLive_attack (target : Option EntityId) (o : Outline) :
    (o.attack target).isLive = o.isLive := by cases o <;> rfl

@[simp] theorem isWreckOf_attack (id : EntityId) (target : Option EntityId) (o : Outline) :
    (o.attack target).isWreckOf id = o.isWreckOf id := by cases o <;> rfl

@[simp] theorem isLive_mine (target : Option EntityId) (o : Outline) :
    (o.mine target).isLive = o.isLive := by cases o <;> rfl

@[simp] theorem isShip_destroy (id : EntityId) (o : Outline) :
    (o.destroy id).isShip = o.isShip := by cases o <;> rfl

theorem isLive_destroy (id : EntityId) (o : Outline) : (o.destroy id).isLive = false := by
  cases o <;> rfl

theorem isWreckOf_destroy {id : EntityId} {o : Outline} (h : o.isShip = true) :
    (o.destroy id).isWreckOf id = true := by
  cases o with
  | ship => simp [destroy, isWreckOf]
  | deposit => cases h

theorem isWreckOf_of_isLive {o : Outline} (h : o.isLive = true) (id : EntityId) :
    o.isWreckOf id = false := by
  cases o with
  | ship live =>
    cases h
    rfl
  | deposit => cases h

theorem isShip_of_isLive {o : Outline} (h : o.isLive = true) : o.isShip = true := by
  cases o with
  | ship => rfl
  | deposit => cases h

end Outline

/-- Outlines in which that of one entity is changed, if `cond` is true. -/
def reviseIf (cond : Bool) (id : EntityId) (f : Outline → Outline)
    (o : EntityId → Option Outline) : EntityId → Option Outline :=
  fun j => if cond = true ∧ j = id then (o j).map f else o j

@[simp] theorem reviseIf_false (id : EntityId) (f : Outline → Outline)
    (o : EntityId → Option Outline) : reviseIf false id f o = o := by
  funext j
  simp [reviseIf]

theorem reviseIf_true_self (id : EntityId) (f : Outline → Outline) (o : EntityId → Option Outline) :
    reviseIf true id f o id = (o id).map f := by simp [reviseIf]

/-- What a change of outlines respects can be tested before as well as after it. -/
theorem any_reviseIf {p : Outline → Bool} {f : Outline → Outline} (hf : ∀ x, p (f x) = p x)
    (cond : Bool) (id : EntityId) (o : EntityId → Option Outline) (j : EntityId) :
    (reviseIf cond id f o j).any p = (o j).any p := by
  unfold reviseIf
  split
  · cases o j <;> simp [hf]
  · rfl

theorem any_isLive_destroyed (cond : Bool) (victim id : EntityId) (o : EntityId → Option Outline)
    (j : EntityId) : (reviseIf cond victim (·.destroy id) o j).any Outline.isLive =
      ((o j).any Outline.isLive && !(cond && j == victim)) := by
  unfold reviseIf
  by_cases h : cond = true ∧ j = victim
  · rw [if_pos h]
    cases o j with
    | none => rfl
    | some x => simp [Outline.isLive_destroy, h.1, h.2]
  · rw [if_neg h]
    have hcond : (cond && j == victim) = false := by
      simpa using h
    rw [hcond, Bool.not_false, Bool.and_true]

/-- The outline of a ship. -/
def Ship.outline (s : Ship) : Outline := .ship s.alive s.attacking s.mining s.destroyedBy

/-- The outline of an entity that has one. -/
def Entity.outline? : Entity → Option Outline
  | ship s => some s.outline
  | deposit _ => some .deposit
  | station _ | loot _ => none

namespace Entities

variable {es : Entities} {id : EntityId}

/-! ### Look-up -/

theorem get?_adjust (es : Entities) (id : EntityId) (f : Entity → Entity) (j : EntityId) :
    (es.adjust id f).get? j = if j = id then (es.get? j).map f else es.get? j :=
  es.table.get?_modify id f j

theorem get?_erase (es : Entities) (id j : EntityId) :
    (es.erase id).get? j = if j = id then none else es.get? j := es.table.get?_erase id j

theorem get?_of_add {e : Entity} {es' : Entities} (h : es.add e = .ok es') :
    es.get? e.id = none ∧ ∀ j, es'.get? j = if j = e.id then some e else es.get? j := by
  unfold add at h
  split at h
  · cases h
  · next hfree =>
    cases h
    rw [Bool.not_eq_true] at hfree
    exact ⟨Table.contains_eq_false_iff.mp hfree, es.table.get?_insert e.id e⟩

theorem ship_eq_ok {s : Ship} : es.ship id = .ok s ↔ es.get? id = some (.ship s) := by
  unfold ship require
  cases hget : es.get? id with
  | none => simp [bind, Except.bind]
  | some e => cases e <;> simp [bind, Except.bind, Entity.ship?, pure, Except.pure, throw, throwThe,
      MonadExceptOf.throw]

theorem deposit_eq_ok {d : Deposit} : es.deposit id = .ok d ↔ es.get? id = some (.deposit d) := by
  unfold deposit require
  cases hget : es.get? id with
  | none => simp [bind, Except.bind]
  | some e => cases e <;> simp [bind, Except.bind, Entity.deposit?, pure, Except.pure, throw,
      throwThe, MonadExceptOf.throw]

/-! ### Outlines -/

/-- The outline of the entity of this name, if it has one. -/
def outline? (es : Entities) (id : EntityId) : Option Outline := (es.get? id).bind Entity.outline?

theorem outline?_of_ship {s : Ship} (h : es.ship id = .ok s) : es.outline? id = some s.outline := by
  rw [outline?, ship_eq_ok.mp h]
  rfl

/-- No ship of this name shows in the outline either. -/
theorem outline?_of_error {e : RegistryError} (h : es.ship id = .error e) :
    ∀ o, es.outline? id = some o → o = .deposit := by
  intro o ho
  unfold outline? at ho
  cases hget : es.get? id with
  | none =>
    rw [hget] at ho
    cases ho
  | some x =>
    cases x with
    | ship s =>
      rw [ship_eq_ok.mpr hget] at h
      cases h
    | station _ | loot _ =>
      rw [hget] at ho
      cases ho
    | deposit d =>
      rw [hget] at ho
      cases ho
      rfl

theorem outline?_of_deposit {d : Deposit} (h : es.deposit id = .ok d) :
    es.outline? id = some .deposit := by
  rw [outline?, deposit_eq_ok.mp h]
  rfl

theorem exists_ship_of_isLive (h : (es.outline? id).any Outline.isLive = true) :
    ∃ s, es.ship id = .ok s ∧ s.alive = true := by
  obtain ⟨o, ho, hlive⟩ := (Option.any_eq_true ..).mp h
  cases hship : es.ship id with
  | ok s =>
    rw [outline?_of_ship hship] at ho
    cases ho
    exact ⟨s, rfl, hlive⟩
  | error e =>
    rw [outline?_of_error hship o ho] at hlive
    cases hlive

theorem exists_deposit_of_outline (h : (es.outline? id).any (· == .deposit) = true) :
    ∃ d, es.deposit id = .ok d := by
  obtain ⟨o, ho, hdeposit⟩ := (Option.any_eq_true ..).mp h
  rw [beq_iff_eq] at hdeposit
  subst hdeposit
  unfold outline? at ho
  obtain ⟨e, he, hout⟩ := Option.bind_eq_some_iff.mp ho
  cases e with
  | ship s => cases hout
  | station _ | loot _ => cases hout
  | deposit d => exact ⟨d, deposit_eq_ok.mpr he⟩

/-- A change that does not show in the outline. -/
theorem outline?_adjust_eq {f : Entity → Entity}
    (h : ∀ e, es.get? id = some e → (f e).outline? = e.outline?) :
    (es.adjust id f).outline? = es.outline? := by
  funext j
  unfold outline?
  rw [get?_adjust]
  split
  · next hj =>
    rw [hj]
    cases he : es.get? id with
    | none => rfl
    | some e => exact h e he
  · rfl

/-- A change of a ship shows in its outline and nowhere else. -/
theorem outline?_adjustShip {f : Ship → Ship} {g : Outline → Outline}
    (hship : ∀ s, (f s).outline = g s.outline) (hdeposit : g .deposit = .deposit) :
    (es.adjustShip id f).outline? = reviseIf true id g es.outline? := by
  funext j
  show ((es.adjust id (·.mapShip f)).get? j).bind Entity.outline? =
    if true = true ∧ j = id then ((es.get? j).bind Entity.outline?).map g
    else (es.get? j).bind Entity.outline?
  rw [get?_adjust]
  by_cases hj : j = id
  · rw [if_pos hj, if_pos ⟨rfl, hj⟩]
    cases es.get? j with
    | none => rfl
    | some e => cases e <;> simp [Entity.mapShip, Entity.outline?, hship, hdeposit]
  · rw [if_neg hj, if_neg fun h => hj h.2]

/-- A change of a ship that does not show in its outline. -/
theorem outline?_adjustShip_eq {f : Ship → Ship} (h : ∀ s, (f s).outline = s.outline) :
    (es.adjustShip id f).outline? = es.outline? :=
  outline?_adjust_eq fun e _ => by
    cases e with
    | ship s => exact congrArg some (h s)
    | station _ | loot _ | deposit _ => rfl

theorem outline?_adjustDeposit (f : Deposit → Deposit) :
    (es.adjustDeposit id f).outline? = es.outline? :=
  outline?_adjust_eq fun e _ => by cases e <;> rfl

theorem outline?_putEvents (es : Entities) (id : EntityId) (events : EventTable) :
    (es.putEvents id events).outline? = es.outline? :=
  outline?_adjust_eq fun e _ => by cases e <;> rfl

theorem outline?_putHold (es : Entities) (id : EntityId) (h : Hold) :
    (es.putHold id h).outline? = es.outline? :=
  outline?_adjust_eq fun e _ => by cases e <;> rfl

theorem outline?_of_add {e : Entity} {es' : Entities} (h : es.add e = .ok es') (j : EntityId) :
    es'.outline? j = if j = e.id then e.outline? else es.outline? j := by
  unfold outline?
  rw [(get?_of_add h).2]
  split <;> rfl

theorem outline?_erase (es : Entities) (id j : EntityId) :
    (es.erase id).outline? j = if j = id then none else es.outline? j := by
  unfold outline?
  rw [get?_erase]
  split <;> rfl

end Entities

end Orrery
