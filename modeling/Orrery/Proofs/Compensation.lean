import Orrery.Proofs.Bag
import Orrery.Proofs.Handover

/-!
# Moving material without a check beforehand

`Registry.moveMaterial` credits one hold before it knows whether the other one can be debited, so
where the debit fails it has to take the credit back.  That never fails, and it leaves the holds as
they were, but for one thing: a stack of no units that was there beforehand is dropped
(`Registry.changeHold_undo`).  No count of units shows that.

Whatever happens, the entities are the same when their holds are unloaded (`Entities.unloaded`), so
only contents can change, and these are accounted for entity by entity and material by material
(`Entities.unitsOf`).
-/

namespace Orrery

/-! ### Tables -/

namespace Table

variable {κ α : Type} [DecidableEq κ]

theorem modify_modify (t : Table κ α) (k : κ) (f g : α → α) :
    (t.modify k f).modify k g = t.modify k fun v => g (f v) := by
  refine ext_entries ?_
  simp only [modify, List.map_map]
  refine List.map_congr_left fun e _ => ?_
  by_cases he : e.1 = k <;> simp [he]

theorem modify_of_fixed {t : Table κ α} {k : κ} {f : α → α} (h : ∀ v, t.get? k = some v → f v = v) :
    t.modify k f = t := by
  rw [modify_congr (g := id) h]
  refine ext_entries ((List.map_congr_left fun e _ => ?_).trans (List.map_id _))
  split <;> rfl

/-- What has come last can be removed again. -/
theorem erase_insert_of_get?_none {t : Table κ α} {k : κ} (h : t.get? k = none) (v : α) :
    (t.insert k v).erase k = t := by
  have hne : ∀ e ∈ t.entries, e.1 ≠ k := by
    rintro ⟨j, w⟩ he rfl
    rw [get?_eq_some_iff.mpr he] at h
    cases h
  apply ext_entries
  show (t.insert k v).entries.filter (fun e => e.1 ≠ k) = t.entries
  rw [insert_of_get?_none h, List.filter_append]
  simpa [List.filter_eq_self] using hne

end Table

/-! ### Holds -/

namespace Hold

variable {h h' : Hold} {m : String} {q : UInt32}

/-- Without the stack of a material, if there are no units in it. -/
def tidied (h : Hold) (m : String) : Hold :=
  if h.amounts.get? m = some 0 then { h with amounts := h.amounts.erase m } else h

theorem capacity_tidied (h : Hold) (m : String) : (h.tidied m).capacity = h.capacity := by
  unfold tidied
  split <;> rfl

theorem units_tidied (h : Hold) (m m' : String) : (h.tidied m).units m' = h.units m' := by
  unfold tidied
  split
  · next hempty =>
    rw [units_eq, units_eq, Table.get?_erase]
    by_cases hm : m' = m
    · rw [if_pos hm, hm, hempty]
      rfl
    · rw [if_neg hm]
  · rfl

/-- What has just been added can be removed again. -/
theorem remove_of_add (hadd : h.add m q = .ok h') : h'.remove m q = .ok (h.tidied m) := by
  have hlt := toNat_add_lt hadd
  unfold add at hadd
  split at hadd
  swap
  · cases hadd
  cases hadd
  have hheld : ({ h with amounts := h.amounts.insert m (h.quantityOf m + q) } : Hold).quantityOf m =
      h.quantityOf m + q := by
    rw [quantityOf, Table.get?_insert, if_pos rfl]
    rfl
  -- the sum does not wrap around, so it is the quantity only if there was nothing before
  have hle : ¬h.quantityOf m + q < q := by
    rw [UInt32.not_lt, UInt32.le_iff_toNat_le, UInt32.toNat_add, Nat.mod_eq_of_lt hlt]
    omega
  have heq : h.quantityOf m + q = q ↔ h.quantityOf m = 0 := by
    rw [← UInt32.toNat_inj, ← UInt32.toNat_inj, UInt32.toNat_add, Nat.mod_eq_of_lt hlt]
    show _ ↔ _ = 0
    omega
  unfold remove tidied
  simp only [hheld, if_neg hle, heq]
  unfold quantityOf
  cases hget : h.amounts.get? m with
  | none =>
    rw [if_pos (by rfl), if_neg (Option.some_ne_none _).symm, Table.erase_insert_of_get?_none hget]
  | some v =>
    simp only [Option.getD_some, Option.some.injEq]
    rw [Table.insert_of_get?_some hget]
    split
    · congr 2
      apply Table.ext_entries
      exact Table.erase_modify ..
    · rw [Table.modify_modify, Table.modify_of_fixed]
      intro w hw
      obtain rfl := Option.some.inj (hget.symm.trans hw)
      exact UInt32.add_sub_cancel v q

end Hold

/-! ### Entities -/

/-- With nothing in its hold. -/
def Entity.unloaded (e : Entity) : Entity :=
  match e.hold? with
  | some hold => e.withHold hold.emptied
  | none => e

theorem Entity.unloaded_withHold {e : Entity} {hold hold' : Hold} (h : e.hold? = some hold)
    (hcapacity : hold'.capacity = hold.capacity) : (e.withHold hold').unloaded = e.unloaded := by
  have hemptied : hold'.emptied = hold.emptied := by
    rw [Hold.emptied, Hold.emptied, hcapacity]
  cases e with
  | ship | station | loot =>
    cases h
    simp only [unloaded, hold?, withHold, hemptied]
  | deposit => cases h

theorem Entity.withHold_withHold (e : Entity) (hold hold' : Hold) :
    (e.withHold hold).withHold hold' = e.withHold hold' := by
  cases e <;> rfl

namespace Entities

variable {es : Entities} {id : EntityId} {hold hold' : Hold}

/-- With nothing in any hold.  What is left is which entities there are, in which order, and all
that is known of them but for the contents of their holds. -/
def unloaded (es : Entities) : Entities := ⟨es.table.map fun _ => Entity.unloaded⟩

/-- Units of a material that an entity holds, or yields if it is a deposit. -/
def unitsOf (es : Entities) (id : EntityId) (material : String) : Nat :=
  ((es.get? id).map (Entity.units material)).getD 0

/-- Without the stack of a material in one hold, if there are no units in it. -/
def tidied (es : Entities) (id : EntityId) (material : String) : Entities :=
  match es.hold id with
  | .ok hold => es.putHold id (hold.tidied material)
  | .error _ => es

theorem unitsOf_of_hold (h : es.hold id = .ok hold) (material : String) :
    es.unitsOf id material = hold.units material := by
  obtain ⟨e, hget, hhold⟩ := hold_eq_ok.mp h
  rw [unitsOf, hget]
  exact (Entity.units_of_hold? hhold material).1

theorem hold_putHold_of_ne {j : EntityId} (hj : j ≠ id) (es : Entities) (hold : Hold) :
    (es.putHold id hold).hold j = es.hold j := by
  unfold Entities.hold require
  rw [putHold, get?_adjust, if_neg hj]

theorem unitsOf_putHold (h : es.hold id = .ok hold) (hold' : Hold) (j : EntityId)
    (material : String) :
    (es.putHold id hold').unitsOf j material =
      if j = id then hold'.units material else es.unitsOf j material := by
  split
  · next hj =>
    rw [hj]
    exact unitsOf_of_hold (hold_putHold h hold') material
  · next hj => rw [unitsOf, putHold, get?_adjust, if_neg hj, unitsOf]

theorem unloaded_putHold (h : es.hold id = .ok hold) (hcapacity : hold'.capacity = hold.capacity) :
    (es.putHold id hold').unloaded = es.unloaded := by
  obtain ⟨e, hget, hhold⟩ := hold_eq_ok.mp h
  refine congrArg Entities.mk (Table.map_modify_eq _ _ fun e' he' => ?_)
  obtain rfl := Option.some.inj (hget.symm.trans he')
  exact Entity.unloaded_withHold hhold hcapacity

theorem putHold_putHold (es : Entities) (id : EntityId) (hold hold' : Hold) :
    (es.putHold id hold).putHold id hold' = es.putHold id hold' := by
  refine congrArg Entities.mk ((Table.modify_modify ..).trans ?_)
  simp only [Entity.withHold_withHold]

theorem unloaded_tidied (es : Entities) (id : EntityId) (material : String) :
    (es.tidied id material).unloaded = es.unloaded := by
  unfold tidied
  cases h : es.hold id with
  | error e => rfl
  | ok hold => exact unloaded_putHold h (hold.capacity_tidied material)

theorem unitsOf_tidied (es : Entities) (id : EntityId) (material : String) :
    (es.tidied id material).unitsOf = es.unitsOf := by
  unfold tidied
  cases h : es.hold id with
  | error e => rfl
  | ok hold =>
    ext j m
    show (es.putHold id (hold.tidied material)).unitsOf j m = es.unitsOf j m
    rw [unitsOf_putHold h, Hold.units_tidied]
    split
    · next hj => rw [hj, unitsOf_of_hold h]
    · rfl

end Entities

/-! ### Credit and debit -/

/-- What it takes for a hold to be credited and another one, or the same one, to be debited. -/
def Entities.MayMove (es : Entities) (src dst : EntityId) (material : String)
    (quantity : UInt32) : Prop :=
  ∃ given taken, es.hold src = .ok given ∧ es.hold dst = .ok taken ∧
    (quantity.toNat = 0 ∨ taken.sum + quantity.toNat ≤ taken.capacity.toNat) ∧
    (src ≠ dst → quantity.toNat ≤ given.units material)

namespace Registry

variable {es es' credited : Entities} {id src dst : EntityId} {material : String}
  {quantity : UInt32}

theorem changeHold_credit (h : changeHold es id (·.add material quantity) = .ok es') :
    es'.unloaded = es.unloaded ∧
      ∀ j m, es'.unitsOf j m =
        es.unitsOf j m + if j = id ∧ m = material then quantity.toNat else 0 := by
  obtain ⟨hold, hold', hhold, hadd, rfl⟩ := changeHold_eq_ok h
  obtain ⟨hcapacity, -, hunits, -⟩ := Hold.add_spec hadd
  refine ⟨Entities.unloaded_putHold hhold hcapacity, fun j m => ?_⟩
  rw [Entities.unitsOf_putHold hhold, hunits]
  by_cases hj : j = id
  · subst hj
    simp [Entities.unitsOf_of_hold hhold, eq_comm]
  · simp [hj]

theorem changeHold_debit (h : changeHold es id (·.remove material quantity) = .ok es') :
    es'.unloaded = es.unloaded ∧
      ∀ j m, es'.unitsOf j m + (if j = id ∧ m = material then quantity.toNat else 0) =
        es.unitsOf j m := by
  obtain ⟨hold, hold', hhold, hremove, rfl⟩ := changeHold_eq_ok h
  refine ⟨Entities.unloaded_putHold hhold (Hold.capacity_remove hremove), fun j m => ?_⟩
  have hunits := Hold.remove_spec hremove m
  rw [Entities.unitsOf_putHold hhold]
  by_cases hj : j = id
  · subst hj
    simpa [Entities.unitsOf_of_hold hhold, eq_comm] using hunits
  · simp [hj]

/-- A credit can be taken back. -/
theorem changeHold_undo (h : changeHold es id (·.add material quantity) = .ok credited) :
    changeHold credited id (·.remove material quantity) = .ok (es.tidied id material) := by
  obtain ⟨hold, hold', hhold, hadd, rfl⟩ := changeHold_eq_ok h
  rw [changeHold_of_ok (Entities.hold_putHold hhold hold') (Hold.remove_of_add hadd),
    Entities.putHold_putHold, Entities.tidied, hhold]

/-- After the credit the debit succeeds if and only if the giver has enough, or is the taker. -/
theorem exists_moved_iff (h : changeHold es dst (·.add material quantity) = .ok credited) :
    (∃ moved, changeHold credited src (·.remove material quantity) = .ok moved) ↔
      ∃ given, es.hold src = .ok given ∧ (src ≠ dst → quantity.toNat ≤ given.units material) := by
  by_cases hne : src = dst
  · subst hne
    obtain ⟨hold, -, hhold, -, -⟩ := changeHold_eq_ok h
    constructor
    · intro
      exact ⟨hold, hhold, fun hne => absurd rfl hne⟩
    · intro
      exact ⟨_, changeHold_undo h⟩
  · obtain ⟨hold, hold', -, -, rfl⟩ := changeHold_eq_ok h
    constructor
    · rintro ⟨moved, hmoved⟩
      obtain ⟨given, given', hgiven, hremove, -⟩ := changeHold_eq_ok hmoved
      rw [Entities.hold_putHold_of_ne hne] at hgiven
      have hunits := Hold.remove_spec hremove material
      rw [if_pos rfl] at hunits
      exact ⟨given, hgiven, fun _ => by omega⟩
    · rintro ⟨given, hgiven, henough⟩
      obtain ⟨given', hremove⟩ := Hold.exists_remove (henough hne)
      exact ⟨_, changeHold_of_ok ((Entities.hold_putHold_of_ne hne ..).trans hgiven) hremove⟩

theorem exists_credited_iff :
    (∃ credited, changeHold es dst (·.add material quantity) = .ok credited) ↔
      ∃ taken, es.hold dst = .ok taken ∧
        (quantity.toNat = 0 ∨ taken.sum + quantity.toNat ≤ taken.capacity.toNat) := by
  constructor
  · rintro ⟨credited, h⟩
    obtain ⟨taken, taken', htaken, hadd, -⟩ := changeHold_eq_ok h
    exact ⟨taken, htaken, (Hold.add_spec hadd).2.2.2⟩
  · rintro ⟨taken, htaken, hroom⟩
    obtain ⟨taken', hadd⟩ := Hold.exists_add material hroom
    exact ⟨_, changeHold_of_ok htaken hadd⟩

/-- The three ways in which a move can go. -/
theorem moveMaterial_cases (es : Entities) (src dst : EntityId) (material : String)
    (quantity : UInt32) :
    (∃ e, moveMaterial es src dst material quantity = (.error e, es) ∧
      ¬es.MayMove src dst material quantity) ∨
    (∃ e, moveMaterial es src dst material quantity = (.error e, es.tidied dst material) ∧
      ¬es.MayMove src dst material quantity) ∨
    ∃ credited moved, moveMaterial es src dst material quantity = (.ok (), moved) ∧
      changeHold es dst (·.add material quantity) = .ok credited ∧
      changeHold credited src (·.remove material quantity) = .ok moved ∧
      es.MayMove src dst material quantity := by
  cases hcredited : changeHold es dst (·.add material quantity) with
  | error e =>
    refine .inl ⟨e, by simp only [moveMaterial, hcredited], ?_⟩
    rintro ⟨given, taken, -, htaken, hroom, -⟩
    obtain ⟨credited, hok⟩ := exists_credited_iff.mpr ⟨taken, htaken, hroom⟩
    cases hcredited.symm.trans hok
  | ok credited =>
    right
    cases hmoved : changeHold credited src (·.remove material quantity) with
    | error e =>
      refine .inl ⟨e, by simp only [moveMaterial, hcredited, hmoved, changeHold_undo hcredited], ?_⟩
      rintro ⟨given, taken, hgiven, -, -, henough⟩
      obtain ⟨moved, hok⟩ := (exists_moved_iff hcredited).mpr ⟨given, hgiven, henough⟩
      cases hmoved.symm.trans hok
    | ok moved =>
      obtain ⟨given, hgiven, henough⟩ := (exists_moved_iff hcredited).mp ⟨moved, hmoved⟩
      obtain ⟨taken, htaken, hroom⟩ := exists_credited_iff.mp ⟨credited, hcredited⟩
      exact .inr ⟨credited, moved, by simp only [moveMaterial, hcredited, hmoved], rfl, hmoved,
        given, taken, hgiven, htaken, hroom, henough⟩

/-- Material is moved as a whole or not at all, whether or not anyone has looked beforehand if it
can be moved.  It can if the taker has room for it, and the giver has it or is the taker.  Then the
giver has lost exactly that much and the taker has gained it; otherwise no count of units has
changed.  What is known of the entities besides, their capacities included, stays as it is.  The
credit that precedes a failing debit is taken back without fail, and then all that may be missing
from the entities as they were is a stack without units. -/
theorem moveMaterial_exact (es : Entities) (src dst : EntityId) (material : String)
    (quantity : UInt32) :
    let (outcome, after) := moveMaterial es src dst material quantity
    (outcome = .ok () ↔ es.MayMove src dst material quantity) ∧
    after.unloaded = es.unloaded ∧
    (∀ e, outcome = .error e →
      (∀ id m, after.unitsOf id m = es.unitsOf id m) ∧
      (after = es ∨ after = es.tidied dst material)) ∧
    (outcome = .ok () → src ≠ dst →
      ∀ id m, after.unitsOf id m + (if id = src ∧ m = material then quantity.toNat else 0) =
        es.unitsOf id m + if id = dst ∧ m = material then quantity.toNat else 0) ∧
    (outcome = .ok () → src = dst → ∀ id m, after.unitsOf id m = es.unitsOf id m) ∧
    (∀ credited, changeHold es dst (·.add material quantity) = .ok credited →
      changeHold credited dst (·.remove material quantity) = .ok (es.tidied dst material)) := by
  obtain ⟨e, hmove, hnot⟩ | ⟨e, hmove, hnot⟩ | ⟨credited, moved, hmove, hcredited, hmoved, hmay⟩ :=
    moveMaterial_cases es src dst material quantity
  all_goals rw [hmove]
  · refine ⟨⟨nofun, fun h => absurd h hnot⟩, rfl, fun _ _ => ⟨fun _ _ => rfl, .inl rfl⟩, nofun,
      nofun, fun _ => changeHold_undo⟩
  · refine ⟨⟨nofun, fun h => absurd h hnot⟩, es.unloaded_tidied dst material,
      fun _ _ => ⟨?_, .inr rfl⟩, nofun, nofun, fun _ => changeHold_undo⟩
    intro id m
    rw [es.unitsOf_tidied]
  · obtain ⟨hunloaded, hcredit⟩ := changeHold_credit hcredited
    obtain ⟨hunloaded', hdebit⟩ := changeHold_debit hmoved
    have hbalance : ∀ id m,
        moved.unitsOf id m + (if id = src ∧ m = material then quantity.toNat else 0) =
          es.unitsOf id m + if id = dst ∧ m = material then quantity.toNat else 0 := by
      intro id m
      rw [hdebit, hcredit]
    refine ⟨⟨fun _ => hmay, fun _ => rfl⟩, hunloaded'.trans hunloaded, nofun, fun _ _ => hbalance,
      ?_, fun _ => changeHold_undo⟩
    rintro - rfl id m
    exact Nat.add_right_cancel (hbalance id m)

end Registry

end Orrery
