import Orrery.Proofs.SilentWorld
import Orrery.Proofs.Supply

/-!
# Handing material over

What it takes to hand material over, said in terms of natural numbers (`World.MayTransfer`), and
what it comes to (`Entities.Handover`): the amount goes from one hold to the other, and nothing else
changes.  The checks beforehand ask for exactly that (`Registry.checkTransfer_eq_ok_iff`), so after
them neither the credit nor the debit can fail (`Registry.exists_moved`), and a transfer happens as
a whole or not at all (`World.transfer_exact`).

Amounts are added in 32-bit words, and a hold may contain more than its capacity.  Neither matters:
what fits into a hold that is not full is in range, and into another one nothing fits.
-/

namespace Orrery

variable {κ ε : Type}

/-! ### Holds -/

namespace Hold

/-- At most the stack of one material is another one. -/
structure Differs (h h' : Hold) (material : String) : Prop where
  /-- The same space. -/
  capacity : h'.capacity = h.capacity
  /-- The same stacks of all other materials. -/
  others : ∀ m, m ≠ material → h'.amounts.get? m = h.amounts.get? m

variable {h h' : Hold} {material : String} {quantity : UInt32}

theorem differs_of_add (hadd : h.add material quantity = .ok h') : h.Differs h' material := by
  unfold add at hadd
  split at hadd
  · cases hadd
    refine ⟨rfl, fun m hm => ?_⟩
    rw [Table.get?_insert, if_neg hm]
  · cases hadd

theorem differs_of_remove (hremove : h.remove material quantity = .ok h') :
    h.Differs h' material := by
  unfold remove at hremove
  simp only [] at hremove
  split at hremove
  · cases hremove
  · split at hremove
    · cases hremove
      refine ⟨rfl, fun m hm => ?_⟩
      rw [Table.get?_erase, if_neg hm]
    · cases hremove
      refine ⟨rfl, fun m hm => ?_⟩
      rw [Table.get?_modify, if_neg hm]

end Hold

/-! ### What it takes -/

/-- A ship or a station, how far it hands material over, and its hold. -/
inductive Entity.Trades : Entity → Float → Hold → Prop
  | ship (s : Ship) : Trades (.ship s) s.transferDistance s.hold
  | station (s : Station) : Trades (.station s) s.transferDistance s.hold

theorem Entity.trade?_eq_some_iff {e : Entity} {range : Float} {hold : Hold} :
    e.trade? = some (range, hold) ↔ e.Trades range hold := by
  constructor
  · intro h
    cases e with
    | ship s =>
      cases h
      exact .ship s
    | station s =>
      cases h
      exact .station s
    | loot l => cases h
    | deposit d => cases h
  · rintro (s | s) <;> rfl

theorem Entity.Trades.hold? {e : Entity} {range : Float} {hold : Hold} (h : e.Trades range hold) :
    e.hold? = some hold := by
  cases h <;> rfl

/-- What it takes for `s` to hand material over to `d`. -/
structure Entity.MayGive (s d : Entity) (coordinates : Lookup) (material : String)
    (quantity : UInt32) (range : Float) (given taken : Hold) : Prop where
  /-- The giver is a ship or a station. -/
  giver : s.Trades range given
  /-- The taker is a ship or a station. -/
  taker : ∃ range', d.Trades range' taken
  /-- Both are in the same system. -/
  system : s.system = d.system
  /-- Both are tracked, the taker within reach of the giver. -/
  near : ∃ a b, coordinates s.position = some a ∧ coordinates d.position = some b ∧
    Scalar.le (a.distance b) range = true
  /-- There is something to be handed over. -/
  something : 0 < quantity.toNat
  /-- The giver has it. -/
  enough : quantity.toNat ≤ given.units material
  /-- The taker has room for it. -/
  room : taken.sum + quantity.toNat ≤ taken.capacity.toNat

/-- What it takes for material to be handed over. -/
def Entities.MayTransfer (es : Entities) (coordinates : Lookup) (src dst : EntityId)
    (material : String) (quantity : UInt32) : Prop :=
  src ≠ dst ∧ ∃ s d range given taken, es.get? src = some s ∧ es.get? dst = some d ∧
    s.MayGive d coordinates material quantity range given taken

/-- What it takes for material to be handed over in a world. -/
def World.MayTransfer (w : World κ ε) (src dst : EntityId) (material : String)
    (quantity : UInt32) : Prop :=
  w.registry.poisoned = false ∧
    w.registry.entities.MayTransfer w.tracker.coordinatesOf src dst material quantity

theorem Entities.require_eq_ok {es : Entities} {id : EntityId} {e : Entity} :
    es.require id = .ok e ↔ es.get? id = some e := by
  unfold require
  cases es.get? id with
  | none => simp
  | some e' => simp

namespace Registry

variable {es : Entities} {coordinates : Lookup} {src dst : EntityId} {material : String}
  {quantity : UInt32}

/-- The checks before a transfer ask for exactly what it takes. -/
theorem checkTransfer_eq_ok_iff :
    checkTransfer es coordinates src dst material quantity = .ok () ↔
      es.MayTransfer coordinates src dst material quantity := by
  have hzero : quantity = 0 ↔ quantity.toNat = 0 := UInt32.toNat_inj.symm
  constructor
  · intro h
    simp only [checkTransfer, bind, Except.bind, throw, throwThe, MonadExceptOf.throw, pure,
      Except.pure] at h
    -- every check that fails ends in an error, so none of them has failed
    split at h
    · cases h
    next s hs =>
    split at h
    · cases h
    next d hd =>
    split at h
    next range given hgiver =>
      split at h
      next range' taken htaker =>
        simp only [Except.ite_error_eq_ok_iff, not_not] at h
        obtain ⟨hne, hsomething, hsystem, h⟩ := h
        split at h
        next a b ha hb =>
          simp only [Except.ite_error_eq_ok_iff, Bool.not_eq_true', Bool.not_eq_false,
            UInt32.not_lt, UInt32.le_iff_toNat_le] at h
          obtain ⟨hnear, henough, hroom, -⟩ := h
          rw [hzero] at hsomething
          exact ⟨hne, s, d, range, given, taken, Entities.require_eq_ok.mp hs,
            Entities.require_eq_ok.mp hd,
            { giver := Entity.trade?_eq_some_iff.mp hgiver
              taker := ⟨range', Entity.trade?_eq_some_iff.mp htaker⟩
              system := hsystem
              near := ⟨a, b, ha, hb, hnear⟩
              something := Nat.pos_of_ne_zero hsomething
              enough := henough
              room := ((taken.canAccept_iff quantity).mp hroom).resolve_left hsomething }⟩
        · cases h
      · cases h
    · cases h
  · rintro ⟨hne, s, d, range, given, taken, hs, hd, hmay⟩
    obtain ⟨range', htaker⟩ := hmay.taker
    obtain ⟨a, b, ha, hb, hnear⟩ := hmay.near
    have hgiver := Entity.trade?_eq_some_iff.mpr hmay.giver
    have htaker := Entity.trade?_eq_some_iff.mpr htaker
    have hsomething : quantity ≠ 0 := mt hzero.mp (Nat.pos_iff_ne_zero.mp hmay.something)
    have henough : ¬given.quantityOf material < quantity := by
      rw [UInt32.not_lt, UInt32.le_iff_toNat_le]
      exact hmay.enough
    have hroom : taken.canAccept quantity = true :=
      (taken.canAccept_iff quantity).mpr (.inr hmay.room)
    simp [checkTransfer, Entities.require_eq_ok.mpr hs, Entities.require_eq_ok.mpr hd, hgiver,
      htaker, hne, hsomething, hmay.system, ha, hb, hnear, henough, hroom, bind, Except.bind, pure,
      Except.pure]

end Registry

/-! ### What it comes to -/

/-- Material has gone from one hold to the other, and nothing else has changed. -/
structure Entities.Handover (es es' : Entities) (src dst : EntityId) (material : String)
    (quantity : UInt32) : Prop where
  /-- The giver has that much less, and is the same but for that. -/
  given : ∃ e hold hold', es.get? src = some e ∧ e.hold? = some hold ∧
    es'.get? src = some (e.withHold hold') ∧ hold.Differs hold' material ∧
    hold'.units material + quantity.toNat = hold.units material
  /-- The taker has that much more, and is the same but for that. -/
  taken : ∃ e hold hold', es.get? dst = some e ∧ e.hold? = some hold ∧
    es'.get? dst = some (e.withHold hold') ∧ hold.Differs hold' material ∧
    hold'.units material = hold.units material + quantity.toNat
  /-- All others are the same. -/
  others : ∀ id, id ≠ src → id ≠ dst → es'.get? id = es.get? id
  /-- The order is the same. -/
  order : es'.table.keys = es.table.keys

namespace Registry

variable {es : Entities} {coordinates : Lookup} {src dst : EntityId} {material : String}
  {quantity : UInt32}

theorem changeHold_of_ok {id : EntityId} {f : Hold → Except HoldFault Hold} {hold hold' : Hold}
    (hhold : es.hold id = .ok hold) (hf : f hold = .ok hold') :
    changeHold es id f = .ok (es.putHold id hold') := by
  simp only [changeHold, hhold, bind, Except.bind, hf]
  rfl

/-- Where material may be handed over neither the credit nor the debit fails. -/
theorem exists_moved (h : es.MayTransfer coordinates src dst material quantity) :
    ∃ credited moved, changeHold es dst (·.add material quantity) = .ok credited ∧
      changeHold credited src (·.remove material quantity) = .ok moved ∧
      es.Handover moved src dst material quantity := by
  obtain ⟨hne, s, d, range, given, taken, hs, hd, hmay⟩ := h
  have hgiven : s.hold? = some given := hmay.giver.hold?
  have htaken : d.hold? = some taken := by
    obtain ⟨range', htaker⟩ := hmay.taker
    exact htaker.hold?
  obtain ⟨taken', hadd⟩ := Hold.exists_add material (.inr hmay.room)
  obtain ⟨given', hremove⟩ := Hold.exists_remove hmay.enough
  obtain ⟨-, -, hcredit, -⟩ := Hold.add_spec hadd
  have hdebit := Hold.remove_spec hremove material
  -- the giver is another entity, so it still has what it had after the credit
  have hsrc : (es.putHold dst taken').get? src = some s := by
    rw [Entities.putHold, Entities.get?_adjust, if_neg hne, hs]
  have hdst : (es.putHold dst taken').get? dst = some (d.withHold taken') := by
    rw [Entities.putHold, Entities.get?_adjust, if_pos rfl, hd, Option.map_some]
  refine ⟨es.putHold dst taken', (es.putHold dst taken').putHold src given',
    changeHold_of_ok (Entities.hold_eq_ok.mpr ⟨d, hd, htaken⟩) hadd,
    changeHold_of_ok (Entities.hold_eq_ok.mpr ⟨s, hsrc, hgiven⟩) hremove, ?_, ?_, ?_, ?_⟩
  · refine ⟨s, given, given', hs, hgiven, ?_, Hold.differs_of_remove hremove, ?_⟩
    · rw [Entities.putHold, Entities.get?_adjust, if_pos rfl, hsrc, Option.map_some]
    · rwa [if_pos rfl] at hdebit
  · refine ⟨d, taken, taken', hd, htaken, ?_, Hold.differs_of_add hadd, ?_⟩
    · rw [Entities.putHold, Entities.get?_adjust, if_neg hne.symm, hdst]
    · rw [hcredit, if_pos rfl]
  · intro id hid hid'
    rw [Entities.putHold, Entities.get?_adjust, if_neg hid, Entities.putHold,
      Entities.get?_adjust, if_neg hid']
  · exact (Table.keys_modify ..).trans (Table.keys_modify ..)

/-- Where material may be handed over, it is; elsewhere the registry refuses and stays as it is. -/
theorem transfer_cases (r : Registry κ) (coordinates : Lookup) (src dst : EntityId)
    (material : String) (quantity : UInt32) :
    (¬(r.poisoned = false ∧ r.entities.MayTransfer coordinates src dst material quantity) →
      ∃ e, r.transfer coordinates src dst material quantity = (.error e, r)) ∧
    (r.poisoned = false → r.entities.MayTransfer coordinates src dst material quantity →
      ∀ credited moved,
        changeHold r.entities dst (·.add material quantity) = .ok credited →
        changeHold credited src (·.remove material quantity) = .ok moved →
        ∃ announcements, r.transfer coordinates src dst material quantity =
          (.ok announcements, { r with entities := moved })) := by
  constructor
  · intro hnot
    unfold transfer
    cases hcheck : r.check with
    | error e => exact ⟨e, rfl⟩
    | ok u =>
      have hintact : r.poisoned = false := by
        unfold check at hcheck
        cases hpoisoned : r.poisoned with
        | false => rfl
        | true =>
          rw [hpoisoned] at hcheck
          cases hcheck
      cases hallowed : checkTransfer r.entities coordinates src dst material quantity with
      | error e => exact ⟨e, rfl⟩
      | ok u => exact absurd ⟨hintact, checkTransfer_eq_ok_iff.mp hallowed⟩ hnot
  · intro hintact hmay credited moved hcredited hmoved
    have hmove : moveMaterial r.entities src dst material quantity = (.ok (), moved) := by
      simp only [moveMaterial, hcredited, hmoved]
    unfold transfer
    simp only [check_of_intact hintact, checkTransfer_eq_ok_iff.mpr hmay, hmove]
    exact ⟨_, rfl⟩

end Registry

/-! ### Listeners -/

namespace World

variable {host : Host κ ε}

/-- The world with other entities. -/
def withEntities (w : World κ ε) (es : Entities) : World κ ε :=
  w.withRegistry { w.registry with entities := es }

/-- Of what listeners do that only reply, nothing is left but that those who asked for it are no
longer subscribed. -/
theorem deliver_prunes (hhost : host.OnlyReplies) (announcements : List Announcement)
    {w : World κ ε} (hw : w.registry.poisoned = false) :
    ∃ delivery outside, w.deliver host announcements =
      (.ok delivery,
        { w.withEntities (w.registry.entities.prune
            (revocations announcements (askAll (announce host) announcements w).1)).2 with
          outside := outside }) := by
  obtain ⟨outside, hasked⟩ := exists_announced_eq hhost announcements w
  unfold deliver
  rcases haskAll : askAll (announce host) announcements w with ⟨reports, w'⟩
  rw [haskAll] at hasked
  subst hasked
  simp only []
  cases revocations announcements reports with
  | nil => exact ⟨_, outside, rfl⟩
  | cons r rs =>
    simp only [Registry.check_of_intact hw]
    exact ⟨_, outside, rfl⟩

/-- Listeners of entities that only reply have no influence but on the subscriptions. -/
theorem deliver_of_onlyReplies (hhost : host.OnlyReplies) (announcements : List Announcement)
    {w : World κ ε} (hw : w.registry.poisoned = false) :
    ∃ delivery rs outside, w.deliver host announcements =
      (.ok delivery,
        { w.withEntities (w.registry.entities.prune rs).2 with outside := outside }) := by
  obtain ⟨delivery, outside, hdelivery⟩ := deliver_prunes hhost announcements hw
  exact ⟨delivery, _, outside, hdelivery⟩

theorem transfer_of_not_mayTransfer (host : Host κ ε) {w : World κ ε} {src dst : EntityId}
    {material : String} {quantity : UInt32} (h : ¬w.MayTransfer src dst material quantity) :
    ∃ e, w.transfer host src dst material quantity = (.error e, w) := by
  obtain ⟨hrefused, -⟩ :=
    w.registry.transfer_cases w.tracker.coordinatesOf src dst material quantity
  obtain ⟨e, he⟩ := hrefused h
  exact ⟨e, by simp only [transfer, he]⟩

theorem transfer_of_mayTransfer (host : Host κ ε) {w : World κ ε} {src dst : EntityId}
    {material : String} {quantity : UInt32} (h : w.MayTransfer src dst material quantity) :
    ∃ credited moved announcements,
      Registry.changeHold w.registry.entities dst (·.add material quantity) = .ok credited ∧
      Registry.changeHold credited src (·.remove material quantity) = .ok moved ∧
      w.registry.entities.Handover moved src dst material quantity ∧
      w.transfer host src dst material quantity =
        (((w.withEntities moved).deliver host announcements).1.map fun _ => (),
          ((w.withEntities moved).deliver host announcements).2) := by
  obtain ⟨hintact, hmay⟩ := h
  obtain ⟨-, hdone⟩ :=
    w.registry.transfer_cases w.tracker.coordinatesOf src dst material quantity
  obtain ⟨credited, moved, hcredited, hmoved, hhandover⟩ := Registry.exists_moved hmay
  obtain ⟨announcements, htransfer⟩ := hdone hintact hmay credited moved hcredited hmoved
  refine ⟨credited, moved, announcements, hcredited, hmoved, hhandover, ?_⟩
  simp only [transfer, htransfer]
  rfl

/-- A transfer happens as a whole or not at all.  Where something that it takes is missing it is
refused, and nothing changes.  Everywhere else neither the credit nor the debit fails, the material
goes from one hold to the other, nothing else changes, and then the listeners are told.  If these
only reply the transfer succeeds, and all that comes of their replies is that the subscriptions of
those that were revoked are dropped. -/
theorem transfer_exact (host : Host κ ε) (w : World κ ε) (src dst : EntityId) (material : String)
    (quantity : UInt32) :
    (¬w.MayTransfer src dst material quantity →
      ∃ e, w.transfer host src dst material quantity = (.error e, w)) ∧
    (w.MayTransfer src dst material quantity → ∃ credited moved announcements,
      Registry.changeHold w.registry.entities dst (·.add material quantity) = .ok credited ∧
      Registry.changeHold credited src (·.remove material quantity) = .ok moved ∧
      w.registry.entities.Handover moved src dst material quantity ∧
      w.transfer host src dst material quantity =
        (((w.withEntities moved).deliver host announcements).1.map fun _ => (),
          ((w.withEntities moved).deliver host announcements).2)) ∧
    (host.OnlyReplies →
      ((w.transfer host src dst material quantity).1 = .ok () ↔
        w.MayTransfer src dst material quantity) ∧
      ((w.transfer host src dst material quantity).1 = .ok () → ∃ moved rs outside,
        w.registry.entities.Handover moved src dst material quantity ∧
        (w.transfer host src dst material quantity).2 =
          { w.withEntities (moved.prune rs).2 with outside := outside } ∧
        (moved.prune rs).2.silenced = moved.silenced)) := by
  refine ⟨transfer_of_not_mayTransfer host, transfer_of_mayTransfer host, fun hhost => ?_⟩
  have hmay : (w.transfer host src dst material quantity).1 = .ok () →
      w.MayTransfer src dst material quantity := by
    intro hok
    by_contra hnot
    obtain ⟨e, he⟩ := transfer_of_not_mayTransfer host hnot
    rw [he] at hok
    cases hok
  have hdone : w.MayTransfer src dst material quantity → ∃ moved rs outside,
      w.registry.entities.Handover moved src dst material quantity ∧
      w.transfer host src dst material quantity =
        (.ok (), { w.withEntities (moved.prune rs).2 with outside := outside }) := by
    intro h
    obtain ⟨-, moved, announcements, -, -, hhandover, htransfer⟩ := transfer_of_mayTransfer host h
    obtain ⟨delivery, rs, outside, hdelivery⟩ :=
      deliver_of_onlyReplies hhost announcements (w := w.withEntities moved) h.1
    refine ⟨moved, rs, outside, hhandover, ?_⟩
    rw [htransfer, hdelivery]
    rfl
  refine ⟨⟨hmay, fun h => ?_⟩, fun hok => ?_⟩
  · obtain ⟨moved, rs, outside, -, htransfer⟩ := hdone h
    rw [htransfer]
  · obtain ⟨moved, rs, outside, hhandover, htransfer⟩ := hdone (hmay hok)
    exact ⟨moved, rs, outside, hhandover, by rw [htransfer], (moved.prune_silenced rs).1⟩

end World

/-! ### A freight -/

namespace Freight

/-- A ship that carries five units of ore. -/
def freighter : Ship where
  id := ⟨"freighter"⟩
  user := "ann"
  system := "sol"
  position := Skirmish.place
  hold := { capacity := 100, amounts := ({} : Table String UInt32).insert "ore" 5 }

/-- An empty station at the same place. -/
def depot : Station where
  id := ⟨"depot"⟩
  user := "bob"
  system := "sol"
  position := Skirmish.place

/-- The world of these two. -/
def world : World Unit Unit where
  tracker := Skirmish.tracker
  registry :=
    { entities :=
        ⟨{ entries := [(freighter.id, .ship freighter), (depot.id, .station depot)]
           nodup := by decide }⟩ }
  outside := ()

/-- The ship may hand three of them over to the station. -/
theorem mayTransfer : world.MayTransfer freighter.id depot.id "ore" 3 :=
  ⟨rfl, by decide, _, _, _, _, _, rfl, rfl,
    { giver := .ship freighter
      taker := ⟨_, .station depot⟩
      system := rfl
      near := ⟨_, _, rfl, rfl, by decide +kernel⟩
      something := by decide
      enough := by decide +kernel
      room := by decide +kernel }⟩

end Freight

/-- The ship hands three units of ore over to the station. -/
theorem World.transfer_exact_freight :
    (Freight.world.transfer Host.still Freight.freighter.id Freight.depot.id "ore" 3).1 = .ok () ∧
      ∃ moved, Freight.world.registry.entities.Handover moved Freight.freighter.id Freight.depot.id
        "ore" 3 := by
  obtain ⟨-, hdone, hreplies⟩ :=
    transfer_exact Host.still Freight.world Freight.freighter.id Freight.depot.id "ore" 3
  obtain ⟨-, moved, -, -, -, hhandover, -⟩ := hdone Freight.mayTransfer
  exact ⟨(hreplies Host.onlyReplies_still).1.mpr Freight.mayTransfer, moved, hhandover⟩

end Orrery
