import Mathlib.Data.Multiset.AddSub
import Mathlib.Data.Multiset.Filter
import Mathlib.Data.Multiset.Replicate
import Orrery.Proofs.Hold

/-!
# Holds as bags of units

What a hold contains is a bag of units (`Hold.bag`): a multiset in which each material occurs as
often as there are units of it.  Adding and removing do to the hold what they do to the bag, and are
refused just if the bag would outgrow the capacity or does not have the units
(`Hold.exists_add_iff`, `Hold.exists_remove_iff`).  This holds of every hold, also of one that holds
more than its capacity, or more than can be counted.

The bag says nothing of the order of the stacks.  An action leaves the stacks in place that it does
not drop, and appends one at most (`Hold.materials_act`).  So stacks that are never dropped stay in
order, whatever is done to the hold (`Hold.refines_bag`).
-/

namespace Orrery

open Multiset (card count replicate)

namespace Hold

variable (h : Hold)

/-! ### Bags -/

/-- The units, each as an occurrence of its material. -/
def bag (h : Hold) : Multiset String :=
  ↑(h.contents.flatMap fun s => List.replicate s.quantity.toNat s.material)

@[simp] theorem count_bag (m : String) : count m h.bag = h.units m := by
  rw [bag, Multiset.coe_count, List.count_flatMap, ← unitsIn_contents, unitsIn]
  simp only [Function.comp_def, List.count_replicate, beq_iff_eq]

@[simp] theorem card_bag : card h.bag = h.sum := by
  rw [bag, Multiset.coe_card, List.length_flatMap, ← sum_contents, Units.sum, List.map_map]
  simp only [Function.comp_def, List.length_replicate]

/-- The materials of which there is a stack, in the order of the stacks. -/
def materials (h : Hold) : List String := h.amounts.keys

theorem nodup_materials : h.materials.Nodup := h.amounts.nodup

theorem mem_materials_iff {m : String} : m ∈ h.materials ↔ (h.amounts.get? m).isSome := by
  rw [← Table.contains_iff]
  simp [materials, Table.keys, Table.contains]

/-! ### Adding -/

section Add

variable {h} {next : Hold} {m : String} {q : UInt32}

/-- What is added fits beside what is there. -/
theorem exists_add_iff (m : String) (q : UInt32) :
    (∃ next, h.add m q = .ok next) ↔ q.toNat ≤ h.capacity.toNat - card h.bag := by
  have hfits : (q.toNat = 0 ∨ h.sum + q.toNat ≤ h.capacity.toNat) ↔
      q.toNat ≤ h.capacity.toNat - h.sum := by
    omega
  rw [card_bag, ← hfits]
  constructor
  · rintro ⟨next, hadd⟩
    exact (add_spec hadd).2.2.2
  · exact exists_add m

theorem bag_add (hadd : h.add m q = .ok next) : next.bag = h.bag + replicate q.toNat m := by
  obtain ⟨-, -, hunits, -⟩ := add_spec hadd
  ext m'
  rw [Multiset.count_add, Multiset.count_replicate, count_bag, count_bag, hunits]

/-- The new amount is in the range of the counts. -/
theorem toNat_add_lt (hadd : h.add m q = .ok next) :
    (h.quantityOf m).toNat + q.toNat < 2 ^ 32 := by
  obtain ⟨-, -, -, hfits⟩ := add_spec hadd
  have hamount := (h.quantityOf m).toNat_lt
  have hcapacity := h.capacity.toNat_lt
  have hle : (h.quantityOf m).toNat ≤ h.sum := h.units_le_sum m
  omega

/-- A stack of a new material comes last. -/
theorem materials_add (hadd : h.add m q = .ok next) :
    next.materials = if m ∈ h.materials then h.materials else h.materials ++ [m] := by
  unfold add at hadd
  split at hadd
  · cases hadd
    have hmem := h.mem_materials_iff (m := m)
    show (h.amounts.insert m (h.quantityOf m + q)).keys = _
    cases hget : h.amounts.get? m with
    | some held =>
      rw [hget] at hmem
      rw [if_pos (hmem.mpr rfl), Table.insert_of_get?_some hget, Table.keys_modify]
      rfl
    | none =>
      rw [hget] at hmem
      rw [if_neg (fun hm => Bool.false_ne_true (hmem.mp hm)), Table.keys,
        Table.insert_of_get?_none hget, List.map_append]
      rfl
  · cases hadd

end Add

/-! ### Removing -/

section Remove

variable {h} {next : Hold} {m : String} {q : UInt32}

/-- What is removed is there. -/
theorem exists_remove_iff (m : String) (q : UInt32) :
    (∃ next, h.remove m q = .ok next) ↔ q.toNat ≤ count m h.bag := by
  rw [count_bag]
  constructor
  · rintro ⟨next, hremove⟩
    have hunits := remove_spec hremove m
    rw [if_pos rfl] at hunits
    omega
  · exact exists_remove

theorem bag_remove (hremove : h.remove m q = .ok next) :
    next.bag = h.bag - replicate q.toNat m := by
  ext m'
  have hunits := remove_spec hremove m'
  rw [Multiset.count_sub, Multiset.count_replicate, count_bag, count_bag]
  omega

/-- The stack is dropped if nothing is left of it, and stays in place otherwise. -/
theorem materials_remove (hremove : h.remove m q = .ok next) :
    next.materials = if count m next.bag = 0 then h.materials.filter (· ≠ m) else h.materials := by
  have hunits := remove_spec hremove m
  rw [if_pos rfl] at hunits
  rw [count_bag]
  unfold remove at hremove
  simp only [] at hremove
  split at hremove
  · cases hremove
  · next hle =>
    split at hremove
    · next hall =>
      have hnone : next.units m = 0 := by
        have hheld : h.units m = q.toNat := congrArg UInt32.toNat hall
        omega
      cases hremove
      rw [if_pos hnone]
      exact Table.keys_erase ..
    · next hsome =>
      have hleft : next.units m ≠ 0 := by
        intro hnone
        rw [hnone, Nat.zero_add] at hunits
        exact hsome (UInt32.toNat_inj.mp hunits.symm)
      cases hremove
      rw [if_neg hleft]
      exact Table.keys_modify ..

theorem capacity_remove (hremove : h.remove m q = .ok next) : next.capacity = h.capacity := by
  unfold remove at hremove
  simp only [] at hremove
  split at hremove
  · cases hremove
  · split at hremove
    · cases hremove
      rfl
    · cases hremove
      rfl

end Remove

/-! ### Actions -/

/-- What can be done to a hold. -/
inductive Action where
  | add (material : String) (quantity : UInt32)
  | remove (material : String) (quantity : UInt32)
  /-- Takes all stacks. -/
  | takeAll

/-- Goes on with the result of something that hands out no stacks.  What is refused leaves the hold as
it is. -/
def goOn (h : Hold) : Except HoldFault Hold → Except HoldFault (List Stack) × Hold
  | .ok next => (.ok [], next)
  | .error f => (.error f, h)

/-- Does something to a hold, and answers with the stacks taken or with a refusal. -/
def act (h : Hold) : Action → Except HoldFault (List Stack) × Hold
  | .add m q => h.goOn (h.add m q)
  | .remove m q => h.goOn (h.remove m q)
  | .takeAll => (.ok h.contents, h.emptied)

/-- What the action does to a bag for which there is so much room in all, unless it is refused. -/
def Action.onBag (capacity : Nat) (b : Multiset String) : Action → Option (Multiset String)
  | add m q => if q.toNat ≤ capacity - card b then some (b + replicate q.toNat m) else none
  | remove m q => if q.toNat ≤ count m b then some (b - replicate q.toNat m) else none
  | takeAll => some 0

/-- What is possible is done, and all else is refused. -/
theorem goOn_cases {result : Except HoldFault Hold} {possible : Prop}
    (hiff : (∃ next, result = .ok next) ↔ possible) :
    (∃ f, h.goOn result = (.error f, h) ∧ ¬possible) ∨
    ∃ next, h.goOn result = (.ok [], next) ∧ result = .ok next ∧ possible := by
  rw [← hiff]
  cases result with
  | error f => exact .inl ⟨f, rfl, nofun⟩
  | ok next => exact .inr ⟨next, rfl, rfl, next, rfl⟩

/-- An action is refused, and then changes nothing, or does to the hold what it does to the bag. -/
theorem act_cases (a : Action) :
    (∃ f, h.act a = (.error f, h) ∧ a.onBag h.capacity.toNat h.bag = none) ∨
    ∃ taken next, h.act a = (.ok taken, next) ∧ next.capacity = h.capacity ∧
      a.onBag h.capacity.toNat h.bag = some next.bag := by
  cases a with
  | add m q =>
    obtain ⟨f, hact, hfull⟩ | ⟨next, hact, hadd, hfits⟩ := h.goOn_cases (h.exists_add_iff m q)
    · exact .inl ⟨f, hact, if_neg hfull⟩
    · refine .inr ⟨[], next, hact, (add_spec hadd).1, ?_⟩
      rw [bag_add hadd]
      exact if_pos hfits
  | remove m q =>
    obtain ⟨f, hact, hshort⟩ | ⟨next, hact, hremove, hheld⟩ :=
      h.goOn_cases (h.exists_remove_iff m q)
    · exact .inl ⟨f, hact, if_neg hshort⟩
    · refine .inr ⟨[], next, hact, capacity_remove hremove, ?_⟩
      rw [bag_remove hremove]
      exact if_pos hheld
  | takeAll => exact .inr ⟨h.contents, h.emptied, rfl, rfl, rfl⟩

/-- Stacks stay in place or are dropped, or there is a new one at the end. -/
theorem materials_act (a : Action) :
    (h.act a).2.materials.Sublist h.materials ∨ h.materials.Sublist (h.act a).2.materials := by
  cases a with
  | add m q =>
    right
    show h.materials.Sublist (h.goOn (h.add m q)).2.materials
    obtain ⟨f, hact, -⟩ | ⟨next, hact, hadd, -⟩ := h.goOn_cases (h.exists_add_iff m q)
    · rw [hact]
    · rw [hact, materials_add hadd]
      split
      · exact List.Sublist.refl _
      · exact List.sublist_append_left ..
  | remove m q =>
    left
    show (h.goOn (h.remove m q)).2.materials.Sublist h.materials
    obtain ⟨f, hact, -⟩ | ⟨next, hact, hremove, -⟩ := h.goOn_cases (h.exists_remove_iff m q)
    · rw [hact]
    · rw [hact, materials_remove hremove]
      split
      · exact List.filter_sublist
      · exact List.Sublist.refl _
  | takeAll =>
    left
    exact List.nil_sublist _

/-! ### Runs -/

/-- The hold after some actions. -/
def after (h : Hold) (actions : List Action) : Hold := actions.foldl (fun h a => (h.act a).2) h

/-- What some actions do to a bag; those that are refused leave it as it is. -/
def Action.allOnBag (capacity : Nat) (b : Multiset String) (actions : List Action) :
    Multiset String :=
  actions.foldl (fun b a => (a.onBag capacity b).getD b) b

theorem act_onBag (a : Action) : (h.act a).2.capacity = h.capacity ∧
    (h.act a).2.bag = (a.onBag h.capacity.toNat h.bag).getD h.bag := by
  obtain ⟨f, hact, hbag⟩ | ⟨taken, next, hact, hcapacity, hbag⟩ := h.act_cases a
  · rw [hact, hbag]
    exact ⟨rfl, rfl⟩
  · rw [hact, hbag]
    exact ⟨hcapacity, rfl⟩

theorem after_onBag (actions : List Action) : (h.after actions).capacity = h.capacity ∧
    (h.after actions).bag = Action.allOnBag h.capacity.toNat h.bag actions := by
  induction actions generalizing h with
  | nil => exact ⟨rfl, rfl⟩
  | cons a actions ih =>
    obtain ⟨hcapacity, hbag⟩ := h.act_onBag a
    obtain ⟨hcapacity', hbag'⟩ := ih (h.act a).2
    refine ⟨hcapacity'.trans hcapacity, hbag'.trans ?_⟩
    rw [hcapacity, hbag]
    rfl

/-- A bag that is within the capacity stays within it. -/
theorem Action.card_onBag_le {capacity : Nat} {b b' : Multiset String} {a : Action}
    (hb : card b ≤ capacity) (ha : a.onBag capacity b = some b') : card b' ≤ capacity := by
  unfold onBag at ha
  cases a with
  | add m q =>
    obtain ⟨hle, hb'⟩ := Option.ite_none_right_eq_some.mp ha
    rw [← Option.some.inj hb', Multiset.card_add, Multiset.card_replicate]
    omega
  | remove m q =>
    obtain ⟨-, hb'⟩ := Option.ite_none_right_eq_some.mp ha
    rw [← Option.some.inj hb']
    exact (Multiset.card_le_card (Multiset.sub_le_self ..)).trans hb
  | takeAll =>
    rw [← Option.some.inj ha]
    exact Nat.zero_le _

theorem card_after_le (hfits : card h.bag ≤ h.capacity.toNat) (actions : List Action) :
    card (h.after actions).bag ≤ h.capacity.toNat := by
  induction actions generalizing h with
  | nil => exact hfits
  | cons a actions ih =>
    obtain ⟨hcapacity, hbag⟩ := h.act_onBag a
    have hstep : card (h.act a).2.bag ≤ h.capacity.toNat := by
      rw [hbag]
      cases honBag : a.onBag h.capacity.toNat h.bag with
      | none => exact hfits
      | some b => exact Action.card_onBag_le hfits honBag
    have hrest := ih (h.act a).2 (by rw [hcapacity]; exact hstep)
    rwa [hcapacity] at hrest

/-- What is in both of two lists is in the same order in both, if one is part of the other. -/
theorem filter_eq_of_sublist {xs ys : List String} {p : String → Bool} (hys : ys.Nodup)
    (h : xs.Sublist ys) (hp : ∀ m ∈ ys, p m = true → m ∈ xs) : xs.filter p = ys.filter p := by
  refine (h.filter p).eq_of_length_le ?_
  refine (hys.filter p).length_le_of_subset ?_
  intro m hm
  rw [List.mem_filter] at hm ⊢
  exact ⟨hp m hm.1 hm.2, hm.2⟩

/-- Stacks that are there at all times stay in order. -/
theorem materials_after (p : String → Bool) (actions : List Action)
    (hp : ∀ m, p m = true → ∀ front, front <+: actions → m ∈ (h.after front).materials) :
    (h.after actions).materials.filter p = h.materials.filter p := by
  induction actions generalizing h with
  | nil => rfl
  | cons a actions ih =>
    have hbefore : ∀ m, p m = true → m ∈ h.materials := fun m hm =>
      hp m hm [] (List.nil_prefix)
    have hnext : ∀ m, p m = true → ∀ front, front <+: actions →
        m ∈ ((h.act a).2.after front).materials := fun m hm front hfront =>
      hp m hm (a :: front) (List.cons_prefix_cons.mpr ⟨rfl, hfront⟩)
    have hstep : (h.act a).2.materials.filter p = h.materials.filter p := by
      rcases h.materials_act a with hdropped | hadded
      · exact filter_eq_of_sublist h.nodup_materials hdropped fun m _ hm =>
          hnext m hm [] List.nil_prefix
      · exact (filter_eq_of_sublist (h.act a).2.nodup_materials hadded fun m _ hm =>
          hbefore m hm).symm
    exact (ih (h.act a).2 hnext).trans hstep

/-- A hold behaves like a bag of units with room for so many.  Whatever is done to it, its capacity
stays as it is, what it contains is what the actions make of the bag, it stays within its capacity
if it was, and stacks that are there at all times stay in order.  And at any time the next action
does the following.

* Adding succeeds if and only if the quantity is at most the capacity less what is held, or zero.
  It adds so many units of the material, and no sum leaves the range of the counts; a stack of a new
  material comes last.
* Removing succeeds if and only if there are so many units of the material.  It takes them away, and
  drops the stack if nothing is left of it.
* Taking all hands out the stacks, of which each has the units of its material, and leaves nothing.
* What is refused changes nothing. -/
theorem refines_bag (h : Hold) (actions : List Action) :
    let now := h.after actions
    now.capacity = h.capacity ∧
    now.bag = Action.allOnBag h.capacity.toNat h.bag actions ∧
    (card h.bag ≤ h.capacity.toNat → card now.bag ≤ h.capacity.toNat) ∧
    (∀ p : String → Bool,
      (∀ m, p m = true → ∀ front, front <+: actions → m ∈ (h.after front).materials) →
      now.materials.filter p = h.materials.filter p) ∧
    (∀ m q, ((∃ next, now.add m q = .ok next) ↔ q.toNat ≤ h.capacity.toNat - card now.bag) ∧
      ∀ next, now.add m q = .ok next →
        next.bag = now.bag + replicate q.toNat m ∧ next.capacity = now.capacity ∧
        (now.quantityOf m).toNat + q.toNat < 2 ^ 32 ∧
        next.materials = if m ∈ now.materials then now.materials else now.materials ++ [m]) ∧
    (∀ m q, ((∃ next, now.remove m q = .ok next) ↔ q.toNat ≤ count m now.bag) ∧
      ∀ next, now.remove m q = .ok next →
        next.bag = now.bag - replicate q.toNat m ∧ next.capacity = now.capacity ∧
        next.materials =
          if count m next.bag = 0 then now.materials.filter (· ≠ m) else now.materials) ∧
    (∃ next, now.act .takeAll = (.ok now.contents, next) ∧
      now.contents.map (·.material) = now.materials ∧
      (∀ s ∈ now.contents, s.quantity.toNat = count s.material now.bag) ∧
      next.bag = 0 ∧ next.materials = [] ∧ next.capacity = now.capacity) ∧
    ∀ a f next, now.act a = (.error f, next) → next = now := by
  intro now
  obtain ⟨hcapacity, hbag⟩ := h.after_onBag actions
  have hkept : now.capacity = h.capacity := hcapacity
  refine ⟨hcapacity, hbag, fun hfits => h.card_after_le hfits actions,
    fun p hp => h.materials_after p actions hp, ?_, ?_, ?_, ?_⟩
  · intro m q
    rw [← hkept]
    exact ⟨exists_add_iff m q, fun next hadd =>
      ⟨bag_add hadd, (add_spec hadd).1, toNat_add_lt hadd, materials_add hadd⟩⟩
  · intro m q
    exact ⟨exists_remove_iff m q, fun next hremove =>
      ⟨bag_remove hremove, capacity_remove hremove, materials_remove hremove⟩⟩
  · refine ⟨now.emptied, rfl, ?_, ?_, rfl, rfl, rfl⟩
    · rw [contents, List.map_map]
      rfl
    · intro s hs
      obtain ⟨e, he, rfl⟩ := List.mem_map.mp hs
      rw [count_bag, units_eq, Table.get?_eq_some_iff.mpr he]
      rfl
  · intro a f next hact
    obtain ⟨f', hrefused, -⟩ | ⟨taken, next', hdone, -⟩ := now.act_cases a
    · rw [hact] at hrefused
      exact congrArg Prod.snd hrefused
    · rw [hact] at hdone
      cases congrArg Prod.fst hdone

end Hold

/-! ### A pantry -/

namespace Pantry

/-- Room for ten, and two left. -/
def shelf : Hold where
  capacity := 10
  amounts := { entries := [("salt", 6), ("tea", 2)], nodup := by decide }

/-- Some salt goes, and more comes in than there is room for, and then less. -/
def day : List Hold.Action := [.remove "salt" 1, .add "rice" 4, .add "rice" 3]

theorem salt_in_time (front : List Hold.Action) (h : front <+: day) :
    "salt" ∈ (shelf.after front).materials := by
  have hstays : ∀ n ∈ List.range 4, "salt" ∈ (shelf.after (day.take n)).materials := by decide
  have hshort : front.length < 4 := Nat.lt_succ_of_le h.length_le
  rw [List.prefix_iff_eq_take.mp h]
  exact hstays _ (List.mem_range.mpr hshort)

end Pantry

open Pantry in
/-- In the evening the shelf is full, so that no more rice fits, and the salt is still where it
was. -/
theorem Hold.refines_bag_pantry :
    card (shelf.after day).bag ≤ 10 ∧ ¬(∃ next, (shelf.after day).add "rice" 1 = .ok next) ∧
      (shelf.after day).materials.filter (· = "salt") = ["salt"] := by
  obtain ⟨-, -, hfits, horder, hadd, -⟩ := refines_bag shelf day
  refine ⟨hfits (by decide), ?_, ?_⟩
  · rw [(hadd "rice" 1).1]
    decide
  · refine (horder (· = "salt") ?_).trans (by decide)
    intro m hm front hfront
    rw [of_decide_eq_true hm]
    exact salt_in_time front hfront

end Orrery
