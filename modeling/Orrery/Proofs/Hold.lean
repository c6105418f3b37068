import Orrery.Entity.Hold
import Orrery.Proofs.Table
import Orrery.Proofs.Units

/-!
# Counting units in holds

`Hold.units` counts one material of a hold and `Hold.sum` all of them, as natural numbers, so
neither count ever stops at the largest word.  Adding and removing change them by the quantity
concerned (`add_spec`, `remove_spec`): whatever is added fits, so the 32-bit sums do not wrap
around.

A list of stacks is added as far as it fits.  `Hold.refused` is what remains, and it is empty if and
only if there is nothing to add or the whole of it fits (`refused_eq_nil_iff`).
-/

namespace Orrery

/-! ### Stacks -/

/-- Units of one material in a list of stacks. -/
def unitsIn (material : String) (load : List Stack) : Nat :=
  (load.map fun s => if s.material = material then s.quantity.toNat else 0).sum

@[simp] theorem unitsIn_nil (material : String) : unitsIn material [] = 0 := rfl

@[simp] theorem unitsIn_cons (material : String) (s : Stack) (load : List Stack) :
    unitsIn material (s :: load) =
      (if s.material = material then s.quantity.toNat else 0) + unitsIn material load :=
  List.sum_cons

theorem unitsIn_append (material : String) (load more : List Stack) :
    unitsIn material (load ++ more) = unitsIn material load + unitsIn material more := by
  simp [unitsIn]

/-- No stack has more units than there are of its material. -/
theorem le_unitsIn_of_mem {s : Stack} {load : List Stack} (h : s ∈ load) :
    s.quantity.toNat ≤ unitsIn s.material load := by
  obtain ⟨before, after, rfl⟩ := List.append_of_mem h
  rw [unitsIn_append, unitsIn_cons, if_pos rfl]
  omega

namespace Hold

variable {h h' : Hold} {material : String} {quantity : UInt32}

/-! ### Units held -/

/-- Units of one material. -/
def units (h : Hold) (material : String) : Nat := (h.quantityOf material).toNat

/-- Units in all. -/
def sum (h : Hold) : Nat := h.amounts.sum fun _ => UInt32.toNat

theorem toNat_total (h : Hold) : h.total.toNat = min h.sum (2 ^ 32 - 1) := by
  have hsum : Units.sum h.amounts.values = h.sum := by
    simp [Units.sum, sum, Table.sum, Table.values, Function.comp_def]
  rw [total, Units.toNat_total, hsum]

theorem units_eq (h : Hold) (material : String) :
    h.units material = ((h.amounts.get? material).map UInt32.toNat).getD 0 := by
  unfold units quantityOf
  cases h.amounts.get? material <;> rfl

theorem units_le_sum (h : Hold) (material : String) : h.units material ≤ h.sum := by
  rw [units_eq]
  cases hget : h.amounts.get? material with
  | none => exact Nat.zero_le _
  | some quantity =>
    rw [sum, Table.sum_eq_add _ _ hget]
    exact Nat.le_add_right ..

theorem unitsIn_contents (h : Hold) (material : String) :
    unitsIn material h.contents = h.units material := by
  rw [units_eq, ← Table.sum_ite_eq]
  simp [unitsIn, contents, Table.sum, Function.comp_def]

theorem sum_contents (h : Hold) : Units.sum (h.contents.map (·.quantity)) = h.sum := by
  simp [Units.sum, contents, sum, Table.sum, Function.comp_def]

/-! ### Adding and removing -/

theorem canAccept_iff (h : Hold) (quantity : UInt32) :
    h.canAccept quantity = true ↔
      quantity.toNat = 0 ∨ h.sum + quantity.toNat ≤ h.capacity.toNat := by
  have hcapacity := h.capacity.toNat_lt
  unfold canAccept free
  rw [decide_eq_true_iff, UInt32.le_iff_toNat_le, Units.toNat_minus, toNat_total]
  omega

/-- Adding changes one amount, and there is room for it. -/
theorem add_spec (hadd : h.add material quantity = .ok h') :
    h'.capacity = h.capacity ∧ h'.sum = h.sum + quantity.toNat ∧
    (∀ m, h'.units m = h.units m + if material = m then quantity.toNat else 0) ∧
    (quantity.toNat = 0 ∨ h.sum + quantity.toNat ≤ h.capacity.toNat) := by
  unfold add at hadd
  split at hadd
  · next hfits =>
    rw [canAccept_iff] at hfits
    cases hadd
    -- what fits is within the range of the counts
    have hnew : (h.quantityOf material + quantity).toNat = h.units material + quantity.toNat := by
      have hcapacity := h.capacity.toNat_lt
      have hle := h.units_le_sum material
      have hlt := (h.quantityOf material).toNat_lt
      rw [UInt32.toNat_add]
      exact Nat.mod_eq_of_lt (by unfold units at hle; omega)
    have hsum := h.amounts.sum_insert (fun _ => UInt32.toNat) material
      (h.quantityOf material + quantity)
    rw [hnew, units_eq] at hsum
    refine ⟨rfl, ?_, fun m => ?_, hfits⟩
    · show (h.amounts.insert material (h.quantityOf material + quantity)).sum
        (fun _ => UInt32.toNat) = h.amounts.sum (fun _ => UInt32.toNat) + quantity.toNat
      omega
    · rw [units_eq, Table.get?_insert]
      split
      · next hm => rw [hm, if_pos rfl, Option.map_some, Option.getD_some, hnew]
      · next hm => rw [if_neg (Ne.symm hm), Nat.add_zero, units_eq]
  · cases hadd

theorem exists_add (material : String)
    (hfits : quantity.toNat = 0 ∨ h.sum + quantity.toNat ≤ h.capacity.toNat) :
    ∃ h', h.add material quantity = .ok h' := ⟨_, if_pos ((h.canAccept_iff quantity).mpr hfits)⟩

/-- Removing changes one amount. -/
theorem remove_spec (hremove : h.remove material quantity = .ok h') (m : String) :
    h'.units m + (if material = m then quantity.toNat else 0) = h.units m := by
  unfold remove at hremove
  simp only [] at hremove
  split at hremove
  · cases hremove
  · next hle =>
    rw [UInt32.not_lt] at hle
    have hle' : quantity.toNat ≤ h.units material := hle
    split at hremove
    · next heq =>
      cases hremove
      rw [units_eq, Table.get?_erase]
      split
      · next hm =>
        rw [hm, if_pos rfl, Option.map_none, Option.getD_none, Nat.zero_add, units, heq]
      · next hm => rw [if_neg (Ne.symm hm), Nat.add_zero, units_eq]
    · cases hremove
      rw [units_eq, Table.get?_modify]
      split
      · next hm =>
        subst hm
        rw [units_eq] at hle'
        rw [if_pos rfl, units_eq]
        cases hget : h.amounts.get? m with
        | none =>
          rw [hget] at hle'
          simp only [Option.map_none, Option.getD_none] at hle' ⊢
          omega
        | some held =>
          rw [hget] at hle'
          have hsub : (held - quantity).toNat = held.toNat - quantity.toNat :=
            UInt32.toNat_sub_of_le _ _ (UInt32.le_iff_toNat_le.mpr hle')
          simp only [Option.map_some, Option.getD_some, hsub] at hle' ⊢
          omega
      · next hm => rw [if_neg (Ne.symm hm), Nat.add_zero, units_eq]

theorem exists_remove (hle : quantity.toNat ≤ h.units material) :
    ∃ h', h.remove material quantity = .ok h' := by
  unfold remove
  simp only []
  rw [if_neg (UInt32.not_lt.mpr (UInt32.le_iff_toNat_le.mpr hle))]
  split
  · exact ⟨_, rfl⟩
  · exact ⟨_, rfl⟩

/-! ### Lists of stacks -/

/-- The stacks from the first one on that does not fit. -/
def refused (h : Hold) : List Stack → List Stack
  | [] => []
  | s :: rest =>
    match h.add s.material s.quantity with
    | .ok h => h.refused rest
    | .error _ => s :: rest

/-- Whatever is not refused is added. -/
theorem units_addAll (h : Hold) (load : List Stack) (m : String) :
    (h.addAll load).1.units m + unitsIn m (h.refused load) = h.units m + unitsIn m load := by
  induction load generalizing h with
  | nil => rfl
  | cons s rest ih =>
    unfold addAll refused
    cases hadd : h.add s.material s.quantity with
    | error e => rfl
    | ok h' =>
      obtain ⟨-, -, hunits, -⟩ := add_spec hadd
      simp only []
      rw [ih h', hunits, unitsIn_cons]
      omega

theorem addAll_snd_eq_none_iff (h : Hold) (load : List Stack) :
    (h.addAll load).2 = none ↔ h.refused load = [] := by
  induction load generalizing h with
  | nil => simp [addAll, refused]
  | cons s rest ih =>
    unfold addAll refused
    cases hadd : h.add s.material s.quantity with
    | error e => simp
    | ok h' => exact ih h'

/-- Nothing is refused if there is nothing to add or the whole of it fits. -/
theorem refused_eq_nil_iff (h : Hold) (load : List Stack) :
    h.refused load = [] ↔ Units.sum (load.map (·.quantity)) = 0 ∨
      h.sum + Units.sum (load.map (·.quantity)) ≤ h.capacity.toNat := by
  induction load generalizing h with
  | nil => simp [refused]
  | cons s rest ih =>
    unfold refused
    rw [List.map_cons, Units.sum_cons]
    cases hadd : h.add s.material s.quantity with
    | error e =>
      -- the first stack alone does not fit, so the whole of it does not
      have hno : ¬ (s.quantity.toNat = 0 ∨ h.sum + s.quantity.toNat ≤ h.capacity.toNat) := by
        intro hfits
        obtain ⟨h', hok⟩ := exists_add s.material hfits
        rw [hadd] at hok
        cases hok
      simp only [reduceCtorEq, false_iff]
      omega
    | ok h' =>
      obtain ⟨hcapacity, hsum, -, hfits⟩ := add_spec hadd
      rw [ih h', hcapacity, hsum]
      omega

theorem refused_subset (h : Hold) (load : List Stack) : h.refused load ⊆ load := by
  induction load generalizing h with
  | nil => exact List.Subset.refl _
  | cons s rest ih =>
    unfold refused
    cases h.add s.material s.quantity with
    | error e => exact List.Subset.refl _
    | ok h' => exact List.subset_cons_of_subset s (ih h')

/-- The first stack that is refused is not empty. -/
theorem exists_pos_of_refused_ne_nil {h : Hold} {load : List Stack} (hne : h.refused load ≠ []) :
    ∃ s ∈ h.refused load, 0 < s.quantity.toNat := by
  induction load generalizing h with
  | nil => exact absurd rfl hne
  | cons s rest ih =>
    unfold refused at hne ⊢
    cases hadd : h.add s.material s.quantity with
    | error e =>
      -- an empty stack would have fitted
      refine ⟨s, List.mem_cons_self .., Nat.pos_of_ne_zero fun hzero => ?_⟩
      obtain ⟨h', hok⟩ := exists_add (h := h) s.material (.inl hzero)
      rw [hadd] at hok
      cases hok
    | ok h' =>
      rw [hadd] at hne
      exact ih hne

end Hold

end Orrery
