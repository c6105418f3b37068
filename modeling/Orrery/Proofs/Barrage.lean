import Orrery.Proofs.Damage

/-!
# Hits one after the other

A ship takes hits one after the other, each by whoever it is (`Ship.absorbAll`).  Only sums matter:
what is left follows from the sum of all hits, and the hit that destroys the ship is the one with
which the sum reaches its shield and hit points (`Ship.absorbAll_worn`).  So the order of the hits
does not matter, nor how they are grouped, and no more than one of them is reported as the one that
destroyed the ship (`Ship.hits_compose`).

The differences that a hit computes are differences of natural numbers.  To say so, `Ship.absorb?`
computes the same with each difference checked.
-/

namespace Orrery

/-! ### Checked differences -/

/-- The difference of two counts, if it is a count. -/
def Units.minus? (a b : UInt32) : Option UInt32 := if b ≤ a then some (a - b) else none

theorem Units.minus?_of_le {a b : UInt32} (h : b ≤ a) : minus? a b = some (a - b) := if_pos h

namespace Ship

/-- Takes a hit, unless one of the differences to be computed is below zero. -/
def absorb? (s : Ship) (damage : UInt32) : Option (Ship × Bool) :=
  if damage ≤ s.shield then do
    let shield ← Units.minus? s.shield damage
    return ({ s with shield := shield }, false)
  else do
    let spill ← Units.minus? damage s.shield
    let hit := { s with shield := 0, hp := Units.minus s.hp spill }
    return (hit, s.alive && !hit.alive)

/-- No difference is below zero. -/
theorem absorb?_eq (s : Ship) (damage : UInt32) : s.absorb? damage = some (s.absorb damage) := by
  unfold absorb? absorb
  by_cases h : damage ≤ s.shield
  · rw [if_pos h, if_pos h, Units.minus?_of_le h]
    rfl
  · have hle : s.shield ≤ damage := UInt32.le_of_lt (UInt32.not_le.mp h)
    rw [if_neg h, if_neg h, Units.minus?_of_le hle]
    rfl

/-! ### Hits -/

/-- Takes hits one after the other, and tells of each of them whether it destroyed the ship. -/
def absorbAll (s : Ship) : List UInt32 → Ship × List Bool
  | [] => (s, [])
  | damage :: hits =>
    let (s, destroyed) := s.absorb damage
    let (s, verdicts) := s.absorbAll hits
    (s, destroyed :: verdicts)

/-- Which of some hits destroys a ship, if there was damage before. -/
def verdicts (d : Ship) (total : Nat) : List UInt32 → List Bool
  | [] => []
  | damage :: hits =>
    decide (d.Falls total (total + damage.toNat)) :: d.verdicts (total + damage.toNat) hits

variable (d : Ship)

/-- Hits add up. -/
theorem absorbAll_worn (total : Nat) (hits : List UInt32) :
    (d.worn total).absorbAll hits = (d.worn (total + Units.sum hits), d.verdicts total hits) := by
  induction hits generalizing total with
  | nil => rfl
  | cons damage hits ih =>
    rw [absorbAll, absorb_worn_eq]
    simp only [ih, verdicts, Units.sum_cons, Nat.add_assoc]

theorem absorbAll_eq (hits : List UInt32) :
    d.absorbAll hits = (d.worn (Units.sum hits), d.verdicts 0 hits) := by
  have hall := d.absorbAll_worn 0 hits
  rwa [worn_zero, Nat.zero_add] at hall

theorem foldlM_absorb? (hits : List UInt32) :
    hits.foldlM (fun s damage => (s.absorb? damage).map (·.1)) d =
      some (d.absorbAll hits).1 := by
  induction hits generalizing d with
  | nil => rfl
  | cons damage hits ih =>
    rw [List.foldlM_cons, absorb?_eq]
    exact ih (d.absorb damage).1

theorem length_verdicts (total : Nat) (hits : List UInt32) :
    (d.verdicts total hits).length = hits.length := by
  induction hits generalizing total with
  | nil => rfl
  | cons damage hits ih => exact congrArg (· + 1) (ih (total + damage.toNat))

/-- The hit that destroys the ship is the one with which the sum first reaches its strength. -/
theorem getElem?_verdicts (total i : Nat) (hits : List UInt32) :
    (d.verdicts total hits)[i]? = some true ↔
      d.Falls (total + Units.sum (hits.take i)) (total + Units.sum (hits.take (i + 1))) := by
  induction hits generalizing total i with
  | nil =>
    -- without a hit the sum does not grow
    refine iff_of_false nofun ?_
    rintro ⟨-, hbefore, hafter⟩
    rw [List.take_nil] at hbefore hafter
    omega
  | cons damage hits ih =>
    rw [verdicts]
    cases i with
    | zero => simp
    | succ i =>
      rw [List.getElem?_cons_succ, ih, List.take_succ_cons, List.take_succ_cons, Units.sum_cons,
        Units.sum_cons, ← Nat.add_assoc, ← Nat.add_assoc]

/-- A ship is destroyed once, if the sum of all hits reaches its strength, or not at all. -/
theorem count_verdicts (total : Nat) (hits : List UInt32) :
    (d.verdicts total hits).count true =
      if d.Falls total (total + Units.sum hits) then 1 else 0 := by
  induction hits generalizing total with
  | nil =>
    rw [if_neg]
    · rfl
    · rintro ⟨-, hbefore, hafter⟩
      rw [Units.sum_nil] at hafter
      omega
  | cons damage hits ih =>
    -- it falls with the first hit, or with one of the others
    have hsplit : d.Falls total (total + Units.sum (damage :: hits)) ↔
        d.Falls total (total + damage.toNat) ∨
          d.Falls (total + damage.toNat) (total + damage.toNat + Units.sum hits) := by
      unfold Falls
      rw [Units.sum_cons]
      omega
    have honce : d.Falls total (total + damage.toNat) →
        ¬ d.Falls (total + damage.toNat) (total + damage.toNat + Units.sum hits) := by
      rintro ⟨-, -, hfirst⟩ ⟨-, hlater, -⟩
      omega
    rw [verdicts, List.count_cons, ih, if_congr hsplit rfl rfl]
    by_cases hfirst : d.Falls total (total + damage.toNat)
    · simp [hfirst, honce hfirst]
    · simp [hfirst]

/-- Hits compose.  Of a ship with shield `S` and hit points `H` that takes hits of `T` in all, the
shield is left with `S - T` and the hull with `H - (T - S)`, neither below zero, and nothing else
has changed.  Other hits of the same sum leave the same ship, whatever their order and however they
are grouped.  No difference on the way is below zero.  One hit is reported as the one that destroyed
the ship if there were hit points and `T` makes up `S + H`, and none otherwise; it is the one with
which the sum first reaches `S + H`. -/
theorem hits_compose (hits : List UInt32) :
    let S := d.shield.toNat
    let H := d.hp.toNat
    let T := Units.sum hits
    let after := (d.absorbAll hits).1
    let verdicts := (d.absorbAll hits).2
    after.shield.toNat = S - T ∧ after.hp.toNat = H - (T - S) ∧
    after = { d with shield := after.shield, hp := after.hp } ∧
    (∀ hits', Units.sum hits' = T → (d.absorbAll hits').1 = after) ∧
    hits.foldlM (fun s damage => (s.absorb? damage).map (·.1)) d = some after ∧
    verdicts.length = hits.length ∧
    verdicts.count true = (if 0 < H ∧ S + H ≤ T then 1 else 0) ∧
    ∀ i, verdicts[i]? = some true ↔
      0 < H ∧ Units.sum (hits.take i) < S + H ∧ S + H ≤ Units.sum (hits.take (i + 1)) := by
  intro S H T after verdicts
  have hafter : after = d.worn T := congrArg Prod.fst (d.absorbAll_eq hits)
  have hverdicts : verdicts = d.verdicts 0 hits := congrArg Prod.snd (d.absorbAll_eq hits)
  have hcount := d.count_verdicts 0 hits
  have hplace := fun i => d.getElem?_verdicts 0 i hits
  simp only [Nat.zero_add] at hcount hplace
  refine ⟨?_, ?_, ?_, ?_, d.foldlM_absorb? hits, ?_, ?_, ?_⟩
  · rw [hafter]
    exact d.toNat_shield_worn T
  · rw [hafter]
    exact d.toNat_hp_worn T
  · rw [hafter]
    rfl
  · intro hits' hsum
    rw [hafter, ← hsum]
    exact congrArg Prod.fst (d.absorbAll_eq hits')
  · rw [hverdicts]
    exact d.length_verdicts 0 hits
  · -- a ship with hit points has not been destroyed before the first hit
    have hfalls : d.Falls 0 T ↔ 0 < H ∧ S + H ≤ T := by
      show 0 < H ∧ 0 < S + H ∧ S + H ≤ T ↔ _
      omega
    rw [hverdicts, hcount, if_congr hfalls rfl rfl]
  · intro i
    rw [hverdicts]
    exact hplace i

end Ship

/-! ### A broadside -/

namespace Broadside

/-- A ship that is hardly shielded. -/
def target : Ship where
  id := ⟨"prey"⟩
  user := "bob"
  system := "sol"
  position := ⟨0⟩
  hp := 6
  shield := 3

/-- Three hits, the last of which is too much. -/
def hits : List UInt32 := [4, 1, 5]

end Broadside

open Broadside in
/-- A single hit of the same sum leaves the same wreck, and of the three hits the last one is reported
as the one that destroyed the ship. -/
theorem Ship.hits_compose_broadside :
    (target.absorbAll [10]).1 = (target.absorbAll hits).1 ∧
      (target.absorbAll hits).1.hp = 0 ∧ (target.absorbAll hits).2.count true = 1 ∧
      (target.absorbAll hits).2[2]? = some true := by
  obtain ⟨-, hhp, -, hgroups, -, -, hcount, hplace⟩ := hits_compose target hits
  refine ⟨hgroups [10] (by decide), UInt32.toNat_inj.mp (hhp.trans (by decide)), ?_, ?_⟩
  · exact hcount.trans (if_pos (by decide))
  · exact (hplace 2).mpr (by decide)

end Orrery
