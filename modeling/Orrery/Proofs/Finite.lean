import Orrery.Proofs.Document
import Orrery.Proofs.Upkeep

/-!
# Finite numbers

The arithmetic operations and the square root lead out of the finite numbers, but not back into
them: what has a finite result had finite operands.  So a vector that passes for a unit vector is
finite, and with it all parameters of a valid rule (`Rule.isFinite_of_validate`).

A number that is not finite is written as null.  Where a number has to be, null cannot be read, so a
snapshot reads back only if the kinematic states in it are finite (`Snapshot.load_save_iff`).
-/

namespace Orrery

open Json (Value)

/-! ### Operands -/

namespace Double

open Float.Model (UnpackedFloat)

/-- Packing makes nothing finite that is not. -/
theorem isFinite_of_pack {u : UnpackedFloat}
    (h : (Float.ofModel (.pack u)).isFinite = true) : u.isFinite = true := by
  cases u with
  | notANumber =>
    revert h
    decide +kernel
  | infinity s =>
    revert h
    cases s <;> decide +kernel
  | zero | finite => rfl

/-- An operation whose result is finite only if both operands are. -/
def IsStrict (op : UnpackedFloat → UnpackedFloat → UnpackedFloat) : Prop :=
  ∀ u v, (op u v).isFinite = true → u.isFinite = true ∧ v.isFinite = true

theorem isStrict_add : IsStrict (.add .binary64) := by
  intro u v h
  cases u with
  | notANumber => cases h
  | infinity s =>
    cases v with
    | infinity t => cases s <;> cases t <;> cases h
    | notANumber | zero | finite => cases h
  | zero | finite =>
    cases v with
    | notANumber | infinity => cases h
    | zero | finite => exact ⟨rfl, rfl⟩

theorem isStrict_sub : IsStrict (.sub .binary64) := by
  intro u v h
  cases u with
  | notANumber => cases h
  | infinity s =>
    cases v with
    | infinity t => cases s <;> cases t <;> cases h
    | notANumber | zero | finite => cases h
  | zero | finite =>
    cases v with
    | notANumber | infinity => cases h
    | zero | finite => exact ⟨rfl, rfl⟩

theorem isStrict_mul : IsStrict (.mul .binary64) := by
  intro u v h
  cases u with
  | notANumber => cases h
  | infinity s => cases v <;> cases h
  | zero | finite =>
    cases v with
    | notANumber | infinity => cases h
    | zero | finite => exact ⟨rfl, rfl⟩

variable {x y : Float}

theorem isFinite_of_add (h : (x + y).isFinite = true) : x.isFinite = true ∧ y.isFinite = true :=
  isStrict_add _ _ (isFinite_of_pack h)

theorem isFinite_of_sub (h : (x - y).isFinite = true) : x.isFinite = true ∧ y.isFinite = true :=
  isStrict_sub _ _ (isFinite_of_pack h)

theorem isFinite_of_mul (h : (x * y).isFinite = true) : x.isFinite = true ∧ y.isFinite = true :=
  isStrict_mul _ _ (isFinite_of_pack h)

theorem isFinite_of_sqrt (h : x.sqrt.isFinite = true) : x.isFinite = true := by
  have hroot : (UnpackedFloat.sqrt .binary64 x.toModel.unpack).isFinite = true := isFinite_of_pack h
  show x.toModel.unpack.isFinite = true
  cases hx : x.toModel.unpack with
  | notANumber =>
    rw [hx] at hroot
    cases hroot
  | infinity s =>
    rw [hx] at hroot
    cases s <;> cases hroot
  | zero | finite => rfl

/-- A number is finite if its magnitude is below the tolerance. -/
theorem isFinite_of_abs_lt_tolerance
    (h : Scalar.lt (Scalar.abs x) (Scalar.tolerance : Float) = true) : x.isFinite = true := by
  have hlt : (Float.ofModel (.pack (UnpackedFloat.abs x.toModel.unpack))).lt 1e-6 = true := h
  show x.toModel.unpack.isFinite = true
  cases hx : x.toModel.unpack with
  | notANumber =>
    rw [hx] at hlt
    revert hlt
    decide +kernel
  | infinity s =>
    rw [hx] at hlt
    revert hlt
    cases s <;> decide +kernel
  | zero | finite => rfl

/-- A number is finite if it lies between zero and one. -/
theorem isFinite_of_between (hle : (Scalar.zero : Float).le x = true)
    (hlt : x.lt (Scalar.one : Float) = true) : x.isFinite = true := by
  have hle : UnpackedFloat.le (0.0 : Float).toModel.unpack x.toModel.unpack = true :=
    of_decide_eq_true hle
  have hlt : UnpackedFloat.lt x.toModel.unpack (1.0 : Float).toModel.unpack = true :=
    of_decide_eq_true hlt
  show x.toModel.unpack.isFinite = true
  cases hx : x.toModel.unpack with
  | notANumber =>
    rw [hx] at hlt
    cases hlt
  | infinity s =>
    rw [hx] at hle hlt
    revert hle hlt
    cases s <;> decide +kernel
  | zero | finite => rfl

theorem isFinite_of_isPositive (h : Scalar.isPositive x = true) : x.isFinite = true := by
  rw [Scalar.isPositive, Bool.and_eq_true] at h
  exact h.1

end Double

/-! ### Rules -/

theorem Vec3.isFinite_iff {v : Point} :
    v.isFinite = true ↔ ∀ x ∈ v.numbers, x.isFinite = true := by
  have hscalar : ∀ x : Float, Scalar.isFinite x = x.isFinite := fun _ => rfl
  simp [isFinite, numbers, hscalar, and_assoc]

theorem Vec3.isFinite_iff_coords {v : Point} : v.isFinite = true ↔
    v.x.isFinite = true ∧ v.y.isFinite = true ∧ v.z.isFinite = true := by
  simp [isFinite_iff, numbers]

/-- No sum of squares is finite unless each of them is. -/
theorem Vec3.isFinite_of_dot_self {v : Point} (h : (v.dot v).isFinite = true) :
    v.isFinite = true := by
  obtain ⟨hxy, hz⟩ := Double.isFinite_of_add h
  obtain ⟨hx, hy⟩ := Double.isFinite_of_add hxy
  exact isFinite_iff_coords.mpr ⟨(Double.isFinite_of_mul hx).1, (Double.isFinite_of_mul hy).1,
    (Double.isFinite_of_mul hz).1⟩

/-- The length of a unit vector is close to one, and so the sum of squares is finite. -/
theorem Vec3.isFinite_of_isNormalized {v : Point} (h : v.isNormalized = true) :
    ∀ x ∈ v.numbers, x.isFinite = true := by
  have hdot : (v.dot v).isFinite = true :=
    Double.isFinite_of_sqrt (Double.isFinite_of_sub (Double.isFinite_of_abs_lt_tolerance h)).1
  exact isFinite_iff.mp (isFinite_of_dot_self hdot)

theorem Spin.isFinite_of_validate {s : Spin Float} (h : s.validate = .ok ()) :
    ∀ x ∈ s.numbers, x.isFinite = true := by
  obtain ⟨⟨hspeed, -⟩, haxis, hstop⟩ := validate_eq_ok_iff.mp h
  rw [numbers, List.forall_mem_append, List.forall_mem_cons]
  refine ⟨Vec3.isFinite_of_isNormalized haxis, hspeed, ?_⟩
  intro stop hmem
  exact (hstop stop (Option.mem_toList.mp hmem)).1

theorem Cruise.isFinite_of_validate {c : Cruise Float} (h : c.validate = .ok ()) :
    ∀ x ∈ c.numbers, x.isFinite = true := by
  obtain ⟨hdirection, hspeed, hstop, hspin⟩ := validate_eq_ok_iff.mp h
  simp only [numbers, List.forall_mem_append, List.forall_mem_cons, List.forall_mem_flatMap,
    Option.mem_toList]
  refine ⟨Vec3.isFinite_of_isNormalized hdirection, Double.isFinite_of_isPositive hspeed, ?_, ?_⟩
  · exact fun stop hmem => Double.isFinite_of_isPositive (hstop stop hmem)
  · exact fun spin hmem => Spin.isFinite_of_validate (hspin spin hmem)

theorem Orbit.isFinite_of_validate {o : Orbit Float} (h : o.validate = .ok ()) :
    ∀ x ∈ o.numbers, x.isFinite = true := by
  obtain ⟨hlatus, heccentricity, hspeed, haxes, -, hanomaly⟩ := validate_eq_ok_iff.mp h
  simp only [numbers, List.forall_mem_append, List.forall_mem_cons]
  have heccentricity := Double.isFinite_of_between heccentricity.1 heccentricity.2
  exact ⟨Double.isFinite_of_isPositive hlatus, heccentricity, Double.isFinite_of_isPositive hspeed,
    hanomaly, Vec3.isFinite_of_isNormalized haxes.1, Vec3.isFinite_of_isNormalized haxes.2⟩

theorem Pursuit.isFinite_of_validate {p : Pursuit Float} (h : p.validate = .ok ()) :
    ∀ x ∈ p.numbers, x.isFinite = true := by
  obtain ⟨⟨hdistance, -⟩, hspeed, hoffset⟩ := validate_eq_ok_iff.mp h
  rw [numbers, List.forall_mem_cons, List.forall_mem_cons]
  exact ⟨hdistance, Double.isFinite_of_isPositive hspeed, Vec3.isFinite_iff.mp hoffset⟩

/-- All parameters of a valid rule are finite. -/
theorem Rule.isFinite_of_validate {r : Rule Float} (h : r.validate = .ok ()) :
    ∀ x ∈ r.numbers, x.isFinite = true := by
  cases r with
  | rest => exact fun _ hx => absurd hx List.not_mem_nil
  | cruise c => exact Cruise.isFinite_of_validate h
  | orbit o => exact Orbit.isFinite_of_validate h
  | spin s => exact Spin.isFinite_of_validate h
  | pursuit p => exact Pursuit.isFinite_of_validate h

/-! ### Documents -/

/-- What comes after something that was read decides. -/
theorem Json.Value.rest_of_read {α β : Type} {x : Option α} {a : α} {f : α → Option β} {b : β}
    (h : (x >>= f) = some b) (hx : x = some a) : f a = some b := by
  rw [hx] at h
  exact h

theorem Json.Value.exists_read_of_list? {α β : Type} {read : Value → Option β} {write : α → Value}
    {items : List α} {bs : List β} (h : list? read (ofList write items) = some bs) :
    ∀ a ∈ items, ∃ b, read (write a) = some b := by
  change (items.map write).mapM read = some bs at h
  induction items generalizing bs with
  | nil => exact fun _ ha => absurd ha List.not_mem_nil
  | cons a items ih =>
    rw [List.map_cons, List.mapM_cons] at h
    obtain ⟨b, hb, h⟩ := Option.bind_eq_some_iff.mp h
    obtain ⟨rest, hrest, -⟩ := Option.bind_eq_some_iff.mp h
    exact List.forall_mem_cons.mpr ⟨⟨b, hb⟩, ih hrest⟩

section Documents

variable [Numeral.Reading]

theorem Json.Value.isFinite_of_float? {x y : Float} (h : (ofFloat x).float? = some y) :
    x.isFinite = true := by
  by_contra hfinite
  rw [ofFloat, if_neg hfinite] at h
  cases h

theorem Vec3.isFinite_of_ofDocument? {v v' : Point} (h : ofDocument? v.document = some v') :
    ∀ x ∈ v.numbers, x.isFinite = true := by
  have h := Value.rest_of_read h (Value.fields?_record rfl (by decide))
  obtain ⟨x, hx, h⟩ := Option.bind_eq_some_iff.mp h
  obtain ⟨y, hy, h⟩ := Option.bind_eq_some_iff.mp h
  obtain ⟨z, hz, -⟩ := Option.bind_eq_some_iff.mp h
  have hx := Value.isFinite_of_float? hx
  have hy := Value.isFinite_of_float? hy
  have hz := Value.isFinite_of_float? hz
  simp [numbers, hx, hy, hz]

/-- A kinematic state reads back only if it is finite, since all of its numbers have to be there. -/
theorem Kinematics.isFinite_of_ofDocument? {k k' : Kinematics Float}
    (h : ofDocument? k.document = some k') : ∀ x ∈ k.numbers, x.isFinite = true := by
  have h := Value.rest_of_read h (Value.fields?_record rfl (by decide))
  obtain ⟨coords, hcoords, h⟩ := Option.bind_eq_some_iff.mp h
  obtain ⟨orientation, horientation, h⟩ := Option.bind_eq_some_iff.mp h
  obtain ⟨moved, hmoved, h⟩ := Option.bind_eq_some_iff.mp h
  obtain ⟨rotated, hrotated, -⟩ := Option.bind_eq_some_iff.mp h
  simp only [numbers, List.forall_mem_cons, List.forall_mem_append]
  exact ⟨Value.isFinite_of_float? hmoved, Value.isFinite_of_float? hrotated,
    Vec3.isFinite_of_ofDocument? hcoords, Vec3.isFinite_of_ofDocument? horientation⟩

theorem Position.isFinite_of_ofDocument? {room : Nat} {p p' : Position}
    (h : ofDocument? room p.document = some p') : ∀ x ∈ p.state.numbers, x.isFinite = true := by
  have h := Value.rest_of_read h (Value.fields?_record rfl (by decide))
  obtain ⟨id, -, h⟩ := Option.bind_eq_some_iff.mp h
  obtain ⟨parent, -, h⟩ := Option.bind_eq_some_iff.mp h
  obtain ⟨state, hstate, -⟩ := Option.bind_eq_some_iff.mp h
  exact Kinematics.isFinite_of_ofDocument? hstate

theorem Tracked.isFinite_of_ofDocument? {room : Nat} {t t' : Tracked}
    (h : ofDocument? room t.document = some t') :
    ∀ x ∈ t.position.state.numbers, x.isFinite = true := by
  have h := Value.rest_of_read h (Value.fields?_record rfl (by decide))
  obtain ⟨p, hp, -⟩ := Option.bind_eq_some_iff.mp h
  exact Position.isFinite_of_ofDocument? hp

/-- A snapshot whose other numbers are finite and whose rules are valid reads back from its own text
if and only if the kinematic states of its positions are finite. -/
theorem Snapshot.load_save_iff {s : Snapshot}
    (hrules : ∀ t ∈ s.positions, t.position.rule.validate = .ok ())
    (hothers : ∀ x ∈ (⟨[], s.entities, s.commands⟩ : Snapshot).numbers, x.isFinite = true)
    (hreadable : ∀ x ∈ s.numbers, Numeral.IsReadable x) :
    (∃ s', load s.save = .ok s') ↔
      ∀ t ∈ s.positions, ∀ x ∈ t.position.state.numbers, x.isFinite = true := by
  constructor
  · rintro ⟨s', h⟩ t ht
    rw [load, parse?_save hreadable, Option.bind_some] at h
    split at h
    · cases h
    · next r hread =>
      have hread := Value.rest_of_read hread (Value.fields?_record rfl (by decide))
      obtain ⟨positions, hpositions, -⟩ := Option.bind_eq_some_iff.mp hread
      obtain ⟨t', ht'⟩ := Value.exists_read_of_list? hpositions t ht
      exact Tracked.isFinite_of_ofDocument? ht'
  · intro hstates
    have hfinite : ∀ x ∈ s.numbers, x.isFinite = true := by
      simp only [numbers, List.forall_mem_append, List.forall_mem_flatMap] at hothers ⊢
      refine ⟨⟨fun t ht => ?_, hothers.1.2⟩, hothers.2⟩
      rw [Tracked.numbers, List.forall_mem_append]
      exact ⟨hstates t ht, Rule.isFinite_of_validate (hrules t ht)⟩
    exact ⟨s.silenced, load_save s hfinite fun x hx => hreadable x hx (hfinite x hx)⟩

end Documents

end Orrery
