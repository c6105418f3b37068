import Orrery.Proofs.Nearest

/-!
# Growth

Doubles are in the order of what they stand for, and packing a result does not cross any of them
(`Double.pack_brackets`).  So a sum is at least what it was added to, if the other summand is not
below zero (`Double.le_add_of_nonneg`), and at most that, if it is not above zero.

The sign of a result is known without any estimate (`Double.sign?`): packing keeps it, and squares,
their sums, roots and magnitudes are positive.
-/

namespace Orrery.Double

open Float.Model (UnpackedFloat Format totalExponent)
open Float.Model.UnpackedFloat

/-! ### Order -/

/-- The sign of a number; an undefined one has none. -/
def sign? : UnpackedFloat → Option Sign
  | .notANumber => none
  | .infinity s => some s
  | .zero s => some s
  | .finite s .. => some s

section Order

variable {u v : UnpackedFloat}

/-- Defined numbers can be compared, and the other way round the comparison is the opposite. -/
theorem compare_swap (hu : sign? u ≠ none) (hv : sign? v ≠ none) :
    ∃ o : Ordering, u.compare v = some o ∧ v.compare u = some o.swap := by
  cases u with
  | notANumber => exact absurd rfl hu
  | infinity s =>
    cases v with
    | notANumber => exact absurd rfl hv
    | infinity t | zero t | finite t => cases s <;> cases t <;> exact ⟨_, rfl, rfl⟩
  | zero s =>
    cases v with
    | notANumber => exact absurd rfl hv
    | infinity t | zero t | finite t => cases s <;> cases t <;> exact ⟨_, rfl, rfl⟩
  | finite s m e hm =>
    cases v with
    | notANumber => exact absurd rfl hv
    | infinity t | zero t => cases s <;> cases t <;> exact ⟨_, rfl, rfl⟩
    | finite t n f hn =>
      cases s <;> cases t <;> refine ⟨_, rfl, ?_⟩ <;>
        simp [UnpackedFloat.compare, Ordering.swap_then, Int.compare_swap, Nat.compare_swap]

theorem unpacked_le_eq_not_lt (hu : sign? u ≠ none) (hv : sign? v ≠ none) :
    u.le v = !v.lt u := by
  obtain ⟨o, huv, hvu⟩ := compare_swap hu hv
  rw [UnpackedFloat.le, UnpackedFloat.lt, huv, hvu]
  cases o <;> rfl

theorem sign?_of_isCanonical (hu : IsCanonical u) : sign? u ≠ none := by
  cases u with
  | infinity | notANumber => exact hu.elim
  | zero | finite => exact Option.some_ne_none _

theorem unpacked_le_iff (hu : IsCanonical u) (hv : IsCanonical v) :
    u.le v = true ↔ rational u ≤ rational v := by
  rw [unpacked_le_eq_not_lt (sign?_of_isCanonical hu) (sign?_of_isCanonical hv), Bool.not_eq_true',
    Bool.eq_false_iff, ne_eq, unpacked_lt_iff hv hu, not_lt]

/-- What is defined lies between the infinities. -/
theorem between_infinities (hu : sign? u ≠ none) :
    UnpackedFloat.le (.infinity .negative) u = true ∧ u.le (.infinity .positive) = true := by
  cases u with
  | notANumber => exact absurd rfl hu
  | infinity s => cases s <;> exact ⟨rfl, rfl⟩
  | zero | finite => exact ⟨rfl, rfl⟩

theorem eq_infinity_of_le (h : UnpackedFloat.le (.infinity .positive) u = true) :
    u = .infinity .positive := by
  cases u with
  | infinity s =>
    cases s with
    | negative => cases h
    | positive => rfl
  | notANumber | zero | finite => cases h

theorem eq_infinity_of_ge (h : u.le (.infinity .negative) = true) : u = .infinity .negative := by
  cases u with
  | infinity s =>
    cases s with
    | negative => rfl
    | positive => cases h
  | notANumber | zero | finite s => cases h

end Order

/-! ### Packing -/

section Packing

variable {u : UnpackedFloat} {x y : Float}

theorem sign?_ofFields (s : Sign) {exponent : BitVec 11} (mantissa : BitVec 52)
    (h : exponent ≠ -1#11) : sign? (ofFields s exponent mantissa) = some s := by
  unfold ofFields
  rw [if_neg h]
  split
  · split <;> rfl
  · rfl

/-- Packing keeps the sign. -/
theorem sign?_pack (u : UnpackedFloat) : sign? (Float.Model.pack u).unpack = sign? u := by
  cases u with
  | notANumber => rfl
  | infinity s | zero s => cases s <;> rfl
  | finite s m e hm =>
    have hbias : Format.binary64.exponentBias = 1023 := rfl
    show sign? (UnpackedFloat.unpack .binary64
      (UnpackedFloat.pack .binary64 (.finite s m e hm))) = _
    unfold UnpackedFloat.pack
    dsimp only
    rw [hbias]
    split
    · cases s <;> rfl
    · next hsmall =>
      generalize hfield : (e + (1023 : ℕ) + (52 : ℕ)).toNat = field at *
      split
      · rw [unpack_packComponents]
        refine sign?_ofFields s _ fun h => ?_
        have hones : (BitVec.ofNat 11 field).toNat = 2047 := by rw [h]; rfl
        rw [BitVec.toNat_ofNat] at hones
        omega
      · rw [unpack_packComponents]
        exact sign?_ofFields s _ (by decide)

/-- What is too large to be packed is larger than every finite double. -/
theorem abs_value_lt_of_large {s : Sign} {m : Nat} {e : Int} {hm : 0 < m} (hx : x.isFinite = true)
    (hu : IsCanonical (.finite s m e hm)) (he : 971 < e) : |value x| < m * 2 ^ e := by
  have hcanonical := isCanonical_unpack hx
  unfold value
  cases hunpack : x.toModel.unpack with
  | infinity | notANumber =>
    rw [hunpack] at hcanonical
    exact hcanonical.elim
  | zero t =>
    rw [rational_zero, abs_zero]
    positivity
  | finite t n f hn =>
    rw [hunpack] at hcanonical
    rw [abs_rational_finite]
    exact magnitude_lt_of_lt hcanonical hu ((exponent_unpack_le hunpack).trans_lt he)

theorem unpack_pack_of_large {s : Sign} {m : Nat} {e : Int} {hm : 0 < m} (he : 971 < e) :
    (Float.Model.pack (.finite s m e hm)).unpack = .infinity s := by
  have hsign := sign?_pack (.finite s m e hm)
  have hinfinite : (Float.Model.pack (.finite s m e hm)).unpack.isFinite = false :=
    isFinite_pack_eq_false he
  cases hunpack : (Float.Model.pack (.finite s m e hm)).unpack with
  | notANumber =>
    rw [hunpack] at hsign
    cases hsign
  | infinity t =>
    rw [hunpack] at hsign
    rw [Option.some.inj hsign]
  | zero | finite =>
    rw [hunpack] at hinfinite
    cases hinfinite

theorem le_eq (x y : Float) : x.le y = x.toModel.unpack.le y.toModel.unpack := Bool.decide_eq_true

/-- Packing does not cross a finite double, though it may lead beyond all of them. -/
theorem pack_brackets (hx : x.isFinite = true) (hu : IsCanonical u) :
    (value x ≤ rational u → x.le (.ofModel (.pack u)) = true) ∧
    (rational u ≤ value x → (Float.ofModel (.pack u)).le x = true) := by
  have hcanonical := isCanonical_unpack hx
  have hback : (Float.Model.pack u).unpack = u →
      (value x ≤ rational u → x.le (.ofModel (.pack u)) = true) ∧
      (rational u ≤ value x → (Float.ofModel (.pack u)).le x = true) := by
    intro hunpack
    rw [le_eq, le_eq, hunpack, unpacked_le_iff hcanonical hu, unpacked_le_iff hu hcanonical]
    exact ⟨id, id⟩
  cases u with
  | infinity | notANumber => exact hu.elim
  | zero s => exact hback (unpack_pack_zero s)
  | finite s m e hm =>
    by_cases he : e ≤ 971
    · exact hback (unpack_pack hu he)
    · have hbetween := between_infinities (sign?_of_isCanonical hcanonical)
      have hlarge := abs_lt.mp (abs_value_lt_of_large hx hu (not_le.mp he))
      rw [le_eq, le_eq, unpack_pack_of_large (not_le.mp he)]
      cases s with
      | negative =>
        rw [rational_negative]
        exact ⟨fun h => absurd h hlarge.1.not_ge, fun _ => hbetween.1⟩
      | positive =>
        rw [rational_positive]
        exact ⟨fun _ => hbetween.2, fun h => absurd h hlarge.2.not_ge⟩

end Packing

/-! ### Doubles -/

section Doubles

variable {x y : Float}

theorem isNaN_eq_false_iff : x.isNaN = false ↔ sign? x.toModel.unpack ≠ none := by
  show x.toModel.unpack.isNaN = false ↔ _
  cases x.toModel.unpack <;> simp [UnpackedFloat.isNaN, sign?]

theorem isNaN_of_isFinite (hx : x.isFinite = true) : x.isNaN = false :=
  isNaN_eq_false_iff.mpr (sign?_of_isCanonical (isCanonical_unpack hx))

theorem le_iff (hx : x.isFinite = true) (hy : y.isFinite = true) :
    x.le y = true ↔ value x ≤ value y := by
  rw [le_eq, unpacked_le_iff (isCanonical_unpack hx) (isCanonical_unpack hy)]
  rfl

/-- Of two defined numbers that are not in one order, the other order holds. -/
theorem le_eq_not_lt (hx : x.isNaN = false) (hy : y.isNaN = false) : x.le y = !y.lt x := by
  have hlt : y.lt x = y.toModel.unpack.lt x.toModel.unpack := Bool.decide_eq_true
  rw [le_eq, hlt]
  exact unpacked_le_eq_not_lt (isNaN_eq_false_iff.mp hx) (isNaN_eq_false_iff.mp hy)

theorem le_self (hx : x.isNaN = false) : x.le x = true := by
  obtain ⟨o, hsame, hswap⟩ := compare_swap (isNaN_eq_false_iff.mp hx) (isNaN_eq_false_iff.mp hx)
  rw [le_eq, UnpackedFloat.le, hsame]
  rw [hsame] at hswap
  cases o with
  | gt => cases hswap
  | lt | eq => rfl

theorem le_of_lt (h : x.lt y = true) : x.le y = true := by
  have hlt : x.toModel.unpack.compare y.toModel.unpack = some .lt := by
    have hlt : x.toModel.unpack.lt y.toModel.unpack = true := of_decide_eq_true h
    simpa [UnpackedFloat.lt] using hlt
  rw [le_eq, UnpackedFloat.le, hlt]
  rfl

theorem le_of_eq (h : (x == y) = true) : x.le y = true := by
  have heq : x.toModel.unpack.compare y.toModel.unpack = some .eq := by
    have heq : x.toModel.unpack.beq y.toModel.unpack = true := h
    simpa [UnpackedFloat.beq] using heq
  rw [le_eq, UnpackedFloat.le, heq]
  rfl

/-- Of two defined numbers one is at most the other. -/
theorem le_of_not_le (hx : x.isNaN = false) (hy : y.isNaN = false) (h : x.le y = false) :
    y.le x = true := by
  rw [le_eq_not_lt hx hy, Bool.not_eq_false'] at h
  exact le_of_lt h

/-- What can be compared is defined. -/
theorem isNaN_of_le (h : x.le y = true) : x.isNaN = false ∧ y.isNaN = false := by
  rw [le_eq] at h
  rw [isNaN_eq_false_iff, isNaN_eq_false_iff]
  cases hx : x.toModel.unpack with
  | notANumber =>
    rw [hx] at h
    cases h
  | infinity | zero | finite =>
    cases hy : y.toModel.unpack with
    | notANumber =>
      rw [hx, hy] at h
      cases h
    | infinity | zero | finite => exact ⟨Option.some_ne_none _, Option.some_ne_none _⟩

theorem not_isFinite_of_unpack {s : Sign} (h : x.toModel.unpack = .infinity s) :
    ¬x.isFinite = true := by
  show ¬x.toModel.unpack.isFinite = true
  rw [h]
  exact Bool.false_ne_true

theorem isFinite_or_infinity (h : x.isNaN = false) :
    x.isFinite = true ∨ ∃ s, x.toModel.unpack = .infinity s := by
  rw [isNaN_eq_false_iff] at h
  show x.toModel.unpack.isFinite = true ∨ _
  cases hx : x.toModel.unpack with
  | notANumber =>
    rw [hx] at h
    exact absurd rfl h
  | infinity s => exact .inr ⟨s, rfl⟩
  | zero | finite => exact .inl rfl

theorem le_trans {z : Float} (hxy : x.le y = true) (hyz : y.le z = true) : x.le z = true := by
  obtain ⟨hx, hy⟩ := isNaN_of_le hxy
  obtain ⟨-, hz⟩ := isNaN_of_le hyz
  have habove := (between_infinities (isNaN_eq_false_iff.mp hx)).2
  have hbelow := (between_infinities (isNaN_eq_false_iff.mp hz)).1
  rcases isFinite_or_infinity hx with hxfinite | ⟨s, hs⟩
  · rcases isFinite_or_infinity hy with hyfinite | ⟨s, hs⟩
    · rcases isFinite_or_infinity hz with hzfinite | ⟨s, hs⟩
      · rw [le_iff hxfinite hyfinite] at hxy
        rw [le_iff hyfinite hzfinite] at hyz
        exact (le_iff hxfinite hzfinite).mpr (hxy.trans hyz)
      · rw [le_eq, hs] at hyz ⊢
        cases s with
        | positive => exact habove
        | negative => exact absurd hyfinite (not_isFinite_of_unpack (eq_infinity_of_ge hyz))
    · rw [le_eq, hs] at hxy hyz
      cases s with
      | positive => exact (le_eq x z).trans (eq_infinity_of_le hyz ▸ habove)
      | negative => exact absurd hxfinite (not_isFinite_of_unpack (eq_infinity_of_ge hxy))
  · rw [le_eq, hs] at hxy ⊢
    cases s with
    | negative => exact hbelow
    | positive =>
      rw [le_eq, eq_infinity_of_le hxy] at hyz
      rw [eq_infinity_of_le hyz]
      rfl

theorem eq_of_le_of_le (hxy : x.le y = true) (hyx : y.le x = true) : (x == y) = true := by
  obtain ⟨hx, hy⟩ := isNaN_of_le hxy
  obtain ⟨o, hcompare, hswap⟩ := compare_swap (isNaN_eq_false_iff.mp hx) (isNaN_eq_false_iff.mp hy)
  rw [le_eq, UnpackedFloat.le, hcompare] at hxy
  rw [le_eq, UnpackedFloat.le, hswap] at hyx
  show x.toModel.unpack.beq y.toModel.unpack = true
  rw [UnpackedFloat.beq, hcompare]
  cases o with
  | lt => cases hyx
  | eq => rfl
  | gt => cases hxy

/-- What is at least a finite number and not finite itself is beyond all of them. -/
theorem le_of_overflow {z : Float} (hx : x.isFinite = true) (hz : z.isNaN = false)
    (h : x.le y = true) (hy : y.isFinite = false) : z.le y = true := by
  rcases isFinite_or_infinity (isNaN_of_le h).2 with hfinite | ⟨s, hs⟩
  · rw [hfinite] at hy
    cases hy
  · rw [le_eq, hs] at h ⊢
    cases s with
    | negative => exact absurd hx (not_isFinite_of_unpack (eq_infinity_of_ge h))
    | positive => exact (between_infinities (isNaN_eq_false_iff.mp hz)).2

theorem unpack_add_infinity {s : Sign} (hx : x.isFinite = true)
    (hy : y.toModel.unpack = .infinity s) : (x + y).toModel.unpack = .infinity s := by
  have hfinite : x.toModel.unpack.isFinite = true := hx
  have hsum : UnpackedFloat.add .binary64 x.toModel.unpack y.toModel.unpack = .infinity s := by
    rw [hy]
    cases hunpack : x.toModel.unpack with
    | infinity | notANumber =>
      rw [hunpack] at hfinite
      cases hfinite
    | zero | finite => rfl
  show (Float.Model.pack (UnpackedFloat.add .binary64 x.toModel.unpack y.toModel.unpack)).unpack = _
  rw [hsum]
  cases s <;> rfl

theorem isNaN_add (hx : x.isFinite = true) (hy : y.isNaN = false) : (x + y).isNaN = false := by
  rcases isFinite_or_infinity hy with hfinite | ⟨s, hs⟩
  · have hsum := sign?_pack (UnpackedFloat.add .binary64 x.toModel.unpack y.toModel.unpack)
    exact isNaN_eq_false_iff.mpr (hsum.trans_ne (sign?_of_isCanonical
      (isRounded_add (isCanonical_unpack hx) (isCanonical_unpack hfinite)).canonical))
  · rw [isNaN_eq_false_iff, unpack_add_infinity hx hs]
    exact Option.some_ne_none _

theorem isFinite_zero : (0.0 : Float).isFinite = true := rfl

/-- Adding what is not below zero does not lead down. -/
theorem le_add_of_nonneg (hx : x.isFinite = true) (hy : (0.0 : Float).le y = true) :
    x.le (x + y) = true := by
  rcases isFinite_or_infinity (isNaN_of_le hy).2 with hfinite | ⟨s, hinfinite⟩
  · obtain ⟨hcanonical, hup, -⟩ := add_brackets (isCanonical_unpack hx) (isCanonical_unpack hfinite)
    exact (pack_brackets hx hcanonical).1 (hup ((le_iff isFinite_zero hfinite).mp hy))
  · rw [le_eq, hinfinite] at hy
    rw [le_eq, unpack_add_infinity hx hinfinite]
    cases s with
    | negative => cases hy
    | positive => exact (between_infinities (sign?_of_isCanonical (isCanonical_unpack hx))).2

/-- Adding what is not above zero does not lead up. -/
theorem add_le_of_nonpos (hx : x.isFinite = true) (hy : y.le 0.0 = true) :
    (x + y).le x = true := by
  rcases isFinite_or_infinity (isNaN_of_le hy).1 with hfinite | ⟨s, hinfinite⟩
  · obtain ⟨hcanonical, -, hdown⟩ :=
      add_brackets (isCanonical_unpack hx) (isCanonical_unpack hfinite)
    exact (pack_brackets hx hcanonical).2 (hdown ((le_iff hfinite isFinite_zero).mp hy))
  · rw [le_eq, hinfinite] at hy
    rw [le_eq, unpack_add_infinity hx hinfinite]
    cases s with
    | negative => exact (between_infinities (sign?_of_isCanonical (isCanonical_unpack hx))).1
    | positive => cases hy

theorem unpacked_beq_self {u : UnpackedFloat} (hu : sign? u ≠ none) : u.beq u = true := by
  rw [beq_iff_ne_notANumber_and_eq]
  have hdefined : u ≠ .notANumber := by
    rintro rfl
    exact hu rfl
  exact ⟨hdefined, hdefined, .inl rfl⟩

/-- Added to anything, the two zeros lead to equal numbers. -/
theorem add_zeros (s t : Sign) {v : UnpackedFloat} (hv : sign? v ≠ none) :
    (Float.Model.pack (UnpackedFloat.add .binary64 (.zero s) v)).unpack.beq
      (Float.Model.pack (UnpackedFloat.add .binary64 (.zero t) v)).unpack = true := by
  have hself : sign? (Float.Model.pack v).unpack ≠ none := (sign?_pack v).trans_ne hv
  cases v with
  | notANumber => exact absurd rfl hv
  | zero r => cases s <;> cases t <;> cases r <;> rfl
  | infinity | finite => exact unpacked_beq_self hself

/-- Equal numbers lead to equal sums.  The two zeros are equal, though they are different. -/
theorem add_congr {x' : Float} (h : (x == x') = true) (hx : x.isFinite = true)
    (hy : y.isNaN = false) : (x + y == x' + y) = true := by
  have hsum := isNaN_add hx hy
  rw [isNaN_eq_false_iff] at hy hsum
  obtain ⟨-, -, rfl | ⟨rfl, rfl⟩ | ⟨rfl, rfl⟩⟩ := Float.beq_iff_ne_nan_and_eq.mp h
  · exact unpacked_beq_self hsum
  · exact add_zeros .positive .negative hy
  · exact add_zeros .negative .positive hy

/-! ### Signs of results -/

theorem sign?_roundWithAccuracy (s : Sign) (m : Nat) (e : Int) (accuracy : Accuracy) :
    sign? (roundWithAccuracy .binary64 s m e accuracy) = some s := by
  unfold roundWithAccuracy
  dsimp only
  split <;> rfl

theorem exists_unpack_of_isPositive (hx : Scalar.isPositive x = true) :
    ∃ m e hm, x.toModel.unpack = .finite .positive m e hm := by
  have hfinite : x.toModel.unpack.isFinite = true := isFinite_of_isPositive hx
  have hle : UnpackedFloat.le x.toModel.unpack (.zero .positive) = false := by
    rw [Scalar.isPositive, Bool.and_eq_true, Bool.not_eq_true'] at hx
    exact (le_eq ..).symm.trans hx.2
  cases hunpack : x.toModel.unpack with
  | infinity | notANumber =>
    rw [hunpack] at hfinite
    cases hfinite
  | zero s =>
    rw [hunpack] at hle
    cases hle
  | finite s m e hm =>
    rw [hunpack] at hle
    cases s with
    | negative => cases hle
    | positive => exact ⟨m, e, hm, rfl⟩

theorem sign?_normalize {n : ℤ} {e : Int} (hn : 0 ≤ n) :
    sign? (UnpackedFloat.normalize .binary64 n e .positive) = some .positive := by
  rw [normalize_eq, if_neg hn.not_gt]
  split
  · rfl
  · exact sign?_roundWithAccuracy ..

theorem positive_mul (s : Sign) : .positive * s = s := by cases s <;> rfl

/-- Multiplying by a positive number keeps the sign, and that a number is undefined. -/
theorem sign?_mul (hx : Scalar.isPositive x = true) :
    sign? (x * y).toModel.unpack = sign? y.toModel.unpack := by
  obtain ⟨m, e, hm, hunpack⟩ := exists_unpack_of_isPositive hx
  refine (sign?_pack (UnpackedFloat.mul .binary64 x.toModel.unpack y.toModel.unpack)).trans ?_
  rw [hunpack]
  cases y.toModel.unpack with
  | notANumber => rfl
  | infinity t | zero t => exact congrArg some (positive_mul t)
  | finite t n f hn => exact (sign?_roundWithAccuracy ..).trans (congrArg some (positive_mul t))

theorem sign?_mul_self (hx : x.isNaN = false) : sign? (x * x).toModel.unpack = some .positive := by
  rw [isNaN_eq_false_iff] at hx
  refine (sign?_pack (UnpackedFloat.mul .binary64 x.toModel.unpack x.toModel.unpack)).trans ?_
  cases hunpack : x.toModel.unpack with
  | notANumber =>
    rw [hunpack] at hx
    exact absurd rfl hx
  | infinity s | zero s => cases s <;> rfl
  | finite s m e hm => cases s <;> exact sign?_roundWithAccuracy ..

theorem sign?_add (hx : sign? x.toModel.unpack = some .positive)
    (hy : sign? y.toModel.unpack = some .positive) :
    sign? (x + y).toModel.unpack = some .positive := by
  refine (sign?_pack (UnpackedFloat.add .binary64 x.toModel.unpack y.toModel.unpack)).trans ?_
  generalize x.toModel.unpack = u at *
  generalize y.toModel.unpack = v at *
  cases u with
  | notANumber => cases hx
  | infinity s | zero s =>
    cases hx
    cases v <;> cases hy <;> rfl
  | finite s m e hm =>
    cases hx
    cases v with
    | notANumber => cases hy
    | infinity t | zero t =>
      cases hy
      rfl
    | finite t n f hn =>
      cases hy
      exact sign?_normalize (Int.add_nonneg (Int.natCast_nonneg _) (Int.natCast_nonneg _))

theorem sign?_sqrt (hx : sign? x.toModel.unpack = some .positive) :
    sign? x.sqrt.toModel.unpack = some .positive := by
  refine (sign?_pack (UnpackedFloat.sqrt .binary64 x.toModel.unpack)).trans ?_
  cases hunpack : x.toModel.unpack with
  | notANumber =>
    rw [hunpack] at hx
    cases hx
  | infinity s | zero s | finite s =>
    rw [hunpack] at hx
    cases hx
    first | rfl | exact sign?_roundWithAccuracy ..

theorem sign?_abs (hx : x.isNaN = false) : sign? x.abs.toModel.unpack = some .positive := by
  rw [isNaN_eq_false_iff] at hx
  refine (sign?_pack x.toModel.unpack.abs).trans ?_
  cases hunpack : x.toModel.unpack with
  | notANumber =>
    rw [hunpack] at hx
    exact absurd rfl hx
  | infinity | zero | finite => rfl

theorem isNaN_sub (hx : x.isFinite = true) (hy : y.isFinite = true) : (x - y).isNaN = false := by
  rw [isNaN_eq_false_iff]
  refine (sign?_pack (UnpackedFloat.sub .binary64 x.toModel.unpack y.toModel.unpack)).trans_ne ?_
  have hrounded := isRounded_sub (isCanonical_unpack hx) (isCanonical_unpack hy)
  exact sign?_of_isCanonical hrounded.canonical

theorem zero_le_iff : (0.0 : Float).le x = true ↔
    sign? x.toModel.unpack = some .positive ∨ x.toModel.unpack = .zero .negative := by
  rw [le_eq]
  show UnpackedFloat.le (.zero .positive) _ = true ↔ _
  cases x.toModel.unpack with
  | notANumber => exact iff_of_false Bool.false_ne_true (by simp [sign?])
  | infinity s | zero s | finite s =>
    cases s <;> simp [UnpackedFloat.le, UnpackedFloat.compare, sign?]

theorem unpack_mul_zero {s : Sign} (hx : Scalar.isPositive x = true)
    (hy : y.toModel.unpack = .zero s) : (x * y).toModel.unpack = .zero s := by
  obtain ⟨m, e, hm, hunpack⟩ := exists_unpack_of_isPositive hx
  have hproduct : UnpackedFloat.mul .binary64 (.finite .positive m e hm) (.zero s) = .zero s :=
    congrArg UnpackedFloat.zero (positive_mul s)
  show (Float.Model.pack (UnpackedFloat.mul .binary64 x.toModel.unpack y.toModel.unpack)).unpack = _
  rw [hunpack, hy, hproduct, unpack_pack_zero]

/-- Multiplying by a positive number does not lead across zero. -/
theorem zero_le_mul (hx : Scalar.isPositive x = true) (hy : (0.0 : Float).le y = true) :
    (0.0 : Float).le (x * y) = true := by
  rw [zero_le_iff, sign?_mul hx]
  exact (zero_le_iff.mp hy).imp_right (unpack_mul_zero hx)

/-! ### What is defined -/

theorem isNaN_mul_of_isPositive (hx : Scalar.isPositive x = true) (hy : y.isNaN = false) :
    (x * y).isNaN = false := by
  rw [isNaN_eq_false_iff] at hy ⊢
  rwa [sign?_mul hx]

theorem isNaN_mul (hx : x.isFinite = true) (hne : (x == 0.0) = false) (hy : y.isNaN = false) :
    (x * y).isNaN = false := by
  rw [isNaN_eq_false_iff] at hy ⊢
  have hfinite : x.toModel.unpack.isFinite = true := hx
  have hne : x.toModel.unpack.beq (.zero .positive) = false := hne
  have hsign := sign?_pack (UnpackedFloat.mul .binary64 x.toModel.unpack y.toModel.unpack)
  refine hsign.trans_ne ?_
  cases hunpack : x.toModel.unpack with
  | infinity | notANumber =>
    rw [hunpack] at hfinite
    cases hfinite
  | zero s =>
    rw [hunpack] at hne
    cases hne
  | finite s m e hm =>
    cases hother : y.toModel.unpack with
    | notANumber =>
      rw [hother] at hy
      exact absurd rfl hy
    | infinity | zero => exact Option.some_ne_none _
    | finite t n f hn =>
      rw [UnpackedFloat.mul, sign?_roundWithAccuracy]
      exact Option.some_ne_none _

theorem isNaN_larger (hx : x.isNaN = false) (hy : y.isNaN = false) :
    (larger x y).isNaN = false := by
  unfold larger
  rw [hx, hy]
  split
  · assumption
  · split <;> assumption

theorem zero_le_larger (hx : x.isNaN = false) : (0.0 : Float).le (larger x 0.0) = true := by
  have hzero := isNaN_of_isFinite isFinite_zero
  unfold larger
  rw [hx, hzero, if_neg Bool.false_ne_true, if_neg Bool.false_ne_true]
  split
  · exact le_self hzero
  · next hlt =>
    rw [le_eq_not_lt hzero hx, Bool.not_eq_true']
    exact Bool.eq_false_iff.mpr hlt

/-- The smaller of two numbers is defined if one of them is. -/
theorem isNaN_smaller (hx : x.isNaN = false) : (smaller x y).isNaN = false := by
  unfold smaller
  rw [hx, if_neg Bool.false_ne_true]
  split
  · exact hx
  · next hy =>
    split
    · exact Bool.eq_false_iff.mpr hy
    · exact hx

theorem isNaN_abs (hx : x.isNaN = false) : x.abs.isNaN = false := by
  rw [isNaN_eq_false_iff, sign?_abs hx]
  exact Option.some_ne_none _

theorem isNaN_withSignOf (hx : x.isNaN = false) : (withSignOf x y).isNaN = false := by
  have habs := isNaN_abs hx
  unfold withSignOf
  split
  · rw [isNaN_eq_false_iff] at habs ⊢
    refine (sign?_pack x.abs.toModel.unpack.neg).trans_ne ?_
    cases hunpack : x.abs.toModel.unpack with
    | notANumber =>
      rw [hunpack] at habs
      exact absurd rfl habs
    | infinity | zero | finite => exact Option.some_ne_none _
  · exact habs

end Doubles

end Orrery.Double
