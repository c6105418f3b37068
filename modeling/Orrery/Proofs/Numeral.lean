import Mathlib.Data.List.TakeWhile
import Orrery.Decimal.Layout
import Orrery.Decimal.Numeral

/-!
# Numerals that are written

A numeral consists of a few kinds of characters only (`Numeral.isChar_of_parse?`), and the digits of
a natural number that fits in a word of 64 bits read back as that number
(`Numeral.parse?_digitsOf`).
-/

namespace Orrery.Numeral

/-! ### Characters -/

/-- Whether a character may occur in a numeral. -/
def isChar (c : Char) : Bool :=
  c.isDigit || c == '-' || c == '+' || c == '.' || c == 'e' || c == 'E'

theorem isChar_of_isDigit {c : Char} (h : c.isDigit = true) : isChar c = true := by simp [isChar, h]

theorem isChar_of_exponentPart? {cs : List Char} {e : Int} (h : exponentPart? cs = some e) :
    ∀ c ∈ cs, isChar c = true := by
  cases cs with
  | nil => simp
  | cons mark rest =>
    simp only [exponentPart?] at h
    by_cases hmark : (mark == 'e' || mark == 'E') = true
    · rw [if_pos hmark] at h
      have hmark : isChar mark = true := by
        rcases (Bool.or_eq_true ..).mp hmark with h | h <;> rw [eq_of_beq h] <;> rfl
      refine List.forall_mem_cons.mpr ⟨hmark, ?_⟩
      -- an optional sign, then digits
      cases rest with
      | nil => simp
      | cons sign digits =>
        by_cases hsign : sign = '-' ∨ sign = '+'
        · have hdigits : ∀ c ∈ digits, c.isDigit = true := by
            rcases hsign with rfl | rfl <;> simp_all
          refine List.forall_mem_cons.mpr ⟨?_, fun c hc => isChar_of_isDigit (hdigits c hc)⟩
          rcases hsign with rfl | rfl <;> rfl
        · have hall : ∀ c ∈ sign :: digits, c.isDigit = true := by
            obtain ⟨hminus, hplus⟩ := not_or.mp hsign
            simp_all
          exact fun c hc => isChar_of_isDigit (hall c hc)
    · rw [if_neg hmark] at h
      cases h

theorem isChar_of_parse? {text : List Char} {n : Numeral} (h : parse? text = some n) :
    ∀ c ∈ text, isChar c = true := by
  have hsplit : ∀ {cs : List Char}, (∀ c ∈ cs.dropWhile Char.isDigit, isChar c = true) →
      ∀ c ∈ cs, isChar c = true := by
    intro cs hrest c hc
    rw [← List.takeWhile_append_dropWhile (p := Char.isDigit) (l := cs)] at hc
    rcases List.mem_append.mp hc with hc | hc
    · exact isChar_of_isDigit (List.mem_takeWhile_imp hc)
    · exact hrest c hc
  simp only [parse?] at h
  generalize hbody : (if (text.head? == some '-') = true then text.tail else text) = body at h
  have hchars : ∀ c ∈ body, isChar c = true := by
    apply hsplit
    split at h
    · cases h
    · split at h
      · next hnil => simp [hnil]
      · next more hmore =>
        rw [hmore]
        refine List.forall_mem_cons.mpr ⟨rfl, hsplit ?_⟩
        split at h
        · cases h
        · obtain ⟨e, he, -⟩ := Option.bind_eq_some_iff.mp h
          exact isChar_of_exponentPart? he
      · obtain ⟨e, he, -⟩ := Option.bind_eq_some_iff.mp h
        exact isChar_of_exponentPart? he
  intro c hc
  cases text with
  | nil => cases hc
  | cons sign rest =>
    by_cases hsign : sign = '-'
    · subst hsign
      rcases List.mem_cons.mp hc with rfl | hc
      · rfl
      · exact hchars c (by rw [← hbody]; exact hc)
    · exact hchars c (by rw [← hbody, if_neg (by simpa using hsign)]; exact hc)

theorem ne_nil_of_parse? {text : List Char} {n : Numeral} (h : parse? text = some n) :
    text ≠ [] := by
  rintro rfl
  cases h

/-! ### Natural numbers -/

theorem le_ofDigitChars (cs : List Char) (n : Nat) : n ≤ Nat.ofDigitChars 10 cs n := by
  induction cs generalizing n with
  | nil => exact Nat.le_refl n
  | cons c cs ih =>
    rw [Nat.ofDigitChars_cons]
    exact Nat.le_trans (by omega) (ih _)

theorem appendDigits_eq {cs : List Char} {n : Nat} (h : Nat.ofDigitChars 10 cs n < UInt64.size) :
    appendDigits n cs = (Nat.ofDigitChars 10 cs n, 0) := by
  induction cs generalizing n with
  | nil => rfl
  | cons c cs ih =>
    have hlonger : 10 * n + digitValue c < UInt64.size :=
      Nat.lt_of_le_of_lt (le_ofDigitChars cs _) h
    rw [appendDigits, if_pos hlonger]
    exact ih h

theorem decimalOf_digitsOf {n : Nat} (h : n < UInt64.size) :
    decimalOf (Layout.digitsOf n) [] 0 = ⟨n, 0⟩ := by
  have hn : Nat.ofDigitChars 10 (Nat.toDigits 10 n) 0 = n := Nat.ofDigitChars_ten_toDigits
  have hwhole : appendDigits 0 (Layout.digitsOf n) = (n, 0) := by
    rw [Layout.digitsOf, appendDigits_eq (by rw [hn]; exact h), hn]
  simp [decimalOf, hwhole, appendDigits]

theorem isDigit_of_mem_digitsOf {n : Nat} {c : Char} (h : c ∈ Layout.digitsOf n) :
    c.isDigit = true := Nat.isDigit_of_mem_toDigits (by decide) (by decide) h

/-- Only the digits of zero start with zero. -/
theorem eq_zero_of_head?_digitsOf {n : Nat} (h : (Layout.digitsOf n).head? = some '0') : n = 0 := by
  induction n using Nat.strongRecOn with
  | _ n ih =>
    unfold Layout.digitsOf at h ih
    by_cases hn : n < 10
    · rw [Nat.toDigits_of_lt_base hn, List.head?_cons, Option.some.injEq] at h
      exact Nat.digitChar_eq_zero.mp h
    · rw [Nat.toDigits_of_base_le (by decide) (Nat.le_of_not_lt hn), List.head?_append,
        List.head?_eq_some_head Nat.toDigits_ne_nil, Option.some_or,
        ← List.head?_eq_some_head] at h
      have := ih (n / 10) (by omega) h
      omega

/-- A natural number that fits in a word of 64 bits reads back. -/
theorem parse?_digitsOf {n : Nat} (h : n < UInt64.size) :
    parse? (Layout.digitsOf n) = some ⟨false, ⟨n, 0⟩, true⟩ := by
  have hwhole : (Layout.digitsOf n).takeWhile Char.isDigit = Layout.digitsOf n :=
    List.takeWhile_eq_self_iff.mpr fun c hc => isDigit_of_mem_digitsOf hc
  have hrest : (Layout.digitsOf n).dropWhile Char.isDigit = [] :=
    List.dropWhile_eq_nil_iff.mpr fun c hc => isDigit_of_mem_digitsOf hc
  have hnonempty : (Layout.digitsOf n).isEmpty = false :=
    List.isEmpty_eq_false_iff.mpr Nat.toDigits_ne_nil
  have hsign : ((Layout.digitsOf n).head? == some '-') = false := by
    rw [beq_eq_false_iff_ne]
    intro hhead
    have := isDigit_of_mem_digitsOf (List.mem_of_mem_head? hhead)
    contradiction
  have hzero : ((Layout.digitsOf n).head? == some '0' &&
      (Layout.digitsOf n).length != 1) = false := by
    rw [Bool.and_eq_false_imp]
    intro hhead
    rw [eq_zero_of_head?_digitsOf (eq_of_beq hhead)]
    rfl
  simp only [parse?, hsign, Bool.false_eq_true, ↓reduceIte, hwhole, hrest, hnonempty, hzero,
    Bool.or_self, decimalOf_digitsOf h]

end Orrery.Numeral
