import Mathlib.Algebra.GroupWithZero.Nat
import Mathlib.Data.Nat.Init
import Mathlib.Tactic.Tauto

/-!
# The order of texts of fixed widths

Where the texts in front have one length they are compared before what stands
behind them, and digits of one length are in the order of their numbers.
-/

namespace QuartzFire

theorem append_lt_append_iff {Symbol : Type*} [LT Symbol]
    {front front' back back' : List Symbol}
    (same : front.length = front'.length) :
    front ++ back < front' ++ back' ↔
      front < front' ∨ front = front' ∧ back < back' := by
  induction front generalizing front' with
  | nil =>
      obtain rfl : front' = [] := List.length_eq_zero_iff.mp same.symm
      simp
  | cons symbol front ih =>
      cases front' with
      | nil => cases same
      | cons symbol' front' =>
          rw [List.cons_append, List.cons_append, List.cons_lt_cons_iff,
            ih (Nat.succ.inj same), List.cons_lt_cons_iff, List.cons.injEq]
          tauto

/-- The higher place decides, unless it is the same. -/
theorem place_lt_iff {base high high' low low' : Nat} (small : low < base)
    (small' : low' < base) :
    base * high + low < base * high' + low' ↔
      high < high' ∨ high = high' ∧ low < low' := by
  rcases Nat.lt_trichotomy high high' with less | rfl | more
  · have scaled := Nat.mul_le_mul_left base less
    rw [Nat.mul_succ] at scaled
    omega
  · omega
  · have scaled := Nat.mul_le_mul_left base more
    rw [Nat.mul_succ] at scaled
    omega

/-! ## Digits -/

theorem value_of_isDigit {digit : Char} (plain : digit.isDigit = true) :
    digit.toNat - '0'.toNat ≤ 9 := by
  have range := Char.isDigit_iff_toNat.mp plain
  have nine : '9'.toNat = '0'.toNat + 9 := rfl
  omega

theorem digit_lt_iff {digit digit' : Char} (plain : digit.isDigit = true)
    (plain' : digit'.isDigit = true) :
    digit < digit' ↔ digit.toNat - '0'.toNat < digit'.toNat - '0'.toNat := by
  have range := Char.isDigit_iff_toNat.mp plain
  have range' := Char.isDigit_iff_toNat.mp plain'
  have numbers : digit < digit' ↔ digit.toNat < digit'.toNat := Iff.rfl
  rw [numbers]
  omega

theorem digit_eq_iff {digit digit' : Char} (plain : digit.isDigit = true)
    (plain' : digit'.isDigit = true) :
    digit = digit' ↔ digit.toNat - '0'.toNat = digit'.toNat - '0'.toNat := by
  have range := Char.isDigit_iff_toNat.mp plain
  have range' := Char.isDigit_iff_toNat.mp plain'
  rw [← Char.toNat_inj]
  omega

/-- The first digit is the highest place. -/
theorem ofDigitChars_cons_eq (digit : Char) (digits : List Char) :
    Nat.ofDigitChars 10 (digit :: digits) 0 =
      10 ^ digits.length * (digit.toNat - '0'.toNat) +
        Nat.ofDigitChars 10 digits 0 := by
  rw [Nat.ofDigitChars_cons, Nat.ofDigitChars_eq_ofDigitChars_zero,
    Nat.mul_zero, Nat.zero_add]

theorem ofDigitChars_lt {digits : List Char}
    (plain : ∀ digit ∈ digits, digit.isDigit = true) :
    Nat.ofDigitChars 10 digits 0 < 10 ^ digits.length := by
  induction digits with
  | nil => simp
  | cons digit digits ih =>
      rw [List.forall_mem_cons] at plain
      have rest := ih plain.2
      have scaled := Nat.mul_le_mul_left (10 ^ digits.length)
        (value_of_isDigit plain.1)
      rw [ofDigitChars_cons_eq, List.length_cons, Nat.pow_succ]
      omega

theorem digits_lt_iff {digits digits' : List Char}
    (same : digits.length = digits'.length)
    (plain : ∀ digit ∈ digits, digit.isDigit = true)
    (plain' : ∀ digit ∈ digits', digit.isDigit = true) :
    digits < digits' ↔
      Nat.ofDigitChars 10 digits 0 < Nat.ofDigitChars 10 digits' 0 := by
  induction digits generalizing digits' with
  | nil =>
      obtain rfl : digits' = [] := List.length_eq_zero_iff.mp same.symm
      simp
  | cons digit digits ih =>
      cases digits' with
      | nil => cases same
      | cons digit' digits' =>
          have shorter : digits.length = digits'.length := Nat.succ.inj same
          rw [List.forall_mem_cons] at plain plain'
          have below := ofDigitChars_lt plain.2
          have below' := ofDigitChars_lt plain'.2
          rw [← shorter] at below'
          rw [List.cons_lt_cons_iff, ih shorter plain.2 plain'.2,
            digit_lt_iff plain.1 plain'.1, digit_eq_iff plain.1 plain'.1,
            ofDigitChars_cons_eq, ofDigitChars_cons_eq, ← shorter,
            place_lt_iff below below']

/-- Digits of one length with one value are the same. -/
theorem digits_inj {digits digits' : List Char}
    (same : digits.length = digits'.length)
    (plain : ∀ digit ∈ digits, digit.isDigit = true)
    (plain' : ∀ digit ∈ digits', digit.isDigit = true)
    (value : Nat.ofDigitChars 10 digits 0 = Nat.ofDigitChars 10 digits' 0) :
    digits = digits' := by
  have notBefore := (digits_lt_iff same plain plain').not.mpr
    (Nat.not_lt_of_le (Nat.le_of_eq value.symm))
  have notAfter := (digits_lt_iff same.symm plain' plain).not.mpr
    (Nat.not_lt_of_le (Nat.le_of_eq value))
  exact List.le_antisymm (List.not_lt.mp notAfter) (List.not_lt.mp notBefore)

end QuartzFire
