import Mathlib.Algebra.Order.Ring.Nat
import Mathlib.Data.List.Basic
import Mathlib.Data.List.TakeDrop
import Mathlib.Data.List.TakeWhile
import Mathlib.Data.Nat.Log
import Mathlib.Tactic.Ring

/-!
# Numbers that a script reads from texts

`Number` of a text without white space around it: decimal literals with a
fraction and an exponent, literals in three other radices and `Infinity`, each
rounded to the nearest binary64 number.
-/

namespace QuartzFire.JsNumber

/-! ## Rounding -/

/-- A binary64 number without its sign, or the infinite one. -/
inductive Binary64 where
  | finite (mantissa : Nat) (exponent : Int)
  | infinite
  deriving DecidableEq, Repr

/-- The quotient rounded to the nearest number, a tie to the even one. -/
def roundHalfEven (num den : Nat) : Nat :=
  if 2 * (num % den) < den ∨
      (2 * (num % den) = den ∧ num / den % 2 = 0) then num / den
  else num / den + 1

/-- The power of two at or below a quotient. -/
def binade (num den : Nat) : Int :=
  if den ≤ num then Nat.log2 (num / den)
  else -(Nat.log2 ((den - 1) / num) + 1 : Nat)

/-- Numbers of more bits are infinite. -/
def maxBits : Nat := 1024

/-- A number with a whole exponent, unless it is too large. -/
def Binary64.large (mantissa up : Nat) : Binary64 :=
  if 2 ^ maxBits ≤ mantissa * 2 ^ up then .infinite else .finite mantissa up

/-- The nearest number with 53 bits, or fewer below the normal numbers. -/
def nearest (num den : Nat) : Binary64 :=
  if num = 0 then .finite 0 0
  else
    match max (binade num den - 52) (-1074) with
    | .ofNat up => .large (roundHalfEven num (den * 2 ^ up)) up
    | .negSucc down =>
        .finite (roundHalfEven (num * 2 ^ (down + 1)) den) (.negSucc down)

/-- The number as a whole one, if `isInteger`. -/
def Binary64.whole : Binary64 → Option Nat
  | .finite mantissa (.ofNat up) => some (mantissa * 2 ^ up)
  | .finite mantissa (.negSucc down) =>
      if mantissa % 2 ^ (down + 1) = 0 then some (mantissa / 2 ^ (down + 1))
      else none
  | .infinite => none

/-! ## Reading -/

/-- The value of decimal digits, of which there is at least one. -/
def decimal (digits : List Char) : Option Nat :=
  if digits ≠ [] ∧ digits.all Char.isDigit then
    some (Nat.ofDigitChars 10 digits 0)
  else none

def exponentPart : List Char → Option Int
  | [] => some 0
  | mark :: rest =>
      if mark = 'e' ∨ mark = 'E' then
        match rest with
        | '-' :: digits => (decimal digits).map fun power => -(power : Int)
        | '+' :: digits => (decimal digits).map Int.ofNat
        | digits => (decimal digits).map Int.ofNat
      else none

/-- Digits times a power of ten. -/
def scaled (digits : Nat) : Int → Binary64
  | .ofNat up => nearest (digits * 10 ^ up) 1
  | .negSucc down => nearest digits (10 ^ (down + 1))

/-- The digits behind a point, and what follows them. -/
def fractionPart : List Char → List Char × List Char
  | '.' :: rest => rest.span Char.isDigit
  | rest => ([], rest)

def unsignedDecimal (text : List Char) : Option Binary64 :=
  if text = "Infinity".toList then some .infinite
  else
    let front := text.span Char.isDigit
    let fraction := fractionPart front.2
    (decimal (front.1 ++ fraction.1)).bind fun digits =>
      (exponentPart fraction.2).map fun power =>
        scaled digits (power - fraction.1.length)

/-- `0x`, `0o` or `0b`, and the digits behind it. -/
def radixLiteral : List Char → Option (Nat × List Char)
  | '0' :: mark :: digits =>
      if mark = 'x' ∨ mark = 'X' then some (16, digits)
      else if mark = 'o' ∨ mark = 'O' then some (8, digits)
      else if mark = 'b' ∨ mark = 'B' then some (2, digits)
      else none
  | _ => none

def digitValue (char : Char) : Nat :=
  if char.isDigit then char.toNat - '0'.toNat
  else if 'a' ≤ char ∧ char ≤ 'f' then char.toNat - 'a'.toNat + 10
  else if 'A' ≤ char ∧ char ≤ 'F' then char.toNat - 'A'.toNat + 10
  else 16

def radixDigits (radix : Nat) (digits : List Char) : Option Nat :=
  if digits ≠ [] ∧ digits.all (digitValue · < radix) then
    some (digits.foldl (fun value char => value * radix + digitValue char) 0)
  else none

/-- `Number`: a sign, which is true before a negative number, and the number
without it. -/
def number (text : List Char) : Option (Bool × Binary64) :=
  match radixLiteral text with
  | some (radix, digits) =>
      (radixDigits radix digits).map fun value => (false, nearest value 1)
  | none =>
      match text with
      | [] => some (false, .finite 0 0)
      | '-' :: rest => (unsignedDecimal rest).map fun value => (true, value)
      | '+' :: rest => (unsignedDecimal rest).map fun value => (false, value)
      | rest => (unsignedDecimal rest).map fun value => (false, value)

/-! ## Whole numbers -/

theorem roundHalfEven_one (num : Nat) : roundHalfEven num 1 = num := by
  simp [roundHalfEven, Nat.mod_one]

theorem le_roundHalfEven (num den : Nat) : num / den ≤ roundHalfEven num den := by
  unfold roundHalfEven
  split
  · exact Nat.le_refl _
  · exact Nat.le_succ _

theorem binade_one {num : Nat} (positive : num ≠ 0) :
    binade num 1 = Nat.log2 num := by
  unfold binade
  rw [if_pos (Nat.one_le_iff_ne_zero.mpr positive), Nat.div_one]

theorem whole_large {mantissa up value : Nat}
    (reads : (Binary64.large mantissa up).whole = some value) :
    value = mantissa * 2 ^ up := by
  unfold Binary64.large at reads
  split at reads
  · cases reads
  · exact (Option.some.inj reads).symm

/-- Whole numbers of up to 53 bits are numbers as they are. -/
theorem whole_nearest {num : Nat} (small : num < 2 ^ 53) :
    (nearest num 1).whole = some num := by
  unfold nearest
  split
  · rename_i zero
    rw [zero]
    rfl
  · rename_i positive
    have bits : Nat.log2 num < 53 := (Nat.log2_lt positive).mpr small
    rw [binade_one positive]
    split
    · rename_i up exponent
      rw [Int.ofNat_eq_natCast] at exponent
      obtain rfl : up = 0 := by omega
      have room : 2 ^ 53 ≤ 2 ^ maxBits :=
        Nat.pow_le_pow_right (by decide) (by decide)
      have huge : ¬ 2 ^ maxBits ≤ num * 2 ^ 0 := by
        rw [Nat.pow_zero, Nat.mul_one]
        exact Nat.not_le.mpr (small.trans_le room)
      rw [Nat.pow_zero, Nat.mul_one, roundHalfEven_one, Binary64.large,
        if_neg huge]
      exact congrArg some (Nat.mul_one num)
    · rename_i down exponent
      rw [roundHalfEven_one]
      show (if num * 2 ^ (down + 1) % 2 ^ (down + 1) = 0 then
        some (num * 2 ^ (down + 1) / 2 ^ (down + 1)) else none) = some num
      rw [Nat.mul_mod_left, if_pos rfl,
        Nat.mul_div_cancel _ (Nat.two_pow_pos _)]

/-- Larger ones stay at least as large as that. -/
theorem le_whole_nearest {num value : Nat} (large : 2 ^ 53 ≤ num)
    (reads : (nearest num 1).whole = some value) : 2 ^ 53 ≤ value := by
  unfold nearest at reads
  split at reads
  · omega
  · rename_i positive
    have bits : 53 ≤ Nat.log2 num := (Nat.le_log2 positive).mpr large
    rw [binade_one positive] at reads
    split at reads
    · rename_i up exponent
      rw [Int.ofNat_eq_natCast] at exponent
      have shift : Nat.log2 num = up + 52 := by omega
      have low : 2 ^ 52 ≤ num / 2 ^ up := by
        rw [Nat.le_div_iff_mul_le (Nat.two_pow_pos _), ← Nat.pow_add,
          Nat.add_comm, ← shift]
        exact Nat.log2_self_le positive
      have rounds := le_roundHalfEven num (2 ^ up)
      have more : 2 ≤ 2 ^ up := Nat.le_self_pow (by omega) 2
      rw [Nat.one_mul] at reads
      rw [whole_large reads]
      calc 2 ^ 53 = 2 ^ 52 * 2 := by rfl
        _ ≤ roundHalfEven num (2 ^ up) * 2 ^ up :=
          Nat.mul_le_mul (low.trans rounds) more
    · rename_i down exponent
      omega

/-! ## Plain decimals -/

theorem span_digits {digits : List Char} (plain : digits.all Char.isDigit = true) :
    digits.span Char.isDigit = (digits, []) := by
  rw [List.span_eq_takeWhile_dropWhile, List.takeWhile_eq_self_iff.mpr,
    List.dropWhile_eq_nil_iff.mpr]
  · exact List.all_eq_true.mp plain
  · exact List.all_eq_true.mp plain

theorem decimal_digits {digits : List Char} (some' : digits ≠ [])
    (plain : digits.all Char.isDigit = true) :
    decimal digits = some (Nat.ofDigitChars 10 digits 0) :=
  if_pos ⟨some', plain⟩

/-- Nothing but digits. -/
theorem unsignedDecimal_digits {digits : List Char} (some' : digits ≠ [])
    (plain : digits.all Char.isDigit = true) :
    unsignedDecimal digits =
      some (nearest (Nat.ofDigitChars 10 digits 0) 1) := by
  have name : digits ≠ "Infinity".toList := by
    rintro rfl
    revert plain
    decide
  rw [unsignedDecimal, if_neg name, span_digits plain]
  dsimp only [fractionPart]
  rw [List.append_nil, decimal_digits some' plain]
  show some (nearest (Nat.ofDigitChars 10 digits 0 * 10 ^ 0) 1) = _
  rw [Nat.pow_zero, Nat.mul_one]

theorem radixLiteral_digits {digits : List Char}
    (plain : digits.all Char.isDigit = true) : radixLiteral digits = none := by
  unfold radixLiteral
  split
  · rename_i mark rest
    have digit : mark.isDigit = true :=
      List.all_eq_true.mp plain mark (by simp)
    have other : ∀ letter : Char, letter.isDigit = false → mark ≠ letter := by
      rintro letter plain rfl
      rw [digit] at plain
      cases plain
    simp [other]
  · rfl

end QuartzFire.JsNumber
