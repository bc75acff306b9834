import Mathlib.Algebra.Group.Nat.Defs
import Mathlib.Data.List.Basic

/-!
# Texts as lists of characters

The string functions of the daemons, on lists of characters.
-/

namespace QuartzFire

/-- `split_once` -/
def splitOnce (separator : Char) : List Char → Option (List Char × List Char)
  | [] => none
  | char :: rest =>
      if char = separator then some ([], rest)
      else (splitOnce separator rest).map fun parts =>
        (char :: parts.1, parts.2)

/-- `rsplit_once` -/
def rsplitOnce (separator : Char) (text : List Char) :
    Option (List Char × List Char) :=
  (splitOnce separator text.reverse).map fun parts =>
    (parts.2.reverse, parts.1.reverse)

/-- `contains` -/
def containsText (part text : List Char) : Bool :=
  text.tails.any fun rest => part.isPrefixOf rest

/-- What follows the last `separator`: the end of `rsplit_once`. -/
def afterLast (separator text : List Char) : Option (List Char) :=
  (text.tails.filter fun rest => separator.isPrefixOf rest).getLast?.map
    (List.drop separator.length)

def stripPrefix (start text : List Char) : Option (List Char) :=
  if start.isPrefixOf text then some (text.drop start.length) else none

theorem stripPrefix_eq_some {start text rest : List Char} :
    stripPrefix start text = some rest ↔ text = start ++ rest := by
  unfold stripPrefix
  constructor
  · intro stripped
    split at stripped
    case isTrue starts =>
      cases stripped
      obtain ⟨_, rfl⟩ := List.isPrefixOf_iff_prefix.mp starts
      simp
    case isFalse => cases stripped
  · rintro rfl
    simp

theorem splitOnce_eq_some {separator : Char} {text front back : List Char} :
    splitOnce separator text = some (front, back) ↔
      text = front ++ separator :: back ∧ separator ∉ front := by
  induction text generalizing front with
  | nil => simp [splitOnce]
  | cons char rest ih =>
      by_cases found : char = separator
      · subst found
        cases front with
        | nil => simp [splitOnce, eq_comm]
        | cons first front =>
            simp only [splitOnce, if_pos, List.cons_append, List.cons.injEq,
              List.mem_cons, not_or]
            constructor
            · intro split
              cases split
            · rintro ⟨⟨rfl, -⟩, other, -⟩
              exact absurd rfl other
      · rw [splitOnce, if_neg found]
        cases front with
        | nil => simp [found]
        | cons first front =>
            simp only [Option.map_eq_some_iff, Prod.exists, Prod.mk.injEq,
              List.cons.injEq, List.cons_append, List.mem_cons, not_or]
            constructor
            · rintro ⟨_, _, split, ⟨rfl, rfl⟩, rfl⟩
              obtain ⟨same, absent⟩ := ih.mp split
              exact ⟨⟨rfl, same⟩, fun same => found same.symm, absent⟩
            · rintro ⟨⟨rfl, same⟩, -, absent⟩
              exact ⟨front, back, ih.mpr ⟨same, absent⟩, ⟨rfl, rfl⟩, rfl⟩

theorem splitOnce_eq_none {separator : Char} {text : List Char} :
    splitOnce separator text = none ↔ separator ∉ text := by
  induction text with
  | nil => simp [splitOnce]
  | cons char rest ih =>
      by_cases found : char = separator
      · simp [splitOnce, found]
      · rw [splitOnce, if_neg found, Option.map_eq_none_iff, ih,
          List.mem_cons, not_or]
        exact (and_iff_right (Ne.symm found)).symm

theorem rsplitOnce_eq_some {separator : Char} {text front back : List Char} :
    rsplitOnce separator text = some (front, back) ↔
      text = front ++ separator :: back ∧ separator ∉ back := by
  unfold rsplitOnce
  constructor
  · intro split
    obtain ⟨⟨last, first⟩, reversed, same⟩ := Option.map_eq_some_iff.mp split
    obtain ⟨whole, absent⟩ := splitOnce_eq_some.mp reversed
    cases same
    refine ⟨?_, fun member => absent (List.mem_reverse.mp member)⟩
    rw [← text.reverse_reverse, whole]
    simp
  · rintro ⟨rfl, absent⟩
    refine Option.map_eq_some_iff.mpr ⟨(back.reverse, front.reverse),
      splitOnce_eq_some.mpr ⟨by simp, ?_⟩, by simp⟩
    exact fun member => absent (List.mem_reverse.mp member)

/-- The pieces of `split`. -/
theorem not_of_mem_splitOnP {separates : Char → Bool} {text piece : List Char}
    (member : piece ∈ text.splitOnP separates) :
    ∀ char ∈ piece, separates char = false := by
  induction text generalizing piece with
  | nil =>
      rw [List.splitOnP_nil, List.mem_singleton] at member
      rw [member]
      intro char inside
      cases inside
  | cons char rest ih =>
      rw [List.splitOnP_cons_eq_if_modifyHead] at member
      split at member
      · rcases List.mem_cons.mp member with rfl | later
        · intro char inside
          cases inside
        · exact ih later
      · rename_i other
        obtain ⟨first, others, pieces⟩ :=
          List.exists_cons_of_ne_nil (List.splitOnP_ne_nil separates rest)
        rw [pieces, List.modifyHead_cons] at member
        rcases List.mem_cons.mp member with rfl | later
        · rw [List.forall_mem_cons]
          exact ⟨Bool.eq_false_iff.mpr other, ih (by simp [pieces])⟩
        · exact ih (by simp [pieces, later])

theorem not_mem_of_mem_splitOn {separator : Char} {text piece : List Char}
    (member : piece ∈ text.splitOn separator) : separator ∉ piece := by
  intro inside
  have other := not_of_mem_splitOnP member separator inside
  rw [beq_self_eq_true] at other
  cases other

/-! ## Numbers -/

theorem toList_toString (number : Nat) :
    (toString number).toList = Nat.toDigits 10 number := by
  rw [Nat.toString_eq_repr, Nat.repr_eq_ofList_toDigits, String.toList_ofList]

theorem toString_injective {left right : Nat}
    (same : toString left = toString right) : left = right := by
  have digits : Nat.toDigits 10 left = Nat.toDigits 10 right := by
    rw [← toList_toString, same, toList_toString]
  rw [← Nat.ofDigitChars_ten_toDigits (n := left), digits,
    Nat.ofDigitChars_ten_toDigits]

theorem isDigit_of_mem_digits {number : Nat} {char : Char}
    (member : char ∈ Nat.toDigits 10 number) : char.isDigit = true :=
  Nat.isDigit_of_mem_toDigits (by decide) (by decide) member

theorem all_isDigit_digits (number : Nat) :
    (Nat.toDigits 10 number).all Char.isDigit = true := by
  rw [List.all_eq_true]
  intro char member
  exact isDigit_of_mem_digits member

theorem not_mem_digits {char : Char} (other : char.isDigit = false)
    (number : Nat) : char ∉ Nat.toDigits 10 number := by
  intro member
  have digit := isDigit_of_mem_digits member
  rw [other] at digit
  cases digit

/-- `from_str` of an unsigned type -/
def parseUnsigned (width : Nat) (text : List Char) : Option Nat :=
  let digits := match text with
    | '+' :: rest => rest
    | all => all
  if digits.isEmpty || !digits.all Char.isDigit then none
  else
    let value := Nat.ofDigitChars 10 digits 0
    if value < Nat.pow 2 width then some value else none

/-- Decimal digits, perhaps behind a plus sign. -/
def Digits (text : List Char) (digits : List Char) : Prop :=
  (text = digits ∨ text = '+' :: digits) ∧ digits ≠ [] ∧
    digits.all Char.isDigit = true

theorem head_digits {digits : List Char} (plain : digits.all Char.isDigit = true)
    {mark : Char} (other : mark.isDigit = false) (rest : List Char) :
    digits ≠ mark :: rest := by
  rintro rfl
  rw [List.all_cons, other] at plain
  cases plain

theorem parseUnsigned_eq_some {width value : Nat} {text : List Char} :
    parseUnsigned width text = some value ↔
      ∃ digits, Digits text digits ∧ Nat.ofDigitChars 10 digits 0 = value ∧
        value < 2 ^ width := by
  have unsigned : ∀ digits : List Char,
      (if digits.isEmpty || !digits.all Char.isDigit then none
        else
          let value := Nat.ofDigitChars 10 digits 0
          if value < Nat.pow 2 width then some value else none) = some value ↔
        digits ≠ [] ∧ digits.all Char.isDigit = true ∧
          Nat.ofDigitChars 10 digits 0 = value ∧ value < 2 ^ width := by
    intro digits
    split
    · rename_i refused
      simp only [reduceCtorEq, false_iff, not_and]
      intro some' plain
      simp [some', plain] at refused
    · rename_i passes
      rw [Bool.or_eq_true, not_or, List.isEmpty_iff, Bool.not_eq_true,
        Bool.not_eq_false'] at passes
      dsimp only
      split
      · rename_i fits
        constructor
        · rintro ⟨⟩
          exact ⟨passes.1, passes.2, rfl, fits⟩
        · rintro ⟨-, -, rfl, -⟩
          rfl
      · rename_i large
        constructor
        · intro reads
          cases reads
        · rintro ⟨-, -, rfl, fits⟩
          exact absurd fits large
  unfold parseUnsigned
  split
  · rename_i rest
    refine (unsigned rest).trans ⟨?_, ?_⟩
    · rintro ⟨some', plain, same, fits⟩
      exact ⟨rest, ⟨.inr rfl, some', plain⟩, same, fits⟩
    · rintro ⟨digits, ⟨signed, some', plain⟩, same, fits⟩
      rcases signed with rfl | signed
      · exact absurd rfl (head_digits plain rfl rest)
      · cases signed
        exact ⟨some', plain, same, fits⟩
  · rename_i other
    refine (unsigned text).trans ⟨?_, ?_⟩
    · rintro ⟨some', plain, same, fits⟩
      exact ⟨text, ⟨.inl rfl, some', plain⟩, same, fits⟩
    · rintro ⟨digits, ⟨signed, some', plain⟩, same, fits⟩
      rcases signed with rfl | rfl
      · exact ⟨some', plain, same, fits⟩
      · exact absurd rfl (other digits)

/-- What is printed is read back. -/
theorem parseUnsigned_toDigits {width number : Nat}
    (fits : number < 2 ^ width) :
    parseUnsigned width (Nat.toDigits 10 number) = some number := by
  apply parseUnsigned_eq_some.mpr
  exact ⟨_, ⟨.inl rfl, Nat.toDigits_ne_nil, all_isDigit_digits number⟩,
    Nat.ofDigitChars_ten_toDigits, fits⟩

/-- `from_str` of a signed type -/
def parseSigned (width : Nat) (text : List Char) : Option Int :=
  match text with
  | '-' :: digits =>
      if digits.head? = some '+' then none
      else ((parseUnsigned width digits).filter (· ≤ 2 ^ (width - 1))).map
        fun value => - (value : Int)
  | _ => ((parseUnsigned width text).filter (· < 2 ^ (width - 1))).map
      Int.ofNat

def parsePort (text : List Char) : Option Nat :=
  parseUnsigned 16 text

/-! ## Blanks -/

def isWhitespace (char : Char) : Bool :=
  char.val ∈ [9, 10, 11, 12, 13, 32, 0x85, 0xA0, 0x1680, 0x2028, 0x2029,
    0x202F, 0x205F, 0x3000] || (0x2000 ≤ char.val && char.val ≤ 0x200A)

/-- `trim_end` -/
def trimEnd (text : List Char) : List Char :=
  (text.reverse.dropWhile isWhitespace).reverse

/-- `trim` -/
def trim (text : List Char) : List Char :=
  ((text.dropWhile isWhitespace).reverse.dropWhile isWhitespace).reverse

end QuartzFire
