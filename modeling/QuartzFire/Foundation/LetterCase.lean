import Mathlib.Data.String.Basic

/-!
# Letters in upper and in lower case

The case mappings of plain letters, which leave every other character alone.
-/

namespace QuartzFire

section Letters

variable {char : Char}

theorem toUpper_of_lower (lower : 'a'.val ≤ char.val ∧ char.val ≤ 'z'.val) :
    char.toUpper.val = char.val + ('A'.val - 'a'.val) := by
  have same : char.toUpper = ⟨_, _⟩ := dif_pos lower
  rw [same]

theorem toUpper_of_not_lower
    (other : ¬ ('a'.val ≤ char.val ∧ char.val ≤ 'z'.val)) :
    char.toUpper = char :=
  dif_neg other

theorem toLower_of_upper (upper : 'A'.val ≤ char.val ∧ char.val ≤ 'Z'.val) :
    char.toLower.val = char.val + ('a'.val - 'A'.val) := by
  have same : char.toLower = ⟨_, _⟩ := dif_pos upper
  rw [same]

theorem toLower_of_not_upper
    (other : ¬ ('A'.val ≤ char.val ∧ char.val ≤ 'Z'.val)) :
    char.toLower = char :=
  dif_neg other

/-- No letter is in lower case afterwards. -/
theorem not_lower_toUpper (char : Char) :
    ¬ ('a'.val ≤ char.toUpper.val ∧ char.toUpper.val ≤ 'z'.val) := by
  by_cases lower : 'a'.val ≤ char.val ∧ char.val ≤ 'z'.val
  · rw [toUpper_of_lower lower]
    grind
  · rwa [toUpper_of_not_lower lower]

theorem toUpper_toUpper (char : Char) : char.toUpper.toUpper = char.toUpper :=
  toUpper_of_not_lower (not_lower_toUpper char)

theorem upper_lower_upper (char : Char) :
    char.toUpper.toLower.toUpper = char.toUpper := by
  by_cases upper : 'A'.val ≤ char.toUpper.val ∧ char.toUpper.val ≤ 'Z'.val
  · have down := toLower_of_upper upper
    have low : 'a'.val ≤ char.toUpper.toLower.val ∧
        char.toUpper.toLower.val ≤ 'z'.val := by
      rw [down]
      grind
    apply Char.ext
    rw [toUpper_of_lower low, down]
    grind
  · rw [toLower_of_not_upper upper, toUpper_toUpper]

end Letters

theorem toList_toUpper (text : String) :
    text.toUpper.toList = text.toList.map Char.toUpper :=
  String.toList_map

theorem toList_toLower (text : String) :
    text.toLower.toList = text.toList.map Char.toLower :=
  String.toList_map

end QuartzFire
