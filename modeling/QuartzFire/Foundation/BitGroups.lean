import Mathlib.Data.List.Basic
import Mathlib.Data.List.Induction
import Mathlib.Algebra.Order.Ring.Nat
import Mathlib.Tactic.Ring

/-!
# Bits in groups

Numbers as bits, the most significant first, and bits cut into groups of one
width, the last of which is filled up with zeros.
-/

namespace QuartzFire

/-- The number that bits spell. -/
def msbValue (bits : List Bool) : Nat :=
  bits.foldl (fun value bit => 2 * value + bit.toNat) 0

/-- The lowest bits of a number. -/
def msbBits : Nat → Nat → List Bool
  | 0, _ => []
  | width + 1, value => msbBits width (value / 2) ++ [decide (value % 2 = 1)]

def groups (width : Nat) (bits : List Bool) : List Nat :=
  (List.range ((bits.length + width - 1) / width)).map fun index =>
    msbValue ((List.range width).map fun place =>
      bits.getD (index * width + place) false)

/-! ## Values -/

theorem foldl_msbValue (bits : List Bool) (start : Nat) :
    bits.foldl (fun value bit => 2 * value + bit.toNat) start =
      start * 2 ^ bits.length + msbValue bits := by
  induction bits generalizing start with
  | nil => simp [msbValue]
  | cons bit rest ih =>
      rw [msbValue, List.foldl_cons, List.foldl_cons, ih, ih (2 * 0 + bit.toNat),
        List.length_cons]
      ring

theorem msbValue_append (front back : List Bool) :
    msbValue (front ++ back) =
      msbValue front * 2 ^ back.length + msbValue back := by
  rw [msbValue, List.foldl_append, foldl_msbValue]
  rfl

theorem msbValue_lt (bits : List Bool) : msbValue bits < 2 ^ bits.length := by
  induction bits using List.reverseRecOn with
  | nil => simp [msbValue]
  | append_singleton front bit ih =>
      have last : msbValue [bit] ≤ 1 := by cases bit <;> simp [msbValue]
      rw [msbValue_append, List.length_append, List.length_singleton, pow_succ]
      omega

theorem msbValue_replicate_false (count : Nat) :
    msbValue (List.replicate count false) = 0 := by
  induction count with
  | zero => rfl
  | succ count ih => rw [List.replicate_succ', msbValue_append, ih]; rfl

@[simp] theorem length_msbBits (width value : Nat) :
    (msbBits width value).length = width := by
  induction width generalizing value with
  | zero => rfl
  | succ width ih => rw [msbBits, List.length_append, ih, List.length_singleton]

theorem msbValue_msbBits (width value : Nat) :
    msbValue (msbBits width value) = value % 2 ^ width := by
  induction width generalizing value with
  | zero => simp [msbBits, msbValue, Nat.mod_one]
  | succ width ih =>
      have last : msbValue [decide (value % 2 = 1)] = value % 2 := by
        rcases Nat.mod_two_eq_zero_or_one value with even | odd
        · simp [msbValue, even]
        · simp [msbValue, odd]
      have cut : value % (2 * 2 ^ width) =
          value % 2 + 2 * (value / 2 % 2 ^ width) := Nat.mod_mul
      rw [msbBits, msbValue_append, ih, last, List.length_singleton, pow_one,
        pow_succ', cut]
      ring

/-! ## Groups -/

section Groups

variable {width : Nat}

theorem groups_nil (positive : 0 < width) : groups width [] = [] := by
  have none : (([] : List Bool).length + width - 1) / width = 0 := by
    rw [List.length_nil, Nat.zero_add]
    exact Nat.div_eq_of_lt (by omega)
  rw [groups, none]
  rfl

/-- The first group is whole. -/
theorem groups_append {front : List Bool} (whole : front.length = width)
    (positive : 0 < width) (rest : List Bool) :
    groups width (front ++ rest) = msbValue front :: groups width rest := by
  have count : ((front ++ rest).length + width - 1) / width =
      (rest.length + width - 1) / width + 1 := by
    rw [List.length_append, whole,
      show width + rest.length + width - 1 = rest.length + width - 1 + width by
        omega, Nat.add_div_right _ positive]
  rw [groups, count, List.range_succ_eq_map, List.map_cons, List.map_map]
  congr 1
  · congr 1
    apply List.ext_getElem
    · simp [whole]
    · intro place _ inside
      simp [List.getElem?_append_left inside, inside]
  · refine List.map_congr_left fun index _ => ?_
    refine congrArg msbValue (List.map_congr_left fun place _ => ?_)
    rw [Nat.succ_mul, show index * width + width + place =
      front.length + (index * width + place) by omega]
    simp [List.getElem?_append_right]

/-- Whole groups are cut on their own. -/
theorem groups_append_groups (positive : 0 < width) {count : Nat}
    {front : List Bool} (whole : front.length = count * width)
    (rest : List Bool) :
    groups width (front ++ rest) = groups width front ++ groups width rest := by
  induction count generalizing front with
  | zero =>
      rw [Nat.zero_mul, List.length_eq_zero_iff] at whole
      rw [whole, groups_nil positive, List.nil_append, List.nil_append]
  | succ count ih =>
      rw [Nat.succ_mul] at whole
      have first : (front.take width).length = width := by
        rw [List.length_take]
        omega
      have others : (front.drop width).length = count * width := by
        rw [List.length_drop]
        omega
      rw [← List.take_append_drop width front, List.append_assoc,
        groups_append first positive, groups_append first positive, ih others,
        List.cons_append]

/-- A single group that is not whole. -/
theorem groups_short {bits : List Bool} (some : bits ≠ [])
    (short : bits.length < width) :
    groups width bits = [msbValue bits * 2 ^ (width - bits.length)] := by
  have positive := List.length_pos_iff.mpr some
  have count : (bits.length + width - 1) / width = 1 := by
    rw [show bits.length + width - 1 = bits.length - 1 + width by omega,
      Nat.add_div_right _ (by omega), Nat.div_eq_of_lt (by omega)]
  have filled : ((List.range width).map fun place =>
      bits.getD (0 * width + place) false) =
        bits ++ List.replicate (width - bits.length) false := by
    apply List.ext_getElem
    · simp
      omega
    · intro place _ _
      simp [List.getElem_append, List.getD_eq_getElem?_getD]
      split <;> simp_all
  rw [groups, count, List.range_one, List.map_singleton, filled, msbValue_append,
    msbValue_replicate_false, List.length_replicate, Nat.add_zero]

end Groups

end QuartzFire
