import Mathlib.Algebra.BigOperators.Group.List.Basic
import Mathlib.Algebra.Ring.Int.Defs
import Mathlib.Data.List.Infix

/-!
# Openings and closings that pair up

A sequence of marks, an opening 1 and a closing −1, pairs up when nothing is
closed before it is opened and nothing stays open.  `walk` checks it from left
to right.
-/

namespace QuartzFire.Pairing

/-- Each closing has its opening before it, and each opening is closed. -/
structure Paired (marks : List Int) : Prop where
  opened : ∀ front, front <+: marks → 0 ≤ front.sum
  closed : marks.sum = 0

/-- How many are open at the end, if never fewer than none. -/
def walk (level : Int) : List Int → Option Int
  | [] => some level
  | mark :: rest =>
      if level + mark < 0 then none else walk (level + mark) rest

theorem walk_append (level : Int) (front back : List Int) :
    walk level (front ++ back) =
      (walk level front).bind fun reached => walk reached back := by
  induction front generalizing level with
  | nil => rfl
  | cons mark rest ih =>
      rw [List.cons_append, walk, walk]
      split
      · rfl
      · exact ih _

theorem walk_nonneg {level final : Int} {marks : List Int}
    (start : 0 ≤ level) (walked : walk level marks = some final) :
    0 ≤ final := by
  induction marks generalizing level with
  | nil =>
      cases walked
      exact start
  | cons mark rest ih =>
      rw [walk] at walked
      split at walked
      · cases walked
      · exact ih (by omega) walked

theorem walk_eq_some {level final : Int} {marks : List Int}
    (start : 0 ≤ level) :
    walk level marks = some final ↔
      (∀ front, front <+: marks → 0 ≤ level + front.sum) ∧
        final = level + marks.sum := by
  induction marks generalizing level with
  | nil =>
      rw [walk, Option.some.injEq]
      constructor
      · rintro rfl
        refine ⟨?_, by simp⟩
        intro front starts
        rw [List.prefix_nil.mp starts]
        simpa using start
      · rintro ⟨-, rfl⟩
        simp
  | cons mark rest ih =>
      rw [walk]
      split
      · rename_i below
        refine iff_of_false (by simp) ?_
        rintro ⟨opened, -⟩
        have first := opened [mark] (List.prefix_append [mark] rest)
        rw [List.sum_singleton] at first
        omega
      · rename_i above
        rw [ih (by omega), List.sum_cons, add_assoc]
        apply and_congr_left
        intro _
        constructor
        · intro opened front starts
          rcases List.prefix_cons_iff.mp starts with rfl | ⟨later, rfl, starts'⟩
          · simpa using start
          · have reached := opened later starts'
            rw [List.sum_cons]
            omega
        · intro opened front starts
          have reached := opened (mark :: front)
            ((List.prefix_cons_inj mark).mpr starts)
          rw [List.sum_cons] at reached
          omega

theorem paired_iff_walk {marks : List Int} :
    Paired marks ↔ walk 0 marks = some 0 := by
  rw [walk_eq_some (Int.le_refl 0)]
  simp only [zero_add]
  constructor
  · intro paired
    exact ⟨paired.opened, paired.closed.symm⟩
  · rintro ⟨opened, closed⟩
    exact ⟨opened, closed.symm⟩

instance (marks : List Int) : Decidable (Paired marks) :=
  decidable_of_iff _ paired_iff_walk.symm

/-! ## Composition -/

theorem Paired.nil : Paired [] := paired_iff_walk.mpr rfl

theorem walk_shift {level final shift : Int} {marks : List Int}
    (above : 0 ≤ shift) (walked : walk level marks = some final) :
    walk (level + shift) marks = some (final + shift) := by
  induction marks generalizing level with
  | nil =>
      cases walked
      rfl
  | cons mark rest ih =>
      rw [walk] at walked ⊢
      split at walked
      · cases walked
      · rename_i stays
        rw [if_neg (by omega), add_right_comm]
        exact ih walked

theorem Paired.walk {marks : List Int} (paired : Paired marks) {level : Int}
    (start : 0 ≤ level) : walk level marks = some level := by
  have shifted := walk_shift start (paired_iff_walk.mp paired)
  rwa [zero_add] at shifted

theorem Paired.of_starts {marks front : List Int} (paired : Paired marks)
    (starts : front <+: marks) (level : front.sum = 0) : Paired front where
  opened := fun _ earlier => paired.opened _ (earlier.trans starts)
  closed := level

theorem Paired.enclosed {marks : List Int} (paired : Paired marks) :
    Paired (1 :: (marks ++ [-1])) := by
  rw [paired_iff_walk, Pairing.walk, if_neg (by omega), zero_add, walk_append,
    paired.walk Int.one_nonneg]
  rfl

/-- What pairs up by itself may be left out. -/
theorem paired_insert {front middle back : List Int} (paired : Paired middle) :
    Paired (front ++ (middle ++ back)) ↔ Paired (front ++ back) := by
  rw [paired_iff_walk, paired_iff_walk, walk_append, walk_append]
  cases reached : walk 0 front with
  | none => rfl
  | some level =>
      have above := walk_nonneg (Int.le_refl 0) reached
      rw [Option.bind_some, Option.bind_some, walk_append, paired.walk above,
        Option.bind_some]

end QuartzFire.Pairing
