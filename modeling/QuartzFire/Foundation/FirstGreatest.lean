import Mathlib.Data.List.Induction
import Mathlib.Order.Lattice

/-!
# The first greatest of a list

One pass that keeps what it holds unless something greater comes holds the
first one of those of greatest size.
-/

namespace QuartzFire

variable {Row Size : Type*} [LinearOrder Size] (size : Row → Size)

/-- Keep what is held unless the next one is greater. -/
def keepGreater (held : Option Row) (row : Row) : Option Row :=
  match held with
  | some prev => if size row ≤ size prev then some prev else some row
  | none => some row

def firstGreatest (rows : List Row) : Option Row :=
  rows.foldl (keepGreater size) none

@[simp] theorem firstGreatest_nil : firstGreatest size ([] : List Row) = none :=
  rfl

@[simp] theorem firstGreatest_concat (rows : List Row) (row : Row) :
    firstGreatest size (rows ++ [row]) =
      keepGreater size (firstGreatest size rows) row := by
  rw [firstGreatest, List.foldl_append]
  rfl

theorem keepGreater_ne_none (held : Option Row) (row : Row) :
    keepGreater size held row ≠ none := by
  cases held with
  | none => exact Option.some_ne_none row
  | some prev =>
      rw [keepGreater]
      split
      · exact Option.some_ne_none prev
      · exact Option.some_ne_none row

theorem firstGreatest_eq_none_iff {rows : List Row} :
    firstGreatest size rows = none ↔ rows = [] := by
  induction rows using List.reverseRecOn with
  | nil => simp
  | append_singleton rows row _ =>
      rw [firstGreatest_concat]
      simp [keepGreater_ne_none]

theorem firstGreatest_spec {rows : List Row} :
    ∀ {best : Row}, firstGreatest size rows = some best →
      (∀ row ∈ rows, size row ≤ size best) ∧
        rows.find? (fun row => size row = size best) = some best := by
  induction rows using List.reverseRecOn with
  | nil =>
      rintro best ⟨⟩
  | append_singleton rows row ih =>
      intro best found
      rw [firstGreatest_concat] at found
      cases held : firstGreatest size rows with
      | none =>
          rw [held] at found
          cases found
          rw [(firstGreatest_eq_none_iff size).mp held]
          simp
      | some prev =>
          obtain ⟨bound, first⟩ := ih held
          rw [held, keepGreater] at found
          split at found
          · rename_i below
            cases found
            constructor
            · intro other among
              rcases List.mem_append.mp among with earlier | last
              · exact bound other earlier
              · rw [List.mem_singleton.mp last]
                exact below
            · rw [List.find?_append, first, Option.some_or]
          · rename_i above
            cases found
            have greater := lt_of_not_ge above
            constructor
            · intro other among
              rcases List.mem_append.mp among with earlier | last
              · exact le_of_lt (lt_of_le_of_lt (bound other earlier) greater)
              · rw [List.mem_singleton.mp last]
            · have none : rows.find? (fun other => size other = size row) =
                  none := by
                rw [List.find?_eq_none]
                intro other earlier same
                have smaller := lt_of_le_of_lt (bound other earlier) greater
                exact ne_of_lt smaller (of_decide_eq_true same)
              rw [List.find?_append, none]
              simp

/-- The pass ends with the first one of those that nothing exceeds. -/
theorem firstGreatest_eq_some_iff {rows : List Row} {best : Row} :
    firstGreatest size rows = some best ↔
      (∀ row ∈ rows, size row ≤ size best) ∧
        rows.find? (fun row => size row = size best) = some best := by
  constructor
  · exact firstGreatest_spec size
  · rintro ⟨bound, first⟩
    have among := List.mem_of_find?_eq_some first
    cases found : firstGreatest size rows with
    | none =>
        rw [(firstGreatest_eq_none_iff size).mp found] at among
        cases among
    | some other =>
        obtain ⟨otherBound, otherFirst⟩ := firstGreatest_spec size found
        have otherAmong := List.mem_of_find?_eq_some otherFirst
        have same : size other = size best :=
          le_antisymm (bound other otherAmong) (otherBound best among)
        rw [same, first] at otherFirst
        exact otherFirst.symm

end QuartzFire
