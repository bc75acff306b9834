import Mathlib.Data.List.Basic

/-!
# Computations that may fail

How a successful computation was put together from successful parts.
-/

namespace QuartzFire

variable {Error Value Result : Type}

theorem bind_eq_ok {first : Except Error Value}
    {next : Value → Except Error Result} {result : Result} :
    (first >>= next) = .ok result ↔
      ∃ value, first = .ok value ∧ next value = .ok result := by
  cases first with
  | error error => simp [bind, Except.bind]
  | ok value => simp [bind, Except.bind]

/-- A check that refuses was passed. -/
theorem refuse_eq_ok {refused : Prop} [Decidable refused] {error : Error}
    {rest : Except Error Value} {value : Value} :
    (if refused then .error error else rest) = .ok value ↔
      ¬ refused ∧ rest = .ok value := by
  split <;> simp_all

end QuartzFire
