import QuartzFire.Foundation.TransitionSystem

/-!
# Infinite runs

A behaviour goes on for ever; where nothing happens any more it stands still.
What happens eventually is derived from what is bound to happen.
-/

namespace QuartzFire.TransitionSystem

variable {State Action : Type*}

/-- An infinite run.  At an instant without an action nothing happens. -/
structure Behaviour (system : TransitionSystem State Action) where
  state : Nat → State
  action : Nat → Option Action
  start : system.Initial (state 0)
  idle : ∀ instant, action instant = none →
    state (instant + 1) = state instant
  step : ∀ instant step, action instant = some step →
    system.next (state instant) step = some (state (instant + 1))

namespace Behaviour

variable {system : TransitionSystem State Action}

theorem reachable (run : Behaviour system) (instant : Nat) :
    system.Reachable (run.state instant) := by
  induction instant with
  | zero => exact .initial run.start
  | succ instant ih =>
      cases happens : run.action instant with
      | none =>
          rw [run.idle instant happens]
          exact ih
      | some action => exact ih.step trivial (run.step instant action happens)

/-- What every step makes of a state is made of it over time. -/
theorem grows (run : Behaviour system) (below : State → State → Prop)
    (same : ∀ state, below state state)
    (trans : ∀ first second third, below first second →
      below second third → below first third)
    (stepped : ∀ state action after,
      system.next state action = some after → below state after)
    (instant length : Nat) :
    below (run.state instant) (run.state (instant + length)) := by
  induction length with
  | zero => exact same _
  | succ length ih =>
      apply trans _ _ _ ih
      rw [← Nat.add_assoc]
      cases happens : run.action (instant + length) with
      | none =>
          rw [run.idle _ happens]
          exact same _
      | some action => exact stepped _ _ _ (run.step _ action happens)

/-- What holds until it leads to something does lead to it, once something is
bound to happen that ends it. -/
theorem leads (holds reached ends : Nat → Prop)
    (lasts : ∀ instant, holds instant → holds (instant + 1) ∨ reached instant)
    (ended : ∀ instant, holds instant → ends instant → reached instant)
    {instant : Nat} (now : holds instant) {length : Nat}
    (bound : ends (instant + length)) :
    ∃ later, instant ≤ later ∧ reached later := by
  by_contra never
  have still : ∀ length, holds (instant + length) := by
    intro length
    induction length with
    | zero => exact now
    | succ length ih =>
        rcases lasts _ ih with after | reached
        · exact after
        · exact absurd ⟨_, Nat.le_add_right _ _, reached⟩ never
  exact never ⟨_, Nat.le_add_right _ _, ended _ (still length) bound⟩

end Behaviour

end QuartzFire.TransitionSystem
