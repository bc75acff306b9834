import Mathlib.Logic.Relation
import Mathlib.Data.List.Basic

/-!
# Transition systems with an environment

A system steps by actions its environment chooses.  A run may be restricted by
an admission predicate on the state before each step, so that one development
covers both every run and the runs that keep to a stated discipline.
-/

namespace QuartzFire

/-- A partial deterministic step function with a set of initial states; all
nondeterminism sits in the choice of the next action. -/
structure TransitionSystem (State Action : Type*) where
  Initial : State → Prop
  next : State → Action → Option State

namespace TransitionSystem

variable {State Action : Type*}

/-- States reached by steps that were each admitted in the state before. -/
inductive ReachableUnder (system : TransitionSystem State Action)
    (admitted : State → Action → Prop) : State → Prop where
  | initial {state : State} :
      system.Initial state → ReachableUnder system admitted state
  | step {state after : State} {action : Action} :
      ReachableUnder system admitted state →
      admitted state action →
      system.next state action = some after →
      ReachableUnder system admitted after

/-- States reached by any steps whatsoever. -/
abbrev Reachable (system : TransitionSystem State Action) : State → Prop :=
  ReachableUnder system (fun _ _ => True)

/-- What holds initially and survives every admitted step holds in every
state of an admitted run. -/
theorem ReachableUnder.invariant
    {system : TransitionSystem State Action}
    {admitted : State → Action → Prop} {holds : State → Prop}
    (initially : ∀ state, system.Initial state → holds state)
    (preserved : ∀ state action after, holds state →
      admitted state action → system.next state action = some after →
      holds after)
    {state : State} (reached : ReachableUnder system admitted state) :
    holds state := by
  induction reached with
  | initial start => exact initially _ start
  | step _ allowed stepped before =>
      exact preserved _ _ _ before allowed stepped

theorem ReachableUnder.mono
    {system : TransitionSystem State Action}
    {strong weak : State → Action → Prop}
    (implies : ∀ state action, strong state action → weak state action)
    {state : State} (reached : ReachableUnder system strong state) :
    ReachableUnder system weak state := by
  induction reached with
  | initial start => exact .initial start
  | step _ allowed stepped before =>
      exact .step before (implies _ _ allowed) stepped

/-- Replay a list of actions, giving up at the first one that is not enabled. -/
def run (system : TransitionSystem State Action) :
    State → List Action → Option State
  | state, [] => some state
  | state, action :: actions =>
      (system.next state action).bind fun after => run system after actions

/-- Every action of the list is admitted where the replay meets it. -/
def AdmittedAlong (system : TransitionSystem State Action)
    (admitted : State → Action → Prop) : State → List Action → Prop
  | _, [] => True
  | state, action :: actions =>
      admitted state action ∧
        ∀ after ∈ system.next state action,
          AdmittedAlong system admitted after actions

instance decidableAdmittedAlong (system : TransitionSystem State Action)
    (admitted : State → Action → Prop)
    [decideAdmitted : ∀ state action, Decidable (admitted state action)] :
    (state : State) → (actions : List Action) →
      Decidable (AdmittedAlong system admitted state actions)
  | _, [] => .isTrue trivial
  | state, action :: actions =>
      have : Decidable (∀ after ∈ system.next state action,
          AdmittedAlong system admitted after actions) :=
        match result : system.next state action with
        | none => .isTrue (by simp)
        | some after =>
            match decidableAdmittedAlong system admitted after actions with
            | .isTrue holds => .isTrue (by simpa using holds)
            | .isFalse fails => .isFalse (by simpa using fails)
      inferInstanceAs (Decidable (_ ∧ _))

theorem ReachableUnder.run
    {system : TransitionSystem State Action}
    {admitted : State → Action → Prop} {state : State}
    (reached : ReachableUnder system admitted state)
    (actions : List Action)
    (allowed : AdmittedAlong system admitted state actions)
    {last : State} (replay : system.run state actions = some last) :
    ReachableUnder system admitted last := by
  induction actions generalizing state with
  | nil =>
      cases replay
      exact reached
  | cons action actions ih =>
      obtain ⟨after, stepped, rest⟩ := Option.bind_eq_some_iff.mp replay
      exact ih (reached.step allowed.1 stepped) (allowed.2 after stepped) rest

theorem reachable_of_run
    {system : TransitionSystem State Action} {start last : State}
    (initial : system.Initial start) (actions : List Action)
    (replay : system.run start actions = some last) :
    Reachable system last := by
  refine ReachableUnder.run (.initial initial) actions ?_ replay
  clear replay initial
  induction actions generalizing start with
  | nil => trivial
  | cons action actions ih => exact ⟨trivial, fun after _ => ih⟩

end TransitionSystem

end QuartzFire
