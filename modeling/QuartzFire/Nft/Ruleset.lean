import Mathlib.Data.List.Basic

/-!
# Rules and chains

A rule is a sequence of statements: a test that fails ends it, an effect acts
on what the packet carries, a verdict ends it and says how to go on.  The rules
of a chain are run in order, a chain may call another one.  What tests and
effects there are is left open.
-/

namespace QuartzFire.Nft

inductive RuleVerdict (Name Queue : Type) where
  | accept
  | drop
  | return
  | jump (chain : Name)
  | queue (target : Queue)
  deriving DecidableEq, Repr

inductive RuleStatement (Test Effect Name Queue : Type) where
  | test (test : Test)
  | effect (effect : Effect)
  | verdict (verdict : RuleVerdict Name Queue)
  deriving DecidableEq, Repr

abbrev Rule (Test Effect Name Queue : Type) :=
  List (RuleStatement Test Effect Name Queue)

/-- The rules of each chain. -/
abbrev Chains (Test Effect Name Queue : Type) :=
  Name → List (Rule Test Effect Name Queue)

/-- What tests ask of a state and effects make of it. -/
structure Interpretation (Test Effect State : Type) where
  holds : Test → State → Bool
  apply : Effect → State → State

/-- What becomes of the packet at a hook. -/
inductive Fate (Queue : Type) where
  | accept
  | drop
  | queue (target : Queue)
  deriving DecidableEq, Repr

/-- How a rule, or several, went on. -/
inductive Progress (Queue : Type) where
  /-- With the next rule. -/
  | next
  /-- Back to the calling chain. -/
  | leave
  | done (fate : Fate Queue)
  deriving DecidableEq, Repr

/-- The deepest nesting of jumps. -/
def jumpDepth : Nat := 16

section Running

variable {Test Effect Name Queue State : Type}
  (meaning : Interpretation Test Effect State)

/-- After a jump, a rule goes on unless the packet's fate is settled. -/
def resume : Progress Queue × State → Progress Queue × State
  | (.done fate, after) => (.done fate, after)
  | (_, after) => (.next, after)

/-- Run a rule; `call` runs a chain it jumps to. -/
def runRule (call : Name → State → Progress Queue × State) :
    Rule Test Effect Name Queue → State → Progress Queue × State
  | [], state => (.next, state)
  | .test test :: rest, state =>
      if meaning.holds test state then runRule call rest state
      else (.next, state)
  | .effect effect :: rest, state =>
      runRule call rest (meaning.apply effect state)
  | .verdict .accept :: _, state => (.done .accept, state)
  | .verdict .drop :: _, state => (.done .drop, state)
  | .verdict .return :: _, state => (.leave, state)
  | .verdict (.queue target) :: _, state => (.done (.queue target), state)
  | .verdict (.jump chain) :: _, state => resume (call chain state)

/-- Run rules in order until one does not go on with the next. -/
def runRules (call : Name → State → Progress Queue × State) :
    List (Rule Test Effect Name Queue) → State → Progress Queue × State
  | [], state => (.next, state)
  | rule :: rules, state =>
      match runRule meaning call rule state with
      | (.next, after) => runRules call rules after
      | ended => ended

/-- Run a chain with so many jumps left. -/
def runChain (chains : Chains Test Effect Name Queue) :
    Nat → Name → State → Progress Queue × State
  | 0, _, state => (.next, state)
  | depth + 1, chain, state =>
      runRules meaning (runChain chains depth) (chains chain) state

/-- The fate of a packet at a base chain whose policy is accept, and what it
carries then. -/
def runHook (chains : Chains Test Effect Name Queue) (chain : Name)
    (state : State) : Fate Queue × State :=
  match runChain meaning chains (jumpDepth + 1) chain state with
  | (.done fate, after) => (fate, after)
  | (_, after) => (.accept, after)

theorem runHook_eq (chains : Chains Test Effect Name Queue) (chain : Name)
    (state : State) :
    runHook meaning chains chain state =
      match runRules meaning (runChain meaning chains jumpDepth)
          (chains chain) state with
      | (.done fate, after) => (fate, after)
      | (_, after) => (.accept, after) := rfl

/-- Every test of a rule holds. -/
def Rule.matches (state : State) (rule : Rule Test Effect Name Queue) : Bool :=
  rule.all fun statement =>
    match statement with
    | .test test => meaning.holds test state
    | _ => true

section Steps

variable {meaning} {call : Name → State → Progress Queue × State}
  {rule : Rule Test Effect Name Queue}
  {rules : List (Rule Test Effect Name Queue)} {state : State}

@[simp] theorem runRule_nil :
    runRule meaning call ([] : Rule Test Effect Name Queue) state =
      (.next, state) := rfl

@[simp] theorem runRule_test (test : Test) :
    runRule meaning call (.test test :: rule) state =
      if meaning.holds test state then runRule meaning call rule state
      else (.next, state) := rfl

@[simp] theorem runRule_effect (effect : Effect) :
    runRule meaning call (.effect effect :: rule) state =
      runRule meaning call rule (meaning.apply effect state) := rfl

@[simp] theorem runRules_nil :
    runRules meaning call ([] : List (Rule Test Effect Name Queue)) state =
      (.next, state) := rfl

theorem runRules_cons_next {after : State}
    (goesOn : runRule meaning call rule state = (.next, after)) :
    runRules meaning call (rule :: rules) state =
      runRules meaning call rules after := by
  rw [runRules, goesOn]

theorem runRules_cons_ended {progress : Progress Queue} {after : State}
    (ended : runRule meaning call rule state = (progress, after))
    (proper : progress ≠ .next) :
    runRules meaning call (rule :: rules) state = (progress, after) := by
  rw [runRules, ended]
  cases progress with
  | next => exact absurd rfl proper
  | leave | done fate => rfl

/-- Tests at the start of a rule are asked together. -/
theorem runRule_tests (tests : List Test) :
    runRule meaning call (tests.map .test ++ rule) state =
      if tests.all fun test => meaning.holds test state then
        runRule meaning call rule state
      else (.next, state) := by
  induction tests with
  | nil => rfl
  | cons test tests ih =>
      rw [List.map_cons, List.cons_append, runRule_test, ih, List.all_cons]
      cases meaning.holds test state <;> simp

theorem matches_tests (tests : List Test) :
    Rule.matches meaning state (tests.map .test ++ rule) =
      ((tests.all fun test => meaning.holds test state) &&
        Rule.matches meaning state rule) := by
  rw [Rule.matches, List.all_append, List.all_map]
  rfl

theorem runRules_append (first second : List (Rule Test Effect Name Queue)) :
    runRules meaning call (first ++ second) state =
      match runRules meaning call first state with
      | (.next, after) => runRules meaning call second after
      | ended => ended := by
  induction first generalizing state with
  | nil => rfl
  | cons rule rules ih =>
      rw [List.cons_append, runRules, runRules]
      rcases runRule meaning call rule state with ⟨progress, after⟩
      cases progress with
      | next => exact ih
      | leave | done fate => rfl

/-- Rules that end alike where they fire, and otherwise change nothing, do so
together. -/
theorem runRules_map_alike {Item : Type} {items : List Item}
    {ruleOf : Item → Rule Test Effect Name Queue} {fires : Item → Bool}
    {progress : Progress Queue} {after : State} (proper : progress ≠ .next)
    (each : ∀ item ∈ items, runRule meaning call (ruleOf item) state =
      if fires item then (progress, after) else (.next, state)) :
    runRules meaning call (items.map ruleOf) state =
      if items.any fires then (progress, after) else (.next, state) := by
  induction items with
  | nil => rfl
  | cons item items ih =>
      have first := each item List.mem_cons_self
      rw [List.any_cons, List.map_cons]
      cases fired : fires item with
      | true =>
          rw [fired, if_pos rfl] at first
          rw [runRules_cons_ended first proper, Bool.true_or, if_pos rfl]
      | false =>
          rw [fired, if_neg Bool.false_ne_true] at first
          rw [runRules_cons_next first, Bool.false_or]
          exact ih fun other member =>
            each other (List.mem_cons_of_mem _ member)

/-- If each of the rules ends alike or goes on, they end so together exactly if
one of them does. -/
theorem runRules_ends {progress : Progress Queue} {after : State}
    (proper : progress ≠ .next)
    (each : ∀ rule ∈ rules,
      runRule meaning call rule state = (progress, after) ∨
        runRule meaning call rule state = (.next, state)) :
    (∃ rule ∈ rules, runRule meaning call rule state = (progress, after)) ∧
        runRules meaning call rules state = (progress, after) ∨
      (∀ rule ∈ rules, runRule meaning call rule state = (.next, state)) ∧
        runRules meaning call rules state = (.next, state) := by
  induction rules with
  | nil => exact .inr ⟨by simp, rfl⟩
  | cons rule rules ih =>
      rcases each rule List.mem_cons_self with ends | goesOn
      · exact .inl ⟨⟨rule, List.mem_cons_self, ends⟩,
          runRules_cons_ended ends proper⟩
      · rw [runRules_cons_next goesOn]
        rcases ih fun other member => each other (List.mem_cons_of_mem _ member)
          with ⟨⟨other, member, ends⟩, ran⟩ | ⟨rest, ran⟩
        · exact .inl ⟨⟨other, List.mem_cons_of_mem _ member, ends⟩, ran⟩
        · exact .inr ⟨List.forall_mem_cons.mpr ⟨goesOn, rest⟩, ran⟩

theorem runRules_alike {fires : Rule Test Effect Name Queue → Bool}
    {progress : Progress Queue} {after : State} (proper : progress ≠ .next)
    (each : ∀ rule ∈ rules, runRule meaning call rule state =
      if fires rule then (progress, after) else (.next, state)) :
    runRules meaning call rules state =
      if rules.any fires then (progress, after) else (.next, state) := by
  have mapped : runRules meaning call (rules.map id) state = _ :=
    runRules_map_alike proper each
  rwa [List.map_id] at mapped

end Steps

end Running

end QuartzFire.Nft
