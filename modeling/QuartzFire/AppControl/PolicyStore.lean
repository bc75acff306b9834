import QuartzFire.Foundation.LastKnown
import QuartzFire.AppControl.Nftgen

/-!
# The stored policy and the kernel's rules

A load reads and compiles the policy file, has nft replace the bindings chain
and stores the policy the workers read.  Each of the three may fail.
-/

namespace QuartzFire.AppControl

open Nft

inductive LoadError where
  | io
  | parse
  | policy (error : PolicyError)
  | nft
  deriving DecidableEq, Repr

/-- A daemon with its configuration; `parsePolicy` is the parser of the policy
file's format. -/
structure StoreSetup (Text : Type) where
  parsePolicy : Text → Option PolicyFile
  parseAddr : String → Option IpAddr
  catalog : Catalog
  layout : Layout
  queues : QueueSpec

abbrev QfTable := Chains RuleTest RuleEffect QfChain QueueStatement

/-! ## Scripts for nft -/

inductive NftCommand where
  | flush (chain : QfChain)
  | addRule (chain : QfChain) (rule : QfRule)

def NftCommand.run (table : QfTable) : NftCommand → QfTable
  | .flush chain => Function.update table chain []
  | .addRule chain rule => Function.update table chain (table chain ++ [rule])

/-- Flush and refill of the bindings chain. -/
def renderBindingsReload (parseAddr : String → Option IpAddr) (layout : Layout)
    (queues : QueueSpec) (bindings : List PolicyBinding) : List NftCommand :=
  .flush .qfBindings ::
    (bindingRules parseAddr layout queues bindings).map
      (.addRule .qfBindings)

/-- `nft -f` applies a script whole or, where it refuses, not at all. -/
def nftApply (accepted : Bool) (script : List NftCommand) (table : QfTable) :
    Option QfTable :=
  if accepted then some (script.foldl NftCommand.run table) else none

theorem foldl_addRule (chain : QfChain) (rules : List QfRule)
    (table : QfTable) :
    (rules.map (NftCommand.addRule chain)).foldl NftCommand.run table =
      Function.update table chain (table chain ++ rules) := by
  induction rules generalizing table with
  | nil => simp
  | cons rule rest ih =>
      rw [List.map_cons, List.foldl_cons, ih, NftCommand.run,
        Function.update_self, Function.update_idem, List.append_assoc]
      rfl

/-- After a reload the table is the one rendered from the new bindings. -/
theorem run_renderBindingsReload (parseAddr : String → Option IpAddr)
    (layout : Layout) (queues : QueueSpec) (old new : List PolicyBinding) :
    (renderBindingsReload parseAddr layout queues new).foldl NftCommand.run
        (renderTable parseAddr layout queues old) =
      renderTable parseAddr layout queues new := by
  rw [renderBindingsReload, List.foldl_cons, foldl_addRule, NftCommand.run,
    Function.update_self, Function.update_idem, List.nil_append]
  funext chain
  cases chain with
  | qfBindings => exact Function.update_self _ _ _
  | forward | forwardVerdict | qfPersist =>
      rw [Function.update_of_ne (by decide)]
      rfl

/-! ## The manager -/

/-- `PolicyManager` -/
structure PolicyManager where
  current : Policy
  generation : Nat
  lastError : Option LoadError

namespace PolicyManager

def new : PolicyManager := ⟨.empty, 0, none⟩

variable {Text : Type} (setup : StoreSetup Text)

/-- Parsing and compiling, the next load being counted. -/
def result (manager : PolicyManager) (text : Text) : Except LoadError Policy :=
  match setup.parsePolicy text with
  | none => .error .parse
  | some file =>
      (Policy.compile (fun addr => (setup.parseAddr addr).map isIpv4) file
        setup.catalog setup.layout (manager.generation + 1)).mapError .policy

def loadStr (manager : PolicyManager) (text : Text) :
    Except LoadError Policy × PolicyManager :=
  match manager.result setup text with
  | .ok compiled => (.ok compiled,
      { current := compiled
        generation := manager.generation + 1
        lastError := none })
  | .error error => (.error error, { manager with lastError := some error })

/-- None is a file that cannot be read. -/
def loadPath (manager : PolicyManager) :
    Option Text → Except LoadError Policy × PolicyManager
  | none => (.error .io, { manager with lastError := some .io })
  | some text => manager.loadStr setup text

end PolicyManager

/-! ## The daemon -/

/-- What the watcher holds, what the workers read and the kernel's table. -/
structure PolicyStore where
  manager : PolicyManager
  policy : Policy
  table : QfTable
  lastError : Option LoadError

/-- What a load meets: the text of the file, and whether nft takes the rules. -/
structure LoadAttempt (Text : Type) where
  text : Option Text
  accepted : Bool

namespace StoreSetup

variable {Text : Type} (setup : StoreSetup Text)

/-- The daemon after its start, whose table could be installed.  The watcher
reads the file once more for a manager of its own. -/
def start (initial seed : Option Text) : PolicyStore :=
  let first := PolicyManager.new.loadPath setup initial
  let policy := match first.1 with
    | .ok policy => policy
    | .error _ => first.2.current
  { manager := (PolicyManager.new.loadPath setup seed).2
    policy
    table := renderTable setup.parseAddr setup.layout setup.queues
      policy.bindings
    lastError := first.2.lastError }

def reload (store : PolicyStore) (attempt : LoadAttempt Text) : PolicyStore :=
  match store.manager.loadPath setup attempt.text with
  | (.error error, manager) =>
      { store with manager, lastError := some error }
  | (.ok policy, manager) =>
      match nftApply attempt.accepted (renderBindingsReload setup.parseAddr
          setup.layout setup.queues policy.bindings) store.table with
      | none => { store with manager, lastError := some .nft }
      | some table => { manager, policy, table, lastError := none }

/-! ## Which file is in force -/

/-- The compiled policy of a file, whatever the count of loads. -/
def compiles (file : PolicyFile) (generation : Nat) :
    Except PolicyError Policy :=
  Policy.compile (fun addr => (setup.parseAddr addr).map isIpv4) file
    setup.catalog setup.layout generation

/-- The file a text stands for, if it is valid. -/
def validFile (text : Option Text) : Option PolicyFile :=
  (text.bind setup.parsePolicy).filter fun file =>
    (setup.compiles file 0).isOk

/-- The file a load applies completely. -/
def appliedFile (attempt : LoadAttempt Text) : Option PolicyFile :=
  if attempt.accepted then setup.validFile attempt.text else none

/-- Policy and rules are both those of the file. -/
structure Stems (file : PolicyFile) (store : PolicyStore) : Prop where
  policy : ∃ generation, setup.compiles file generation = .ok store.policy
  table : store.table = renderTable setup.parseAddr setup.layout setup.queues
    store.policy.bindings

/-- No file was applied yet: nothing is bound and nothing queued. -/
structure Unbound (store : PolicyStore) : Prop where
  policy : store.policy = .empty
  table : store.table = renderTable setup.parseAddr setup.layout setup.queues []

def InForce (store : PolicyStore) : Option PolicyFile → Prop
  | some file => setup.Stems file store
  | none => setup.Unbound store

end StoreSetup

/-- The count of loads is only written down. -/
theorem Policy.compile_generation {isIpv4 : String → Option Bool}
    {file : PolicyFile} {catalog : Catalog} {layout : Layout}
    (first second : Nat) :
    compile isIpv4 file catalog layout second =
      (compile isIpv4 file catalog layout first).map fun policy =>
        { policy with generation := second } := by
  simp only [compile, bind, Except.bind, pure, Except.pure, throw, throwThe,
    MonadExceptOf.throw]
  generalize file.bindings.insertionSort (fun left right => left.id ≤ right.id) =
    bindings
  split
  · rfl
  · cases checkDistinct bindings with
    | error error => rfl
    | ok _ =>
        dsimp only
        cases bindings.forM (checkMatch isIpv4) with
        | error error => rfl
        | ok _ =>
            dsimp only
            cases boundActions file.actions bindings [] with
            | error error => rfl
            | ok bound =>
                dsimp only
                split <;> rfl

namespace StoreSetup

variable {Text : Type} {setup : StoreSetup Text}

theorem compiles_isOk {file : PolicyFile} {generation : Nat} :
    (setup.compiles file generation).isOk = (setup.compiles file 0).isOk := by
  rw [compiles, compiles, Policy.compile_generation 0 generation]
  cases Policy.compile (fun addr => (setup.parseAddr addr).map isIpv4) file
    setup.catalog setup.layout 0 <;> rfl

theorem validFile_of_result {manager : PolicyManager} {text : Text}
    {policy : Policy} (compiled : manager.result setup text = .ok policy) :
    ∃ file, setup.validFile (some text) = some file ∧
      setup.compiles file (manager.generation + 1) = .ok policy := by
  unfold PolicyManager.result at compiled
  cases parsed : setup.parsePolicy text with
  | none => simp [parsed] at compiled
  | some file =>
      simp only [parsed] at compiled
      have taken : setup.compiles file (manager.generation + 1) =
          .ok policy := by
        unfold compiles
        revert compiled
        cases Policy.compile (fun addr => (setup.parseAddr addr).map isIpv4)
            file setup.catalog setup.layout (manager.generation + 1) with
        | error error => exact fun made => absurd made (by simp [Except.mapError])
        | ok made => exact fun same => congrArg Except.ok (Except.ok.inj same)
      refine ⟨file, ?_, taken⟩
      have valid := @compiles_isOk _ setup file (manager.generation + 1)
      rw [taken] at valid
      unfold validFile
      rw [Option.bind_some, parsed, Option.filter_some, ← valid]
      rfl

theorem validFile_of_refused {manager : PolicyManager} {text : Text}
    {error : LoadError} (refused : manager.result setup text = .error error) :
    setup.validFile (some text) = none := by
  unfold PolicyManager.result at refused
  unfold validFile
  rw [Option.bind_some]
  cases parsed : setup.parsePolicy text with
  | none => rfl
  | some file =>
      simp only [parsed] at refused
      have valid := @compiles_isOk _ setup file (manager.generation + 1)
      rw [Option.filter_some, ← valid]
      unfold compiles
      revert refused
      cases Policy.compile (fun addr => (setup.parseAddr addr).map isIpv4)
          file setup.catalog setup.layout (manager.generation + 1) with
      | error error => exact fun _ => rfl
      | ok made => exact fun made => absurd made (by simp [Except.mapError])

/-- A manager takes a file exactly if it is valid. -/
theorem loadPath_cases (setup : StoreSetup Text) (manager : PolicyManager)
    (text : Option Text) :
    (∃ file policy after, setup.validFile text = some file ∧
      setup.compiles file (manager.generation + 1) = .ok policy ∧
      manager.loadPath setup text = (.ok policy, after)) ∨
    (setup.validFile text = none ∧ ∃ error after,
      manager.loadPath setup text = (.error error, after) ∧
        after.current = manager.current ∧ after.lastError = some error) := by
  cases text with
  | none =>
      exact .inr ⟨rfl, .io, { manager with lastError := some .io }, rfl, rfl,
        rfl⟩
  | some text =>
      have loads : manager.loadPath setup (some text) =
        manager.loadStr setup text := rfl
      cases outcome : manager.result setup text with
      | error error =>
          refine .inr ⟨validFile_of_refused outcome, error,
            { manager with lastError := some error }, ?_, rfl, rfl⟩
          rw [loads, PolicyManager.loadStr, outcome]
      | ok policy =>
          obtain ⟨file, valid, compiled⟩ := validFile_of_result outcome
          refine .inl ⟨file, policy, ⟨policy, manager.generation + 1, none⟩,
            valid, compiled, ?_⟩
          rw [loads, PolicyManager.loadStr, outcome]

theorem start_inForce (initial seed : Option Text) :
    setup.InForce (setup.start initial seed) (setup.validFile initial) := by
  unfold start
  rcases loadPath_cases setup .new initial with
    ⟨file, policy, after, valid, compiled, loaded⟩ |
      ⟨valid, error, after, refused, kept, _⟩
  · rw [valid, loaded]
    exact ⟨⟨_, compiled⟩, rfl⟩
  · rw [valid, refused]
    dsimp only
    rw [kept]
    exact ⟨rfl, rfl⟩

/-- A load that is not applied completely leaves policy and rules alone. -/
theorem reload_failed {attempt : LoadAttempt Text}
    (failed : setup.appliedFile attempt = none) (store : PolicyStore) :
    (setup.reload store attempt).policy = store.policy ∧
      (setup.reload store attempt).table = store.table ∧
      (setup.reload store attempt).lastError ≠ none := by
  unfold reload
  rcases loadPath_cases setup store.manager attempt.text with
    ⟨file, policy, after, valid, _, loaded⟩ | ⟨_, error, after, refused, _⟩
  · have rejected : attempt.accepted = false := by
      unfold appliedFile at failed
      rw [valid] at failed
      cases accepted : attempt.accepted with
      | false => rfl
      | true => simp [accepted] at failed
    rw [loaded, rejected]
    exact ⟨rfl, rfl, Option.some_ne_none _⟩
  · rw [refused]
    exact ⟨rfl, rfl, Option.some_ne_none _⟩

/-- A file that is applied replaces policy and rules, whatever they were
rendered from. -/
theorem reload_applied {attempt : LoadAttempt Text} {file : PolicyFile}
    (applied : setup.appliedFile attempt = some file) {store : PolicyStore}
    {bindings : List PolicyBinding}
    (rendered : store.table = renderTable setup.parseAddr setup.layout
      setup.queues bindings) :
    setup.Stems file (setup.reload store attempt) ∧
      (setup.reload store attempt).lastError = none := by
  obtain ⟨accepted, listed⟩ := Option.ite_none_right_eq_some.mp applied
  unfold reload
  rcases loadPath_cases setup store.manager attempt.text with
    ⟨other, policy, after, valid, compiled, loaded⟩ | ⟨invalid, _⟩
  · rw [listed] at valid
    cases valid
    rw [loaded, accepted]
    refine ⟨⟨⟨_, compiled⟩, ?_⟩, rfl⟩
    rw [rendered]
    exact run_renderBindingsReload setup.parseAddr setup.layout setup.queues
      bindings policy.bindings
  · rw [invalid] at listed
    cases listed

/-- One load keeps what is in force, or puts its own file in force. -/
theorem reload_inForce {store : PolicyStore} {file : Option PolicyFile}
    (inForce : setup.InForce store file) (attempt : LoadAttempt Text) :
    setup.InForce (setup.reload store attempt)
      ((setup.appliedFile attempt).or file) := by
  cases applied : setup.appliedFile attempt with
  | none =>
      obtain ⟨policy, table, _⟩ := reload_failed applied store
      rw [Option.none_or]
      cases file with
      | none =>
          exact ⟨policy.trans inForce.policy, table.trans inForce.table⟩
      | some file =>
          obtain ⟨generation, compiled⟩ := inForce.policy
          refine ⟨⟨generation, ?_⟩, ?_⟩
          · rw [policy, compiled]
          · rw [policy, table, inForce.table]
  | some applied' =>
      rw [Option.some_or]
      have rendered : ∃ bindings, store.table = renderTable setup.parseAddr
          setup.layout setup.queues bindings := by
        cases file with
        | none => exact ⟨[], inForce.table⟩
        | some file => exact ⟨_, inForce.table⟩
      obtain ⟨bindings, rendered⟩ := rendered
      exact (reload_applied applied rendered).1

/-- After any sequence of loads policy and rules are those of the last file
that was applied completely, and no other load changes either. -/
theorem policy_and_rules_agree (setup : StoreSetup Text)
    (initial seed : Option Text) (attempts : List (LoadAttempt Text)) :
    setup.InForce (attempts.foldl setup.reload (setup.start initial seed))
      ((lastKnown setup.appliedFile attempts).or (setup.validFile initial)) ∧
    ∀ attempt, setup.appliedFile attempt = none →
      (setup.reload (attempts.foldl setup.reload (setup.start initial seed))
        attempt).policy =
        (attempts.foldl setup.reload (setup.start initial seed)).policy ∧
      (setup.reload (attempts.foldl setup.reload (setup.start initial seed))
        attempt).table =
        (attempts.foldl setup.reload (setup.start initial seed)).table := by
  constructor
  · induction attempts using List.reverseRecOn with
    | nil => exact start_inForce initial seed
    | append_singleton attempts attempt ih =>
        rw [List.foldl_append, lastKnown_concat, Option.or_assoc]
        exact reload_inForce ih attempt
  · intro attempt failed
    obtain ⟨policy, table, _⟩ := reload_failed failed _
    exact ⟨policy, table⟩

end StoreSetup

end QuartzFire.AppControl
