import QuartzFire.Foundation.Behaviour

/-!
# Saving the boot config in the background

A commit asks for a save and does not wait for it.  A save that is asked for
while one is under way is made once more when that one ends, so that the last
one starts after every commit.
-/

namespace QuartzFire.Guard.BootSave

/-! ## The module -/

/-- How a save request ends: the answer, or what is thrown. -/
inductive Outcome where
  | answered (success : Bool) (error : Option String)
  | thrown (message : Option String)

def Outcome.error : Outcome → Option String
  | .answered true _ => none
  | .answered false error => some (error.getD "unknown error")
  | .thrown message => some (message.getD "unknown error")

inductive BootSaveState where
  | idle
  | saving
  | error (message : String)

/-- What `run` leaves shown. -/
def Outcome.shown (outcome : Outcome) : BootSaveState :=
  match outcome.error with
  | some error => .error ("Saving to boot config failed: " ++ error)
  | none => .idle

/-- Where a call of `run` stands: its listeners are told, or it waits for the
answer. -/
inductive Run where
  | announcing
  | awaiting
  deriving DecidableEq

inductive Event where
  | call
  | start
  | finish (outcome : Outcome)

/-- The variables of the module, the calls of `run` that have not returned, and
what happened so far, the last first. -/
structure Module where
  state : BootSaveState
  pending : Bool
  running : Bool
  runs : List Run
  trace : List Event

def initial : Module :=
  { state := .idle, pending := false, running := false, runs := [], trace := [] }

def scheduleBootSave (module : Module) : Module :=
  if module.running then
    { module with pending := true, trace := .call :: module.trace }
  else
    { module with
      running := true
      state := .saving
      runs := module.runs ++ [.announcing]
      trace := .call :: module.trace }

/-- The loop is entered: the first request of a run. -/
def enter (index : Nat) (module : Module) : Option Module :=
  match module.runs[index]? with
  | some .announcing => some
      { module with
        pending := false
        runs := module.runs.set index .awaiting
        trace := .start :: module.trace }
  | _ => none

/-- An answer arrives: the loop goes round again, or the run returns. -/
def complete (index : Nat) (outcome : Outcome) (module : Module) :
    Option Module :=
  match module.runs[index]? with
  | some .awaiting =>
      if module.pending then some
        { module with
          pending := false
          trace := .start :: .finish outcome :: module.trace }
      else some
        { module with
          running := false
          state := outcome.shown
          runs := module.runs.eraseIdx index
          trace := .finish outcome :: module.trace }
  | _ => none

/-- A call may come at any time, also from a listener, by `scheduleBootSave` or
by `retryBootSave`. -/
inductive Action where
  | schedule
  | enter (index : Nat)
  | complete (index : Nat) (outcome : Outcome)

def bootSave : TransitionSystem Module Action where
  Initial module := module = initial
  next module action :=
    match action with
    | .schedule => some (scheduleBootSave module)
    | .enter index => enter index module
    | .complete index outcome => complete index outcome module

/-- Requests that were started and have not ended. -/
def Module.inFlight (module : Module) : Nat :=
  module.runs.count .awaiting

/-! ## What is true between any two steps -/

/-- One run at most.  At rest the last request is shown, and nobody called
since it started; an answer is awaited by nobody else, and a call since the
request started is remembered. -/
inductive Settled : Module → Prop where
  | fresh : Settled initial
  | rest (outcome : Outcome) (pending : Bool) (older : List Event) :
      Settled
        { state := outcome.shown, pending := pending, running := false,
          runs := [], trace := .finish outcome :: .start :: older }
  | announcing (pending : Bool) (trace : List Event) :
      Settled
        { state := .saving, pending := pending, running := true,
          runs := [.announcing], trace := trace }
  | awaiting (older : List Event) :
      Settled
        { state := .saving, pending := false, running := true,
          runs := [.awaiting], trace := .start :: older }
  | called (trace : List Event) :
      Settled
        { state := .saving, pending := true, running := true,
          runs := [.awaiting], trace := trace }

theorem Settled.schedule {module : Module} (settled : Settled module) :
    Settled (scheduleBootSave module) := by
  cases settled with
  | fresh => exact .announcing _ _
  | rest outcome pending older => exact .announcing _ _
  | announcing pending trace => exact .announcing _ _
  | awaiting older => exact .called _
  | called trace => exact .called _

theorem Settled.enter {module after : Module} {index : Nat}
    (settled : Settled module) (entered : enter index module = some after) :
    Settled after := by
  cases settled with
  | announcing pending trace =>
      cases index with
      | zero =>
          cases entered
          exact .awaiting _
      | succ index => cases entered
  | fresh => cases entered
  | rest outcome pending older => cases entered
  | awaiting older =>
      cases index with
      | zero => cases entered
      | succ index => cases entered
  | called trace =>
      cases index with
      | zero => cases entered
      | succ index => cases entered

theorem Settled.complete {module after : Module} {index : Nat}
    {outcome : Outcome} (settled : Settled module)
    (completed : complete index outcome module = some after) :
    Settled after := by
  cases settled with
  | awaiting older =>
      cases index with
      | zero =>
          cases completed
          exact .rest outcome _ _
      | succ index => cases completed
  | called trace =>
      cases index with
      | zero =>
          cases completed
          exact .awaiting _
      | succ index => cases completed
  | fresh => cases completed
  | rest outcome pending older => cases completed
  | announcing pending trace =>
      cases index with
      | zero => cases completed
      | succ index => cases completed

theorem settled_of_reachable {module : Module}
    (reached : bootSave.Reachable module) : Settled module := by
  apply reached.invariant
  · rintro _ rfl
    exact .fresh
  · intro before action after settled _ stepped
    cases action with
    | schedule =>
        cases stepped
        exact settled.schedule
    | enter index => exact settled.enter stepped
    | complete index outcome => exact settled.complete stepped

/-! ## What happens in the end -/

open TransitionSystem

/-- The trace only grows. -/
theorem trace_suffix {module after : Module} {action : Action}
    (stepped : bootSave.next module action = some after) :
    module.trace <:+ after.trace := by
  cases action with
  | schedule =>
      cases stepped
      unfold scheduleBootSave
      split
      · exact List.suffix_cons _ _
      · exact List.suffix_cons _ _
  | enter index =>
      change enter index module = some after at stepped
      unfold enter at stepped
      split at stepped
      · cases stepped
        exact List.suffix_cons _ _
      · cases stepped
  | complete index outcome =>
      change complete index outcome module = some after at stepped
      unfold complete at stepped
      split at stepped
      · split at stepped
        · cases stepped
          exact (List.suffix_cons _ _).trans (List.suffix_cons _ _)
        · cases stepped
          exact List.suffix_cons _ _
      · cases stepped

theorem trace_grows (run : Behaviour bootSave) {instant later : Nat}
    (order : instant ≤ later) :
    (run.state instant).trace <:+ (run.state later).trace := by
  obtain ⟨length, rfl⟩ := Nat.exists_eq_add_of_le order
  apply run.grows fun before after => before.trace <:+ after.trace
  · intro module
    exact List.suffix_rfl
  · intro first second third
    exact List.IsSuffix.trans
  · intro module action after
    exact trace_suffix

/-- Listeners return, and requests end in one way or another. -/
structure Fair (run : Behaviour bootSave) : Prop where
  enters : ∀ instant, .announcing ∈ (run.state instant).runs →
    ∃ length index, run.action (instant + length) = some (.enter index)
  completes : ∀ instant, .awaiting ∈ (run.state instant).runs →
    ∃ length index outcome,
      run.action (instant + length) = some (.complete index outcome)

/-- A request starts between two instants. -/
def StartsBetween (run : Behaviour bootSave) (instant later : Nat) : Prop :=
  ∃ recent, (run.state later).trace = recent ++ (run.state instant).trace ∧
    .start ∈ recent

theorem startsBetween_of_step {run : Behaviour bootSave} {instant later : Nat}
    {recent : List Event} (order : instant ≤ later)
    (starts : (run.state (later + 1)).trace =
      .start :: recent ++ (run.state later).trace) :
    StartsBetween run instant (later + 1) := by
  obtain ⟨between, grown⟩ := trace_grows run order
  refine ⟨.start :: recent ++ between, ?_, List.mem_cons_self⟩
  rw [starts, ← grown, List.append_assoc]

theorem enter_starts {module after : Module} {index : Nat}
    (entered : enter index module = some after) :
    after.trace = .start :: [] ++ module.trace := by
  unfold enter at entered
  split at entered
  · cases entered
    rfl
  · cases entered

/-- A call that no request has answered yet waits for the request in flight. -/
def Called (module : Module) : Prop :=
  module.runs = [.awaiting] ∧ module.pending = true ∧ module.running = true

theorem Called.complete {module after : Module} {index : Nat}
    {outcome : Outcome} (called : Called module)
    (completed : complete index outcome module = some after) :
    after.trace = .start :: [.finish outcome] ++ module.trace := by
  unfold BootSave.complete at completed
  rw [if_pos called.2.1] at completed
  split at completed
  · cases completed
    rfl
  · cases completed

theorem Called.schedule {module : Module} (called : Called module) :
    Called (scheduleBootSave module) := by
  unfold scheduleBootSave
  rw [if_pos called.2.2]
  exact ⟨called.1, rfl, called.2.2⟩

theorem Called.not_enter {module after : Module} {index : Nat}
    (called : Called module) : enter index module ≠ some after := by
  intro entered
  unfold enter at entered
  rw [called.1] at entered
  cases index with
  | zero => cases entered
  | succ index => cases entered

theorem called_leads {run : Behaviour bootSave} (fair : Fair run)
    {instant : Nat} (called : Called (run.state instant)) :
    ∃ later, StartsBetween run instant later := by
  obtain ⟨length, index, outcome, ends⟩ :=
    fair.completes instant (by rw [called.1]; exact List.mem_cons_self)
  obtain ⟨later, order, recent, starts⟩ := Behaviour.leads
    (fun instant => Called (run.state instant))
    (fun instant => ∃ recent, (run.state (instant + 1)).trace =
      .start :: recent ++ (run.state instant).trace)
    (fun instant => ∃ index outcome,
      run.action instant = some (.complete index outcome))
    (by
      intro instant called
      cases happens : run.action instant with
      | none =>
          rw [run.idle instant happens]
          exact .inl called
      | some action =>
          have stepped := run.step instant action happens
          cases action with
          | schedule =>
              apply Or.inl
              rw [← Option.some.inj stepped]
              exact called.schedule
          | enter index => exact absurd stepped called.not_enter
          | complete index outcome =>
              exact .inr ⟨_, called.complete stepped⟩)
    (by
      rintro instant called ⟨index, outcome, happens⟩
      exact ⟨_, called.complete (run.step instant _ happens)⟩)
    called ⟨index, outcome, ends⟩
  exact ⟨later + 1, startsBetween_of_step order starts⟩

theorem announcing_leads {run : Behaviour bootSave} (fair : Fair run)
    {instant : Nat} (announcing : .announcing ∈ (run.state instant).runs) :
    ∃ later, StartsBetween run instant later := by
  obtain ⟨length, index, entered⟩ := fair.enters instant announcing
  have starts := enter_starts (run.step _ _ entered)
  exact ⟨_, startsBetween_of_step (Nat.le_add_right _ _) starts⟩

/-- Right after a call a request is about to start, or the call is remembered
until the one in flight ends. -/
theorem Settled.after_schedule {module : Module} (settled : Settled module) :
    .announcing ∈ (scheduleBootSave module).runs ∨
      Called (scheduleBootSave module) := by
  cases settled with
  | fresh => exact .inl List.mem_cons_self
  | rest outcome pending older => exact .inl List.mem_cons_self
  | announcing pending trace => exact .inl List.mem_cons_self
  | awaiting older => exact .inr ⟨rfl, rfl, rfl⟩
  | called trace => exact .inr ⟨rfl, rfl, rfl⟩

/-- The last request succeeded, and nobody has called since it started. -/
def LastSaved (trace : List Event) : Prop :=
  ∃ outcome recent older, trace = recent ++ .start :: older ∧
    .finish outcome ∈ recent ∧ outcome.error = none ∧
    .start ∉ recent ∧ .call ∉ recent

theorem Settled.lastSaved {module : Module} (settled : Settled module)
    (rests : module.runs = []) (idle : module.state = .idle) :
    module.trace = [] ∨ LastSaved module.trace := by
  cases settled with
  | fresh => exact .inl rfl
  | rest outcome pending older =>
      apply Or.inr
      refine ⟨outcome, [.finish outcome], older, rfl, List.mem_cons_self, ?_,
        by simp, by simp⟩
      dsimp only [Outcome.shown] at idle
      cases fails : outcome.error with
      | none => rfl
      | some error =>
          rw [fails] at idle
          cases idle
  | announcing pending trace => cases rests
  | awaiting older => cases rests
  | called trace => cases rests

theorem Settled.inFlight {module : Module} (settled : Settled module) :
    module.inFlight ≤ 1 := by
  cases settled with
  | fresh => exact Nat.zero_le _
  | rest outcome pending older => exact Nat.zero_le _
  | announcing pending trace => exact Nat.zero_le _
  | awaiting older => exact Nat.le_refl _
  | called trace => exact Nat.le_refl _

theorem no_commit_unsaved :
    (∀ module, bootSave.Reachable module → module.inFlight ≤ 1) ∧
    (∀ run : Behaviour bootSave, Fair run → ∀ instant,
      run.action instant = some .schedule →
        ∃ later, StartsBetween run (instant + 1) later) ∧
    (∀ module, bootSave.Reachable module → module.runs = [] →
      module.state = .idle → module.trace = [] ∨ LastSaved module.trace) := by
  refine ⟨?_, ?_, ?_⟩
  · intro module reached
    exact (settled_of_reachable reached).inFlight
  · intro run fair instant called
    have settled := settled_of_reachable (run.reachable instant)
    have after := settled.after_schedule
    rw [Option.some.inj (run.step instant _ called)] at after
    rcases after with announcing | called
    · exact announcing_leads fair announcing
    · exact called_leads fair called
  · intro module reached
    exact (settled_of_reachable reached).lastSaved

/-- One call, and nothing after its save succeeded. -/
def oneSave : Behaviour bootSave where
  state
    | 0 => initial
    | 1 => { state := .saving, pending := false, running := true,
             runs := [.announcing], trace := [.call] }
    | 2 => { state := .saving, pending := false, running := true,
             runs := [.awaiting], trace := [.start, .call] }
    | _ + 3 => { state := .idle, pending := false, running := false, runs := [],
                 trace := [.finish (.answered true none), .start, .call] }
  action
    | 0 => some .schedule
    | 1 => some (.enter 0)
    | 2 => some (.complete 0 (.answered true none))
    | _ + 3 => none
  start := rfl
  idle
    | 0, absent => by cases absent
    | 1, absent => by cases absent
    | 2, absent => by cases absent
    | _ + 3, _ => rfl
  step
    | 0, _, happens => by cases happens; rfl
    | 1, _, happens => by cases happens; rfl
    | 2, _, happens => by cases happens; rfl
    | _ + 3, _, happens => by cases happens

theorem fair_oneSave : Fair oneSave := by
  constructor
  · intro instant announcing
    match instant, announcing with
    | 1, _ => exact ⟨0, 0, rfl⟩
    | 0, absent => cases absent
    | 2, absent => simp [oneSave] at absent
    | _ + 3, absent => cases absent
  · intro instant awaiting
    match instant, awaiting with
    | 2, _ => exact ⟨0, 0, _, rfl⟩
    | 0, absent => cases absent
    | 1, absent => simp [oneSave] at absent
    | _ + 3, absent => cases absent

theorem oneSave_saved :
    (∃ later, StartsBetween oneSave 1 later) ∧
      LastSaved (oneSave.state 3).trace :=
  ⟨no_commit_unsaved.2.1 oneSave fair_oneSave 0 rfl,
    (no_commit_unsaved.2.2 _ (oneSave.reachable 3) rfl rfl).resolve_left
      (List.cons_ne_nil _ _)⟩

end QuartzFire.Guard.BootSave
