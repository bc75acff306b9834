import QuartzFire.Foundation.TransitionSystem
import QuartzFire.Ips.Rewrite

/-!
# Runs of the helper

A run of the helper loads the settings and what it saved last, renders the
engine's configuration, fetches signatures if need be, rewrites the ruleset,
renders once more and starts or reloads the engine.  Runs follow each other;
the settings may be written, and the engine start or stop by itself, between
any two steps, and a run may be cut short at any of them.
-/

namespace QuartzFire.Ips

open TransitionSystem

/-! ## What is on disk -/

structure LastUpdate where
  ok : Bool
  message : Option String
  deriving DecidableEq

/-- `state.json` -/
structure SavedState where
  updateSeqApplied : Nat
  lastUpdate : Option LastUpdate
  deriving DecidableEq

/-- What the rendered `suricata.yaml` depends on. -/
structure EngineConfig where
  fast : Bool
  /-- Whether the classifications are those of the downloaded ruleset. -/
  downloaded : Bool
  deriving DecidableEq

structure RenderedFiles where
  /-- `none` is a file that was not rendered, or no file. -/
  yaml : Option EngineConfig
  dropIn : Bool
  deriving DecidableEq

def engineConfig (settings : IpsSettings) (files : RuleFiles) : EngineConfig where
  fast := settings.scanMode = .fast
  downloaded := files.classification.isSome

/-- `render_configs` -/
def renderConfigs (settings : IpsSettings) (files : RuleFiles)
    (rendered : RenderedFiles) : RenderedFiles × Bool :=
  let wanted : RenderedFiles := ⟨some (engineConfig settings files), true⟩
  (wanted, rendered ≠ wanted)

/-! ## Runs -/

inductive Phase where
  | idle
  /-- The intrusion prevention is off. -/
  | stopping
  | rendering
  | deciding
  | fetching
  | saving
  | rewriting
  | rerendering
  | starting
  | ended
  deriving DecidableEq

structure Run where
  force : Bool
  /-- The settings and the saved state that the run began with. -/
  settings : IpsSettings
  loaded : SavedState
  /-- `state` -/
  saved : SavedState
  fetched : Bool
  /-- The fetch has changed the active ruleset. -/
  touched : Bool
  rulesChanged : Bool
  configChanged : Bool
  error : Option String
  /-- The numbers that had been requested when the fetch began. -/
  before : List Nat
  deriving DecidableEq

def Run.begin (force : Bool) (settings : IpsSettings) (saved : SavedState) :
    Run where
  force := force
  settings := settings
  loaded := saved
  saved := saved
  fetched := false
  touched := false
  rulesChanged := false
  configChanged := false
  error := none
  before := []

def haveRules (files : RuleFiles) : Bool :=
  files.pristine.any (· ≠ [])

/-- `need_update` -/
def Run.needsUpdate (run : Run) (files : RuleFiles) : Bool :=
  run.force || run.settings.updateSeq > run.saved.updateSeqApplied ||
    !haveRules files || !(run.saved.lastUpdate.any LastUpdate.ok)

/-- The active ruleset as it is read to compare it. -/
def readText (files : RuleFiles) : Option (List Char) :=
  files.rules.map universalNewlines

/-- What `suricata-update` leaves. -/
structure FetchOutcome where
  exitOk : Bool
  /-- The last line of its output, or its exit code. -/
  message : String
  rules : Option (List Char)
  classification : Option (List Char)
  deriving DecidableEq

def FetchOutcome.ok (outcome : FetchOutcome) : Bool :=
  outcome.exitOk && outcome.rules.isSome

structure ApplyState where
  settings : IpsSettings
  saved : SavedState
  files : RuleFiles
  rendered : RenderedFiles
  running : Bool
  /-- The ruleset or the configuration has changed since the engine was started
  or reloaded. -/
  stale : Bool
  phase : Phase
  run : Run
  /-- Every number that the settings have had. -/
  requested : List Nat
  /-- The numbers requested before a successful fetch began. -/
  honoured : List Nat
  /-- What the last successful fetch gave. -/
  given : Option (List Char)
  deriving DecidableEq

inductive ApplyAction where
  | write (settings : IpsSettings)
  | bump
  | launch (force : Bool)
  /-- A step that depends on nothing but the state. -/
  | advance
  | fetch (outcome : FetchOutcome)
  /-- `systemctl` ends, well or not, and leaves the engine running or not; where
  it fails, the engine may have loaded everything anyway. -/
  | command (ok running loaded : Bool)
  /-- The run is cut short; what a fetch has left until then. -/
  | cut (left : RuleFiles)
  | engineStarts
  | engineStops
  deriving DecidableEq

section Steps

variable (classes : CharClasses)

namespace ApplyState

def setSettings (state : ApplyState) (settings : IpsSettings) : ApplyState :=
  { state with
    settings := settings
    requested := settings.updateSeq :: state.requested }

/-- New rule files; the engine falls behind when the active ruleset changes, be
it more than a line end. -/
def setFiles (state : ApplyState) (files : RuleFiles) : ApplyState :=
  { state with
    files := files
    stale := state.stale || readText files ≠ readText state.files }

def render (state : ApplyState) : ApplyState :=
  let (rendered, changed) :=
    renderConfigs state.run.settings state.files state.rendered
  { state with rendered := rendered, stale := state.stale || changed }

/-- `suricata_update` -/
def suricataUpdate (state : ApplyState) (outcome : FetchOutcome) :
    ApplyState :=
  let downloaded := { state.files with
    rules := outcome.rules, classification := outcome.classification }
  let run := { state.run with
    fetched := true
    touched := outcome.rules ≠ state.files.rules
    saved := ⟨state.run.saved.updateSeqApplied,
      some ⟨false, some outcome.message⟩⟩ }
  if outcome.ok then
    { state.setFiles { downloaded with pristine := outcome.rules } with
      run := { run with
        saved := ⟨run.settings.updateSeq, some ⟨true, none⟩⟩ }
      honoured := run.before ++ state.honoured
      given := outcome.rules }
  else
    { state.setFiles downloaded with
      run := { run with
        error := if haveRules state.files then none
          else some ("signature download failed: " ++ outcome.message) } }

/-- The ruleset that `rewrite_rules` would leave. -/
def rewritten (state : ApplyState) : RuleFiles :=
  (rewriteRules classes state.run.settings state.files).1

/-- `start_or_reload` has something to do. -/
def mustStart (state : ApplyState) : Bool :=
  state.run.configChanged || !state.running || state.run.rulesChanged

def advance (state : ApplyState) : Option ApplyState :=
  match state.phase with
  | .rendering => some { state.render with phase := .deciding }
  | .deciding =>
      if state.run.needsUpdate state.files then
        some { state with
          phase := .fetching
          run := { state.run with before := state.requested } }
      else some { state with phase := .rewriting }
  | .saving =>
      some { state with phase := .rewriting, saved := state.run.saved }
  | .rewriting =>
      let files := state.rewritten classes
      some { state.setFiles files with
        phase := .rerendering
        run := { state.run with
          rulesChanged := readText files ≠ readText state.files } }
  | .rerendering =>
      some { state.render with
        phase := .starting
        run := { state.run with
          configChanged := (renderConfigs state.run.settings state.files
            state.rendered).2 } }
  | .starting =>
      if state.mustStart then none else some { state with phase := .ended }
  | _ => none

/-- A `systemctl` command ends. -/
def command (state : ApplyState) (ok running loaded : Bool) :
    Option ApplyState :=
  match state.phase with
  | .stopping =>
      some { state with phase := .ended, running := state.running && running }
  | .starting =>
      if state.mustStart then
        if ok then
          some { state with phase := .ended, running := true, stale := false }
        else
          some { state with
            phase := .ended
            running := running
            stale := state.stale && !loaded
            run := { state.run with
              error := some (state.run.error.getD "suricata start failed") } }
      else none
  | _ => none

def next (state : ApplyState) : ApplyAction → Option ApplyState
  | .write settings => some (state.setSettings settings)
  | .bump => some (state.setSettings { state.settings with
      updateSeq := (state.settings.updateSeq + 1) % 2 ^ 64 })
  | .launch force =>
      if state.phase = .idle || state.phase = .ended then
        some { state with
          phase := if state.settings.enabled then .rendering else .stopping
          run := .begin force state.settings state.saved }
      else none
  | .advance => state.advance classes
  | .fetch outcome =>
      if state.phase = .fetching then
        some { state.suricataUpdate outcome with phase := .saving }
      else none
  | .command ok running loaded => state.command ok running loaded
  | .cut left =>
      match state.phase with
      | .idle | .ended => none
      | .fetching => some { state.setFiles left with phase := .idle }
      | _ => some { state with phase := .idle }
  | .engineStarts => some { state with running := true, stale := false }
  | .engineStops => some { state with running := false }

end ApplyState

def helperRuns : TransitionSystem ApplyState ApplyAction where
  Initial state := state.phase = .idle ∧ state.saved = ⟨0, none⟩ ∧
    state.stale = false ∧ state.requested = [state.settings.updateSeq] ∧
      state.honoured = [] ∧ state.given = none
  next := ApplyState.next classes

end Steps

/-! ## What the runs promise -/

/-- The text holds the signatures of `given`: untouched, or as they are
rewritten. -/
def SignaturesOf (classes : CharClasses) (given : List Char)
    (rules : Option (List Char)) : Prop :=
  rules = some given ∨ ∃ settings priorities,
    rules = some (joinLines ((textLines (universalNewlines given)).map
      (rewriteLine classes settings priorities)))

/-- A run that was enabled has its decision behind it. -/
def ApplyState.Decided (state : ApplyState) : Prop :=
  match state.phase with
  | .saving | .rewriting | .rerendering | .starting => True
  | .ended => state.run.settings.enabled = true
  | _ => False

/-- A number that is applied was requested before a successful fetch began. -/
def Backed (honoured : List Nat) (applied : Nat) : Prop :=
  applied = 0 ∨ ∃ number ∈ honoured, applied ≤ number

structure UpdatesHonoured (classes : CharClasses) (state : ApplyState) :
    Prop where
  applied : Backed state.honoured state.saved.updateSeqApplied
  fetched : state.Decided →
    state.run.loaded.updateSeqApplied < state.run.settings.updateSeq →
      state.run.fetched = true
  pristine : ∀ given ∈ state.given, state.files.pristine = some given
  /-- Except between a fetch and the rewriting after it. -/
  rules : ∀ given ∈ state.given, state.phase ≠ .saving →
    state.phase ≠ .rewriting → SignaturesOf classes given state.files.rules
  loaded : state.phase = .ended → state.run.error = none →
    state.running = true → state.stale = false

/-- While the engine runs, the first rendering changes nothing, what a fetch
brings is changed by the rewriting, and no command fails that leaves it behind;
and a run is cut short only where nothing is left half done. -/
def Steady (classes : CharClasses) (state : ApplyState) : ApplyAction → Prop
  | .advance => state.phase = .rendering → state.running = true →
      (renderConfigs state.run.settings state.files state.rendered).2 = false
  | .fetch outcome => state.running = true →
      outcome.rules.map universalNewlines = readText state.files ∨
        readText ((state.suricataUpdate outcome).rewritten classes) ≠
          outcome.rules.map universalNewlines
  | .command ok running loaded => state.phase = .starting → ok = false →
      running = true → loaded = true ∨ state.stale = false
  | .cut left =>
      (state.running = true → state.stale = false) ∧
        match state.phase with
        | .fetching => left.pristine = state.files.pristine ∧
            left.rules = state.files.rules
        | .saving | .rewriting =>
            state.run.touched = false ∨ state.files.rules = state.given
        | _ => True
  | _ => True

/-! ### Request numbers -/

theorem Backed.append {honoured : List Nat} {applied : Nat}
    (backed : Backed honoured applied) (more : List Nat) :
    Backed (more ++ honoured) applied := by
  obtain none | ⟨number, member, above⟩ := backed
  · exact .inl none
  · exact .inr ⟨number, List.mem_append_right _ member, above⟩

/-- What holds of the numbers in every run. -/
structure Numbered (state : ApplyState) : Prop where
  requested : state.settings.updateSeq ∈ state.requested
  running : state.phase ≠ .idle →
    state.run.settings.updateSeq ∈ state.requested
  before : state.phase = .fetching →
    state.run.settings.updateSeq ∈ state.run.before
  applied : Backed state.honoured state.saved.updateSeqApplied
  saving : state.phase ≠ .idle →
    Backed state.honoured state.run.saved.updateSeqApplied
  unchanged : state.phase = .rendering ∨ state.phase = .deciding →
    state.run.saved = state.run.loaded
  stopping : state.phase = .stopping → state.run.settings.enabled = false
  decided : state.Decided →
    state.run.loaded.updateSeqApplied < state.run.settings.updateSeq →
      state.run.fetched = true

namespace Numbered

variable {classes : CharClasses} {state after : ApplyState}

theorem setSettings (numbered : Numbered state) (settings : IpsSettings) :
    Numbered (state.setSettings settings) where
  requested := List.mem_cons_self
  running active := List.mem_cons_of_mem _ (numbered.running active)
  before := numbered.before
  applied := numbered.applied
  saving := numbered.saving
  unchanged := numbered.unchanged
  stopping := numbered.stopping
  decided := numbered.decided

theorem launch (numbered : Numbered state) (force : Bool) :
    Numbered { state with
      phase := if state.settings.enabled then .rendering else .stopping
      run := .begin force state.settings state.saved } := by
  cases enabled : state.settings.enabled with
  | true =>
      exact ⟨numbered.requested, fun _ => numbered.requested, nofun,
        numbered.applied, fun _ => numbered.applied, fun _ => rfl, nofun,
        fun decided => decided.elim⟩
  | false =>
      exact ⟨numbered.requested, fun _ => numbered.requested, nofun,
        numbered.applied, fun _ => numbered.applied, fun _ => rfl,
        fun _ => enabled, fun decided => decided.elim⟩

theorem fetch (numbered : Numbered state) (fetching : state.phase = .fetching)
    (outcome : FetchOutcome) :
    Numbered { state.suricataUpdate outcome with phase := .saving } := by
  have active : state.phase ≠ .idle := by rw [fetching]; nofun
  unfold ApplyState.suricataUpdate
  split
  · have backed : Backed (state.run.before ++ state.honoured)
        state.run.settings.updateSeq :=
      .inr ⟨_, List.mem_append_left _ (numbered.before fetching),
        Nat.le_refl _⟩
    exact ⟨numbered.requested, fun _ => numbered.running active, nofun,
      numbered.applied.append _, fun _ => backed, nofun, nofun,
      fun _ _ => rfl⟩
  · exact ⟨numbered.requested, fun _ => numbered.running active, nofun,
      numbered.applied, fun _ => numbered.saving active, nofun, nofun,
      fun _ _ => rfl⟩

theorem advance (numbered : Numbered state)
    (stepped : state.advance classes = some after) : Numbered after := by
  unfold ApplyState.advance at stepped
  split at stepped
  case h_1 rendering =>
    have active : state.phase ≠ .idle := by rw [rendering]; nofun
    cases stepped
    exact ⟨numbered.requested, fun _ => numbered.running active, nofun,
      numbered.applied, fun _ => numbered.saving active,
      fun _ => numbered.unchanged (.inl rendering), nofun,
      fun decided => decided.elim⟩
  case h_2 deciding =>
    have active : state.phase ≠ .idle := by rw [deciding]; nofun
    split at stepped
    case isTrue =>
      cases stepped
      exact ⟨numbered.requested, fun _ => numbered.running active,
        fun _ => numbered.running active, numbered.applied,
        fun _ => numbered.saving active, nofun, nofun,
        fun decided => decided.elim⟩
    case isFalse enough =>
      cases stepped
      refine ⟨numbered.requested, fun _ => numbered.running active, nofun,
        numbered.applied, fun _ => numbered.saving active, nofun, nofun,
        fun _ ahead => (enough ?_).elim⟩
      -- A number that is ahead is reason enough to fetch.
      have same := numbered.unchanged (.inr deciding)
      simp only [Run.needsUpdate, same, Bool.or_eq_true, decide_eq_true_eq]
      exact .inl (.inl (.inr ahead))
  case h_3 saving =>
    have active : state.phase ≠ .idle := by rw [saving]; nofun
    cases stepped
    exact ⟨numbered.requested, fun _ => numbered.running active, nofun,
      numbered.saving active, fun _ => numbered.saving active, nofun, nofun,
      fun _ => numbered.decided (by rw [ApplyState.Decided, saving]; trivial)⟩
  case h_4 rewriting =>
    have active : state.phase ≠ .idle := by rw [rewriting]; nofun
    cases stepped
    exact ⟨numbered.requested, fun _ => numbered.running active, nofun,
      numbered.applied, fun _ => numbered.saving active, nofun, nofun,
      fun _ => numbered.decided
        (by rw [ApplyState.Decided, rewriting]; trivial)⟩
  case h_5 rerendering =>
    have active : state.phase ≠ .idle := by rw [rerendering]; nofun
    cases stepped
    exact ⟨numbered.requested, fun _ => numbered.running active, nofun,
      numbered.applied, fun _ => numbered.saving active, nofun, nofun,
      fun _ => numbered.decided
        (by rw [ApplyState.Decided, rerendering]; trivial)⟩
  case h_6 starting =>
    have active : state.phase ≠ .idle := by rw [starting]; nofun
    split at stepped
    · cases stepped
    · cases stepped
      exact ⟨numbered.requested, fun _ => numbered.running active, nofun,
        numbered.applied, fun _ => numbered.saving active, nofun, nofun,
        fun _ => numbered.decided
          (by rw [ApplyState.Decided, starting]; trivial)⟩
  case h_7 => cases stepped

theorem command (numbered : Numbered state) {ok running loaded : Bool}
    (stepped : state.command ok running loaded = some after) :
    Numbered after := by
  unfold ApplyState.command at stepped
  split at stepped
  case h_1 stopping =>
    have active : state.phase ≠ .idle := by rw [stopping]; nofun
    cases stepped
    refine ⟨numbered.requested, fun _ => numbered.running active, nofun,
      numbered.applied, fun _ => numbered.saving active, nofun, nofun,
      fun decided => ?_⟩
    have enabled : state.run.settings.enabled = true := decided
    rw [numbered.stopping stopping] at enabled
    cases enabled
  case h_2 starting =>
    have active : state.phase ≠ .idle := by rw [starting]; nofun
    have decided := numbered.decided
      (by rw [ApplyState.Decided, starting]; trivial)
    split at stepped
    case isTrue =>
      split at stepped <;> cases stepped <;>
        exact ⟨numbered.requested, fun _ => numbered.running active, nofun,
          numbered.applied, fun _ => numbered.saving active, nofun, nofun,
          fun _ => decided⟩
    case isFalse => cases stepped
  case h_3 => cases stepped

theorem cut (numbered : Numbered state) (files : RuleFiles) (stale : Bool) :
    Numbered { state with files := files, stale := stale, phase := .idle } :=
  ⟨numbered.requested, fun active => (active rfl).elim, nofun,
    numbered.applied, fun active => (active rfl).elim, nofun, nofun,
    fun decided => decided.elim⟩

theorem next (numbered : Numbered state) {action : ApplyAction}
    (stepped : state.next classes action = some after) : Numbered after := by
  cases action with
  | write settings | bump => cases stepped; exact numbered.setSettings _
  | launch force =>
      simp only [ApplyState.next] at stepped
      split at stepped
      · cases stepped
        exact numbered.launch force
      · cases stepped
  | advance => exact numbered.advance stepped
  | fetch outcome =>
      simp only [ApplyState.next] at stepped
      split at stepped
      case isTrue fetching => cases stepped; exact numbered.fetch fetching _
      case isFalse => cases stepped
  | command ok running loaded => exact numbered.command stepped
  | cut left =>
      simp only [ApplyState.next] at stepped
      split at stepped
      case h_1 | h_2 => cases stepped
      case h_3 | h_4 => cases stepped; exact numbered.cut _ _
  | engineStarts | engineStops =>
      cases stepped
      exact ⟨numbered.requested, numbered.running, numbered.before,
        numbered.applied, numbered.saving, numbered.unchanged,
        numbered.stopping, numbered.decided⟩

end Numbered

/-! ### Files and the engine -/

/-- What the rest of the run will notice. -/
def Detected (classes : CharClasses) (state : ApplyState) : Prop :=
  match state.phase with
  | .saving | .rewriting =>
      readText (state.rewritten classes) ≠ readText state.files
  | .rerendering => state.run.rulesChanged = true
  | .starting =>
      state.run.rulesChanged = true ∨ state.run.configChanged = true
  | _ => False

def ApplyState.Fetched (state : ApplyState) : Prop :=
  state.phase = .saving ∨ state.phase = .rewriting

/-- What holds of the files and the engine in a steady run. -/
structure Kept (classes : CharClasses) (state : ApplyState) : Prop where
  pristine : ∀ given ∈ state.given, state.files.pristine = some given
  rules : ∀ given ∈ state.given,
    (state.Fetched → state.run.touched = false ∨
      state.files.rules = state.given) →
        SignaturesOf classes given state.files.rules
  untouched : state.phase = .rendering ∨ state.phase = .deciding →
    state.run.touched = false
  fresh : state.running = true → state.stale = true → Detected classes state

namespace Kept

variable {classes : CharClasses} {state after : ApplyState}

theorem setSettings (kept : Kept classes state) (settings : IpsSettings) :
    Kept classes (state.setSettings settings) :=
  ⟨kept.pristine, kept.rules, kept.untouched, kept.fresh⟩

/-- Outside the two phases after a fetch the active ruleset is sound. -/
theorem signatures (kept : Kept classes state) (outside : ¬ state.Fetched)
    (given : List Char) (known : given ∈ state.given) :
    SignaturesOf classes given state.files.rules :=
  kept.rules given known fun inside => (outside inside).elim

theorem launch (kept : Kept classes state) (force : Bool)
    (between : state.phase = .idle ∨ state.phase = .ended) :
    Kept classes { state with
      phase := if state.settings.enabled then .rendering else .stopping
      run := .begin force state.settings state.saved } := by
  have outside : ¬ state.Fetched := by
    rintro (here | here) <;> rw [here] at between <;> cases between <;>
      contradiction
  have upToDate : state.running = true → state.stale = true → False := by
    intro runs behind
    have noticed := kept.fresh runs behind
    unfold Detected at noticed
    obtain here | here := between <;> rw [here] at noticed <;> exact noticed
  exact ⟨kept.pristine, fun given known _ =>
    kept.signatures outside given known, fun _ => rfl,
    fun runs behind => (upToDate runs behind).elim⟩

theorem fetch (kept : Kept classes state) (fetching : state.phase = .fetching)
    {outcome : FetchOutcome} (steady : Steady classes state (.fetch outcome)) :
    Kept classes { state.suricataUpdate outcome with phase := .saving } := by
  have outside : ¬ state.Fetched := by
    rintro (here | here) <;> rw [here] at fetching <;> cases fetching
  have fresh : state.running = true →
      (state.stale ||
        outcome.rules.map universalNewlines ≠ readText state.files) = true →
          readText ((state.suricataUpdate outcome).rewritten classes) ≠
            outcome.rules.map universalNewlines := by
    intro runs behind
    rw [Bool.or_eq_true, decide_eq_true_eq] at behind
    obtain already | changed := behind
    · have noticed := kept.fresh runs already
      rw [Detected, fetching] at noticed
      exact noticed.elim
    · exact (steady runs).resolve_left changed
  unfold ApplyState.suricataUpdate at fresh ⊢
  split at fresh
  case isTrue ok =>
    rw [if_pos ok]
    exact ⟨fun given known => known, fun given known _ => .inl known,
      nofun, fresh⟩
  case isFalse failed =>
    rw [if_neg failed]
    refine ⟨kept.pristine, fun given known still => ?_, nofun, fresh⟩
    obtain same | again := still (.inl rfl)
    · simp only [decide_not, Bool.not_eq_false', decide_eq_true_eq] at same
      exact same ▸ kept.signatures outside given known
    · exact .inl (again.trans known)

theorem upToDate (kept : Kept classes state)
    (unnoticed : ¬ Detected classes state) :
    state.running = true → state.stale = true → False :=
  fun runs behind => unnoticed (kept.fresh runs behind)

/-- Rewriting leaves the signatures of the pristine copy. -/
theorem rewritten (kept : Kept classes state) (given : List Char)
    (known : given ∈ state.given) :
    (state.rewritten classes).pristine = some given ∧
      SignaturesOf classes given (state.rewritten classes).rules := by
  have text : state.files.pristineText = given := by
    rw [RuleFiles.pristineText, kept.pristine given known]
    rfl
  unfold ApplyState.rewritten rewriteRules
  refine ⟨congrArg some text, .inr ⟨state.run.settings,
    state.files.priorities classes, ?_⟩⟩
  simp only [RuleFiles.pristineLines, text]

theorem advance (kept : Kept classes state)
    (steady : Steady classes state .advance)
    (stepped : state.advance classes = some after) : Kept classes after := by
  unfold ApplyState.advance at stepped
  split at stepped
  case h_1 rendering =>
    have outside : ¬ state.Fetched := by
      rintro (here | here) <;> rw [here] at rendering <;> cases rendering
    have current := kept.upToDate (by rw [Detected, rendering]; exact id)
    cases stepped
    refine ⟨kept.pristine, fun given known _ =>
      kept.signatures outside given known,
      fun _ => kept.untouched (.inl rendering), fun runs behind => ?_⟩
    have same := steady rendering runs
    simp only [ApplyState.render, same, Bool.or_false] at behind
    exact (current runs behind).elim
  case h_2 deciding =>
    have outside : ¬ state.Fetched := by
      rintro (here | here) <;> rw [here] at deciding <;> cases deciding
    have current := kept.upToDate (by rw [Detected, deciding]; exact id)
    split at stepped <;> cases stepped <;>
      exact ⟨kept.pristine, fun given known _ =>
        kept.signatures outside given known, nofun,
        fun runs behind => (current runs behind).elim⟩
  case h_3 saving =>
    cases stepped
    refine ⟨kept.pristine, fun given known still =>
      kept.rules given known fun _ => still (.inr rfl), nofun,
      fun runs behind => ?_⟩
    have noticed := kept.fresh runs behind
    rw [Detected, saving] at noticed
    exact noticed
  case h_4 rewriting =>
    cases stepped
    refine ⟨fun given known => (kept.rewritten given known).1,
      fun given known _ => (kept.rewritten given known).2, nofun,
      fun runs behind => ?_⟩
    simp only [ApplyState.setFiles, Bool.or_eq_true, decide_eq_true_eq]
      at behind
    simp only [Detected, decide_eq_true_eq]
    obtain already | changed := behind
    · have noticed := kept.fresh runs already
      rw [Detected, rewriting] at noticed
      exact noticed
    · exact changed
  case h_5 rerendering =>
    have outside : ¬ state.Fetched := by
      rintro (here | here) <;> rw [here] at rerendering <;> cases rerendering
    cases stepped
    refine ⟨kept.pristine, fun given known _ =>
      kept.signatures outside given known, nofun, fun runs behind => ?_⟩
    simp only [ApplyState.render, Bool.or_eq_true] at behind
    simp only [Detected]
    obtain already | changed := behind
    · have noticed := kept.fresh runs already
      rw [Detected, rerendering] at noticed
      exact .inl noticed
    · exact .inr changed
  case h_6 starting =>
    have outside : ¬ state.Fetched := by
      rintro (here | here) <;> rw [here] at starting <;> cases starting
    split at stepped
    case isTrue => cases stepped
    case isFalse nothing =>
      cases stepped
      refine ⟨kept.pristine, fun given known _ =>
        kept.signatures outside given known, nofun, fun runs behind => ?_⟩
      have noticed := kept.fresh runs behind
      rw [Detected, starting] at noticed
      refine (nothing ?_).elim
      simp only [ApplyState.mustStart, Bool.or_eq_true]
      obtain changed | changed := noticed
      · exact .inr changed
      · exact .inl (.inl changed)
  case h_7 => cases stepped

theorem command (kept : Kept classes state) {ok running loaded : Bool}
    (steady : Steady classes state (.command ok running loaded))
    (stepped : state.command ok running loaded = some after) :
    Kept classes after := by
  unfold ApplyState.command at stepped
  split at stepped
  case h_1 stopping =>
    have outside : ¬ state.Fetched := by
      rintro (here | here) <;> rw [here] at stopping <;> cases stopping
    have current := kept.upToDate (by rw [Detected, stopping]; exact id)
    cases stepped
    refine ⟨kept.pristine, fun given known _ =>
      kept.signatures outside given known, nofun, fun runs behind => ?_⟩
    simp only [Bool.and_eq_true] at runs
    exact (current runs.1 behind).elim
  case h_2 starting =>
    have outside : ¬ state.Fetched := by
      rintro (here | here) <;> rw [here] at starting <;> cases starting
    split at stepped
    case isTrue =>
      split at stepped
      case isTrue =>
        cases stepped
        exact ⟨kept.pristine, fun given known _ =>
          kept.signatures outside given known, nofun, nofun⟩
      case isFalse failed =>
        cases stepped
        refine ⟨kept.pristine, fun given known _ =>
          kept.signatures outside given known, nofun, fun runs behind => ?_⟩
        simp only [Bool.and_eq_true, Bool.not_eq_true'] at behind
        obtain caughtUp | current :=
          steady starting (Bool.eq_false_iff.mpr failed) runs
        · rw [caughtUp] at behind
          exact absurd behind.2 nofun
        · rw [current] at behind
          exact absurd behind.1 nofun
    case isFalse => cases stepped
  case h_3 => cases stepped

theorem cut (kept : Kept classes state) {left : RuleFiles}
    (steady : Steady classes state (.cut left))
    (stepped : state.next classes (.cut left) = some after) :
    Kept classes after := by
  obtain ⟨current, whole⟩ := steady
  simp only [ApplyState.next] at stepped
  split at stepped
  case h_1 | h_2 => cases stepped
  case h_3 fetching =>
    rw [fetching] at whole
    obtain ⟨pristine, rules⟩ := whole
    have outside : ¬ state.Fetched := by
      rintro (here | here) <;> rw [here] at fetching <;> cases fetching
    cases stepped
    refine ⟨fun given known => pristine.trans (kept.pristine given known),
      fun given known _ => ?_, nofun, fun runs behind => ?_⟩
    · exact rules ▸ kept.signatures outside given known
    · simp only [ApplyState.setFiles, readText, rules, current runs] at behind
      simp at behind
  case h_4 =>
    cases stepped
    refine ⟨kept.pristine, fun given known _ =>
      kept.rules given known fun inside => ?_, nofun, fun runs behind => ?_⟩
    · obtain here | here := inside <;> rw [here] at whole <;> exact whole
    · rw [current runs] at behind
      cases behind

theorem next (kept : Kept classes state) {action : ApplyAction}
    (steady : Steady classes state action)
    (stepped : state.next classes action = some after) :
    Kept classes after := by
  cases action with
  | write settings | bump => cases stepped; exact kept.setSettings _
  | launch force =>
      simp only [ApplyState.next] at stepped
      split at stepped
      case isTrue between =>
        cases stepped
        exact kept.launch force (by simpa using between)
      case isFalse => cases stepped
  | advance => exact kept.advance steady stepped
  | fetch outcome =>
      simp only [ApplyState.next] at stepped
      split at stepped
      case isTrue fetching => cases stepped; exact kept.fetch fetching steady
      case isFalse => cases stepped
  | command ok running loaded => exact kept.command steady stepped
  | cut left => exact kept.cut steady stepped
  | engineStarts =>
      cases stepped
      exact ⟨kept.pristine, kept.rules, kept.untouched, nofun⟩
  | engineStops =>
      cases stepped
      exact ⟨kept.pristine, kept.rules, kept.untouched, nofun⟩

end Kept

/-! ### Every run -/

theorem numbered_of_reachable {classes : CharClasses} {state : ApplyState}
    (reached : (helperRuns classes).Reachable state) : Numbered state :=
  reached.invariant
    (fun state start => by
      obtain ⟨idle, saved, _, requested, honoured, _⟩ := start
      refine ⟨by simp [requested], fun active => (active idle).elim, ?_, ?_,
        fun active => (active idle).elim, ?_, ?_, fun decided => ?_⟩
      · simp [idle]
      · exact .inl (by rw [saved])
      · simp [idle]
      · simp [idle]
      · rw [ApplyState.Decided, idle] at decided
        exact decided.elim)
    (fun _ _ _ numbered _ stepped => numbered.next stepped)

theorem kept_of_steady {classes : CharClasses} {state : ApplyState}
    (reached : (helperRuns classes).ReachableUnder (Steady classes) state) :
    Kept classes state :=
  reached.invariant
    (fun state start => by
      obtain ⟨idle, _, current, _, _, given⟩ := start
      exact ⟨by simp [given], by simp [given], by simp [idle],
        by simp [current]⟩)
    (fun _ _ _ kept steady stepped => kept.next steady stepped)

/-- In steady runs update requests are honoured. -/
theorem honoured_of_steady {classes : CharClasses} {state : ApplyState}
    (reached : (helperRuns classes).ReachableUnder (Steady classes) state) :
    UpdatesHonoured classes state := by
  have numbered := numbered_of_reachable (reached.mono fun _ _ _ => trivial)
  have kept := kept_of_steady reached
  refine ⟨numbered.applied, numbered.decided, kept.pristine,
    fun given known saving rewriting => ?_, fun ended _ runs => ?_⟩
  · exact kept.signatures
      (fun inside => inside.elim saving rewriting) given known
  · refine Bool.eq_false_iff.mpr fun behind => ?_
    have noticed := kept.fresh runs behind
    rw [Detected, ended] at noticed
    exact noticed

/-! ## A change of the scan mode -/

instance (classes : CharClasses) (state : ApplyState) (action : ApplyAction) :
    Decidable (Steady classes state action) := by
  unfold Steady
  split
  case h_4 left =>
    have : Decidable (match state.phase with
        | .fetching => left.pristine = state.files.pristine ∧
            left.rules = state.files.rules
        | .saving | .rewriting =>
            state.run.touched = false ∨ state.files.rules = state.given
        | _ => True) := by
      split <;> infer_instance
    infer_instance
  all_goals infer_instance

def scanningSettings : IpsSettings := { IpsSettings.default with enabled := true }

def freshBox : ApplyState where
  settings := scanningSettings
  saved := ⟨0, none⟩
  files := ⟨none, none, none, none⟩
  rendered := ⟨none, false⟩
  running := false
  stale := false
  phase := .idle
  run := .begin false scanningSettings ⟨0, none⟩
  requested := [0]
  honoured := []
  given := none

theorem initial_freshBox : (helperRuns asciiClasses).Initial freshBox :=
  ⟨rfl, rfl, rfl, rfl, rfl, rfl⟩

def fetchedRules : Option (List Char) :=
  some (sampleSignature ++ "\n").toList

/-- The first run fetches signatures and starts the engine. -/
def firstRun : List ApplyAction :=
  [.launch false, .advance, .advance, .fetch ⟨true, "", fetchedRules, none⟩,
    .advance, .advance, .advance, .command true true true]

/-- An update is requested, and its fetch fails halfway. -/
def failedUpdate : List ApplyAction :=
  [.bump, .launch false, .advance, .advance,
    .fetch ⟨false, "exit 1", some "alert".toList, none⟩,
    .advance, .advance, .advance, .command true true true]

def updatedBox : Option ApplyState :=
  (helperRuns asciiClasses).run freshBox (firstRun ++ failedUpdate)

theorem updatedBox_taken : updatedBox.isSome = true := by
  decide +kernel

theorem updatedBox_honoured :
    UpdatesHonoured asciiClasses (updatedBox.get updatedBox_taken) :=
  honoured_of_steady <|
    .run (.initial initial_freshBox) _ (by decide +kernel)
      (Option.some_get _).symm

/-- The first rendering writes the new mode, the second finds no change. -/
def fastBox : Option ApplyState :=
  (helperRuns asciiClasses).run freshBox (firstRun ++
    [.write { scanningSettings with scanMode := .fast }, .launch false,
      .advance, .advance, .advance, .advance, .advance])

theorem fastBox_taken : fastBox.isSome = true := by
  decide +kernel

theorem new_mode_not_loaded :
    ∃ state, (helperRuns asciiClasses).Reachable state ∧
      ¬ UpdatesHonoured asciiClasses state := by
  refine ⟨fastBox.get fastBox_taken, ?_, fun honoured => ?_⟩
  · exact reachable_of_run initial_freshBox _ (Option.some_get _).symm
  · have loaded := honoured.loaded
    revert loaded
    decide +kernel

end QuartzFire.Ips
