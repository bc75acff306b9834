import QuartzFire.Guard.CommitConfirm

/-!
# How pending changes are resolved

The confirm, the revert and the expiry timer race for the pending slot.  Each
takes the change out under the lock and only if it carries that change's id,
so a change is resolved once whatever the order.  A change may still become
pending while a revert is loading: `is_pending` was asked long before.
-/

namespace QuartzFire.Guard

variable {Config : Type}

/-- `LastOutcome::outcome` -/
inductive Outcome where
  | confirmed
  | reverted
  | revertFailed
  deriving DecidableEq, Repr

/-- A change taken out of the slot, and the id whoever took it carried. -/
structure Taking where
  change : RequestId
  carried : RequestId
  deriving DecidableEq, Repr

/-- A change put into the slot, and whether a revert was loading then. -/
structure Arming where
  change : RequestId
  revertLoading : Bool
  deriving DecidableEq, Repr

/-- The guard and what has become of its changes so far, newest first. -/
structure History (Config : Type) where
  state : State Config
  outcomes : List (RequestId × Outcome)
  takings : List Taking
  armings : List Arming

/-- `revert_pending` has its load in flight. -/
def Thread.isLoading : Thread Config → Bool
  | .loadingSnapshot _ => true
  | _ => false

/-- `revert_pending` is between its load and its record. -/
def Thread.reverts : Thread Config → Bool
  | .loadingSnapshot _ | .recording _ => true
  | _ => false

/-- How the change a step resolves has ended. -/
def outcomesOf (before after : State Config) (ok : Bool) :
    Thread Config → List (RequestId × Outcome)
  | .confirming _ =>
      if after.pending = before.pending then []
      else before.pending.toList.map fun change => (change, .confirmed)
  | .loadingSnapshot id =>
      [(id, if ok && before.snapshot.isSome then .reverted else .revertFailed)]
  | _ => []

def takingsOf (before after : State Config) : Thread Config → List Taking
  | .confirming id | .reverting id | .expiring id =>
      if after.pending = before.pending then []
      else before.pending.toList.map fun change => ⟨change, id⟩
  | _ => []

def armingsOf (before after : State Config) : Thread Config → List Arming
  | .guarded (.arming _) =>
      after.pending.toList.map fun change =>
        ⟨change, before.threads.any Thread.isLoading⟩
  | _ => []

namespace History

/-- The history once a thread has stepped. -/
def record (history : History Config) (after : State Config) (ok : Bool)
    (thread : Thread Config) : History Config :=
  { state := after
    outcomes := outcomesOf history.state after ok thread ++ history.outcomes
    takings := takingsOf history.state after thread ++ history.takings
    armings := armingsOf history.state after thread ++ history.armings }

def next (history : History Config) : Action Config → Option (History Config)
  | .arrive thread =>
      (Guard.next history.state (.arrive thread)).map fun after =>
        { history with state := after }
  | .advance index ok =>
      (history.state.threads[index]?).bind fun thread =>
        (threadStep history.state index ok thread).map fun after =>
          history.record after ok thread

def start (state : State Config) : History Config := ⟨state, [], [], []⟩

/-- The changes resolved so far. -/
def resolved (history : History Config) : List RequestId :=
  history.outcomes.map Prod.fst

end History

/-- The guard with its history. -/
def historied (Config : Type) :
    TransitionSystem (History Config) (Action Config) where
  Initial history := ∃ state, Starts state ∧ history = .start state
  next := History.next

/-- A change has one outcome at most, no load is under way for a change that
has one, nobody took a change whose id it did not carry, and no change became
pending while a revert was loading. -/
structure ResolvedOnce (history : History Config) : Prop where
  one_outcome : history.resolved.Nodup
  load_unresolved : ∀ id, .loadingSnapshot id ∈ history.state.threads →
    id ∉ history.resolved
  own_change : ∀ taking ∈ history.takings, taking.change = taking.carried
  arms_apart : ∀ arming ∈ history.armings, arming.revertLoading = false

/-- A request that reaches `begin_pending` was told that no revert was running,
and none is. -/
def NoRevertSince (history : History Config) : Action Config → Prop
  | .arrive _ => True
  | .advance index _ =>
      match history.state.threads[index]? with
      | some (.guarded (.arming _)) => history.state.reverting = false
      | _ => True

/-! ## What a step does to the slot -/

theorem not_isLoading {thread : Thread Config}
    (idle : thread.reverts = false) : thread.isLoading = false := by
  cases thread <;> first | rfl | cases idle

/-- A guarded request moves on, or gives up; only `begin_pending` touches the
slot, and no step of it starts or ends a revert. -/
theorem guardedStep_apart (state : State Config) (id : RequestId) (ok : Bool)
    {progress : Progress Config}
    (notArming : ∀ payload, progress ≠ .arming payload) :
    ∃ new : Thread Config,
      (guardedStep state id ok progress).threads = state.threads.set id new ∧
      new.reverts = false ∧
      (guardedStep state id ok progress).pending = state.pending ∧
      (guardedStep state id ok progress).reverting = state.reverting := by
  cases progress with
  | fetching revision =>
      simp only [guardedStep]
      split <;> exact ⟨_, rfl, rfl, rfl, rfl⟩
  | checking prepare =>
      simp only [guardedStep]
      split <;> exact ⟨_, rfl, rfl, rfl, rfl⟩
  | preparing prepare =>
      simp only [guardedStep]
      split <;> exact ⟨_, rfl, rfl, rfl, rfl⟩
  | clearing payload => exact ⟨_, rfl, rfl, rfl, rfl⟩
  | snapshotting payload =>
      simp only [guardedStep]
      split <;> exact ⟨_, rfl, rfl, rfl, rfl⟩
  | staging payload =>
      simp only [guardedStep]
      split <;> exact ⟨_, rfl, rfl, rfl, rfl⟩
  | committing payload =>
      cases payload with
      | configure edit =>
          simp only [guardedStep]
          split <;> exact ⟨_, rfl, rfl, rfl, rfl⟩
      | load text =>
          simp only [guardedStep]
          split <;> exact ⟨_, rfl, rfl, rfl, rfl⟩
  | arming payload => exact absurd rfl (notArming payload)

/-! ## Every run -/

/-- The thread at an index has the load for a change in flight. -/
def State.Loads (state : State Config) (index : Nat) (id : RequestId) : Prop :=
  state.threads[index]? = some (.loadingSnapshot id)

def State.Ended (state : State Config) (index : Nat) : Prop :=
  state.threads[index]? = some .finished

/-- The changes that are resolved, in the slot or being reverted are different
ones, and the requests that made them have ended. -/
structure Settled (history : History Config) : Prop where
  ended : ∀ id ∈ history.resolved, history.state.Ended id
  slot : ∀ id ∈ history.state.pending,
    history.state.Ended id ∧ id ∉ history.resolved ∧
      ∀ index, ¬ history.state.Loads index id
  loads : ∀ index id, history.state.Loads index id →
    history.state.Ended id ∧ id ∉ history.resolved
  loads_once : ∀ index other id, history.state.Loads index id →
    history.state.Loads other id → index = other
  one_outcome : history.resolved.Nodup
  own_change : ∀ taking ∈ history.takings, taking.change = taking.carried

namespace Settled

variable {history after : History Config} {index : Nat}
  {old new : Thread Config}

theorem start {state : State Config} (starts : Starts state) :
    Settled (History.start state) where
  ended := by simp [History.start, History.resolved]
  slot := by simp [History.start, starts.pending]
  loads := by simp [History.start, State.Loads, starts.threads]
  loads_once := by simp [History.start, State.Loads, starts.threads]
  one_outcome := by simp [History.start, History.resolved]
  own_change := by simp [History.start]

/-- What has ended stays as it is when another thread steps. -/
theorem ended_set {before after : State Config} {id : Nat}
    (present : before.threads[index]? = some old) (running : old ≠ .finished)
    (threads : after.threads = before.threads.set index new)
    (ended : before.Ended id) : after.Ended id := by
  rw [State.Ended, threads, getElem?_set_of_present present, if_neg]
  · exact ended
  · rintro rfl
    exact running (Option.some.inj (present.symm.trans ended))

/-- The loads of the other threads go on. -/
theorem loads_set {before after : State Config} {other id : Nat}
    (present : before.threads[index]? = some old)
    (threads : after.threads = before.threads.set index new)
    (loading : after.Loads other id) :
    other ≠ index ∧ before.Loads other id ∨
      other = index ∧ new = .loadingSnapshot id := by
  rw [State.Loads, threads, getElem?_set_of_present present] at loading
  split at loading
  · rename_i same
    exact .inr ⟨same, Option.some.inj loading⟩
  · rename_i different
    exact .inl ⟨different, loading⟩

/-- A step inside one thread that leaves the slot alone. -/
theorem put (settled : Settled history)
    (present : history.state.threads[index]? = some old)
    (running : old ≠ .finished)
    (threads : after.state.threads = history.state.threads.set index new)
    (idle : new.isLoading = false)
    (pending : after.state.pending = history.state.pending)
    (outcomes : after.outcomes = history.outcomes)
    (takings : after.takings = history.takings) : Settled after := by
  have ended : ∀ id, history.state.Ended id → after.state.Ended id :=
    fun id => ended_set present running threads
  have loads : ∀ other id, after.state.Loads other id →
      history.state.Loads other id := by
    intro other id loading
    rcases loads_set present threads loading with ⟨_, before⟩ | ⟨_, loader⟩
    · exact before
    · rw [loader] at idle
      cases idle
  have resolved : after.resolved = history.resolved := by
    rw [History.resolved, outcomes, History.resolved]
  exact
    { ended := fun id member =>
        ended id (settled.ended id (resolved ▸ member))
      slot := fun id member => by
        obtain ⟨past, unresolved, unloaded⟩ :=
          settled.slot id (pending ▸ member)
        exact ⟨ended id past, resolved ▸ unresolved,
          fun other loading => unloaded other (loads other id loading)⟩
      loads := fun other id loading => by
        obtain ⟨past, unresolved⟩ :=
          settled.loads other id (loads other id loading)
        exact ⟨ended id past, resolved ▸ unresolved⟩
      loads_once := fun first second id one two =>
        settled.loads_once first second id (loads first id one)
          (loads second id two)
      one_outcome := resolved ▸ settled.one_outcome
      own_change := takings ▸ settled.own_change }

/-- A new request waits at its first step. -/
theorem arrive (settled : Settled history) {thread : Thread Config}
    (arrives : thread.arrives = true) :
    Settled { history with
      state := { history.state with
        threads := history.state.threads ++ [thread] } } := by
  have kept : ∀ (index : Nat) (found : Thread Config),
      history.state.threads[index]? = some found →
      (history.state.threads ++ [thread])[index]? = some found := by
    intro index found present
    rw [List.getElem?_append_left (List.getElem?_eq_some_iff.mp present).1]
    exact present
  have old : ∀ (index : Nat) (id : RequestId),
      (history.state.threads ++ [thread])[index]? =
        some (.loadingSnapshot id) →
      history.state.threads[index]? = some (.loadingSnapshot id) := by
    intro index id present
    rw [List.getElem?_append] at present
    split at present
    · exact present
    · have same := List.mem_singleton.mp (List.mem_of_getElem? present)
      rw [← same] at arrives
      cases arrives
  exact
    { ended := fun id member => kept id _ (settled.ended id member)
      slot := fun id member => by
        obtain ⟨past, unresolved, unloaded⟩ := settled.slot id member
        exact ⟨kept id _ past, unresolved,
          fun index loading => unloaded index (old index id loading)⟩
      loads := fun index id loading => by
        obtain ⟨past, unresolved⟩ := settled.loads index id (old index id loading)
        exact ⟨kept id _ past, unresolved⟩
      loads_once := fun first second id one two =>
        settled.loads_once first second id (old first id one)
          (old second id two)
      one_outcome := settled.one_outcome
      own_change := settled.own_change }

/-- `confirm` takes its change out of the slot, and that is its outcome. -/
theorem confirm (settled : Settled history) {id : RequestId}
    (present : history.state.threads[index]? = some (.confirming id))
    (pending : history.state.pending = some id)
    (threads : after.state.threads =
      history.state.threads.set index (.savingBoot id))
    (taken : after.state.pending = none)
    (outcomes : after.outcomes = (id, .confirmed) :: history.outcomes)
    (takings : after.takings = ⟨id, id⟩ :: history.takings) :
    Settled after := by
  obtain ⟨past, unresolved, unloaded⟩ := settled.slot id pending
  have ended : ∀ other, history.state.Ended other → after.state.Ended other :=
    fun other => ended_set present (by simp) threads
  have loads : ∀ other change, after.state.Loads other change →
      history.state.Loads other change := by
    intro other change loading
    rcases loads_set present threads loading with ⟨_, before⟩ | ⟨_, loader⟩
    · exact before
    · cases loader
  have resolved : after.resolved = id :: history.resolved := by
    rw [History.resolved, outcomes]
    rfl
  exact
    { ended := by
        intro change member
        rw [resolved] at member
        rcases List.mem_cons.mp member with rfl | earlier
        · exact ended change past
        · exact ended change (settled.ended change earlier)
      slot := by simp [taken]
      loads := by
        intro other change loading
        have before := loads other change loading
        obtain ⟨itsOver, itsUnresolved⟩ := settled.loads other change before
        refine ⟨ended change itsOver, ?_⟩
        rw [resolved, List.mem_cons, not_or]
        exact ⟨fun same => unloaded other (same ▸ before), itsUnresolved⟩
      loads_once := fun first second change one two =>
        settled.loads_once first second change (loads first change one)
          (loads second change two)
      one_outcome := by
        rw [resolved]
        exact List.nodup_cons.mpr ⟨unresolved, settled.one_outcome⟩
      own_change := by
        rw [takings]
        simpa using settled.own_change }

/-- `expire` and `revert` take their change out of the slot to load its
snapshot. -/
theorem detach (settled : Settled history) {id : RequestId}
    (present : history.state.threads[index]? = some old)
    (running : old ≠ .finished)
    (pending : history.state.pending = some id)
    (threads : after.state.threads =
      history.state.threads.set index (.loadingSnapshot id))
    (taken : after.state.pending = none)
    (outcomes : after.outcomes = history.outcomes)
    (takings : after.takings = ⟨id, id⟩ :: history.takings) :
    Settled after := by
  obtain ⟨past, unresolved, unloaded⟩ := settled.slot id pending
  have ended : ∀ other, history.state.Ended other → after.state.Ended other :=
    fun other => ended_set present running threads
  have loads : ∀ other change, after.state.Loads other change →
      history.state.Loads other change ∨ other = index ∧ change = id := by
    intro other change loading
    rcases loads_set present threads loading with ⟨_, before⟩ | ⟨same, loader⟩
    · exact .inl before
    · cases loader
      exact .inr ⟨same, rfl⟩
  have resolved : after.resolved = history.resolved := by
    rw [History.resolved, outcomes, History.resolved]
  exact
    { ended := fun change member =>
        ended change (settled.ended change (resolved ▸ member))
      slot := by simp [taken]
      loads := by
        intro other change loading
        rw [resolved]
        rcases loads other change loading with before | ⟨_, rfl⟩
        · obtain ⟨itsOver, itsUnresolved⟩ := settled.loads other change before
          exact ⟨ended change itsOver, itsUnresolved⟩
        · exact ⟨ended change past, unresolved⟩
      loads_once := by
        intro first second change one two
        rcases loads first change one with one | ⟨atFirst, same⟩ <;>
          rcases loads second change two with two | ⟨atSecond, same'⟩
        · exact settled.loads_once first second change one two
        · exact absurd (same' ▸ one) (unloaded first)
        · exact absurd (same ▸ two) (unloaded second)
        · exact atFirst.trans atSecond.symm
      one_outcome := resolved ▸ settled.one_outcome
      own_change := by
        rw [takings]
        simpa using settled.own_change }

/-- The load ends, well or not: that is the outcome of its change. -/
theorem load (settled : Settled history) {id : RequestId} {loaded : Bool}
    {outcome : Outcome}
    (present : history.state.threads[index]? = some (.loadingSnapshot id))
    (threads : after.state.threads =
      history.state.threads.set index (.recording loaded))
    (pending : after.state.pending = history.state.pending)
    (outcomes : after.outcomes = (id, outcome) :: history.outcomes)
    (takings : after.takings = history.takings) : Settled after := by
  obtain ⟨past, unresolved⟩ := settled.loads index id present
  have ended : ∀ other, history.state.Ended other → after.state.Ended other :=
    fun other => ended_set present (by simp) threads
  have loads : ∀ other change, after.state.Loads other change →
      other ≠ index ∧ history.state.Loads other change := by
    intro other change loading
    rcases loads_set present threads loading with before | ⟨_, loader⟩
    · exact before
    · cases loader
  have resolved : after.resolved = id :: history.resolved := by
    rw [History.resolved, outcomes]
    rfl
  exact
    { ended := by
        intro change member
        rw [resolved] at member
        rcases List.mem_cons.mp member with rfl | earlier
        · exact ended change past
        · exact ended change (settled.ended change earlier)
      slot := by
        intro change member
        obtain ⟨itsOver, itsUnresolved, unloaded⟩ :=
          settled.slot change (pending ▸ member)
        refine ⟨ended change itsOver, ?_,
          fun other loading => unloaded other (loads other change loading).2⟩
        rw [resolved, List.mem_cons, not_or]
        exact ⟨fun same => unloaded index (same ▸ present), itsUnresolved⟩
      loads := by
        intro other change loading
        obtain ⟨elsewhere, before⟩ := loads other change loading
        obtain ⟨itsOver, itsUnresolved⟩ := settled.loads other change before
        refine ⟨ended change itsOver, ?_⟩
        rw [resolved, List.mem_cons, not_or]
        refine ⟨fun same => elsewhere ?_, itsUnresolved⟩
        exact settled.loads_once other index id (same ▸ before) present
      loads_once := fun first second change one two =>
        settled.loads_once first second change (loads first change one).2
          (loads second change two).2
      one_outcome := by
        rw [resolved]
        exact List.nodup_cons.mpr ⟨unresolved, settled.one_outcome⟩
      own_change := takings ▸ settled.own_change }

/-- `begin_pending` puts a change into the slot that was never there before:
its own request is still under way. -/
theorem arm (settled : Settled history) {payload : Payload Config}
    (present : history.state.threads[index]? =
      some (.guarded (.arming payload)))
    (threads : after.state.threads =
      history.state.threads.set index .finished ++ [.expiring index])
    (pending : after.state.pending = some index)
    (outcomes : after.outcomes = history.outcomes)
    (takings : after.takings = history.takings) : Settled after := by
  have bound : index < history.state.threads.length :=
    (List.getElem?_eq_some_iff.mp present).1
  have unended : ¬ history.state.Ended index := by
    rw [State.Ended, present]
    simp
  have entries : ∀ (other : Nat) (thread : Thread Config),
      after.state.threads[other]? = some thread →
      other = index ∧ thread = .finished ∨
        other ≠ index ∧ history.state.threads[other]? = some thread ∨
        thread = .expiring index := by
    intro other thread found
    rw [threads, List.getElem?_append] at found
    split at found
    · rw [getElem?_set_of_present present] at found
      split at found
      · rename_i same
        exact .inl ⟨same, (Option.some.inj found).symm⟩
      · rename_i different
        exact .inr (.inl ⟨different, found⟩)
    · have expiring := List.mem_singleton.mp (List.mem_of_getElem? found)
      exact .inr (.inr expiring)
  have atIndex : after.state.Ended index := by
    rw [State.Ended, threads, List.getElem?_append_left (by simpa using bound),
      getElem?_set_of_present present, if_pos rfl]
  have ended : ∀ other, history.state.Ended other → after.state.Ended other := by
    intro other past
    have different : other ≠ index := fun same => unended (same ▸ past)
    have within := (List.getElem?_eq_some_iff.mp past).1
    rw [State.Ended, threads, List.getElem?_append_left (by simpa using within),
      getElem?_set_of_present present, if_neg different]
    exact past
  have loads : ∀ other change, after.state.Loads other change →
      history.state.Loads other change := by
    intro other change loading
    rcases entries other _ loading with ⟨_, loader⟩ | ⟨_, before⟩ | loader
    · cases loader
    · exact before
    · cases loader
  have resolved : after.resolved = history.resolved := by
    rw [History.resolved, outcomes, History.resolved]
  exact
    { ended := fun change member =>
        ended change (settled.ended change (resolved ▸ member))
      slot := by
        intro change member
        rw [pending, Option.mem_some_iff] at member
        subst member
        refine ⟨atIndex, ?_, ?_⟩
        · rw [resolved]
          exact fun member => unended (settled.ended _ member)
        · intro other loading
          exact unended (settled.loads other _ (loads other _ loading)).1
      loads := fun other change loading => by
        obtain ⟨past, unresolved⟩ :=
          settled.loads other change (loads other change loading)
        exact ⟨ended change past, resolved ▸ unresolved⟩
      loads_once := fun first second change one two =>
        settled.loads_once first second change (loads first change one)
          (loads second change two)
      one_outcome := resolved ▸ settled.one_outcome
      own_change := takings ▸ settled.own_change }

/-- The two ways a change is taken out to be reverted are one step. -/
theorem detachStep (settled : Settled history) {id : RequestId}
    (present : history.state.threads[index]? = some old)
    (running : old ≠ .finished)
    (state : after.state = Guard.detachStep history.state index id)
    (outcomes : after.outcomes = history.outcomes)
    (takings : after.takings =
      (if after.state.pending = history.state.pending then []
        else history.state.pending.toList.map fun change => ⟨change, id⟩) ++
        history.takings) : Settled after := by
  by_cases pending : history.state.pending = some id
  · rw [Guard.detachStep, if_pos pending] at state
    refine settled.detach present running pending (by rw [state]; rfl)
      (by rw [state]; rfl) outcomes ?_
    rw [takings, state, pending]
    rfl
  · rw [Guard.detachStep, if_neg pending] at state
    refine settled.put present running (by rw [state]; rfl) rfl
      (by rw [state]; rfl) outcomes ?_
    simp [takings, state, State.put]

theorem step (settled : Settled history) {action : Action Config}
    (stepped : history.next action = some after) : Settled after := by
  cases action with
  | arrive thread =>
      obtain ⟨state, arrived, rfl⟩ := Option.map_eq_some_iff.mp stepped
      simp only [Guard.next] at arrived
      split at arrived <;> cases arrived
      rename_i arrives
      exact settled.arrive arrives
  | advance index ok =>
      obtain ⟨thread, present, stepped⟩ := Option.bind_eq_some_iff.mp stepped
      obtain ⟨state, moved, rfl⟩ := Option.map_eq_some_iff.mp stepped
      cases thread with
      | guarded progress =>
          cases moved
          by_cases arming : ∃ payload, progress = .arming payload
          · obtain ⟨payload, rfl⟩ := arming
            exact settled.arm present rfl rfl rfl rfl
          · obtain ⟨new, threads, idle, pending, _⟩ :=
              guardedStep_apart history.state index ok fun payload same =>
                arming ⟨payload, same⟩
            exact settled.put present (by simp) threads (not_isLoading idle)
              pending rfl rfl
      | confirming id =>
          simp only [threadStep] at moved
          by_cases pending : history.state.pending = some id
          · rw [if_pos pending] at moved
            cases moved
            refine settled.confirm present pending rfl rfl ?_ ?_
            · simp [History.record, outcomesOf, State.put, pending]
            · simp [History.record, takingsOf, State.put, pending]
          · rw [if_neg pending] at moved
            cases moved
            refine settled.put present (by simp) rfl rfl rfl ?_ ?_
            · simp [History.record, outcomesOf, State.put]
            · simp [History.record, takingsOf, State.put]
      | savingBoot id =>
          simp only [threadStep] at moved
          split at moved <;> cases moved <;>
            exact settled.put present (by simp) rfl rfl rfl rfl rfl
      | reverting id =>
          cases moved
          exact settled.detachStep present (by simp) rfl rfl rfl
      | expiring id =>
          cases moved
          exact settled.detachStep present (by simp) rfl rfl rfl
      | loadingSnapshot id =>
          simp only [threadStep] at moved
          split at moved <;> cases moved <;>
            exact settled.load present rfl rfl rfl rfl
      | recording loaded =>
          cases moved
          exact settled.put present (by simp) rfl rfl rfl rfl rfl
      | proxyChecking =>
          simp only [threadStep] at moved
          split at moved <;> cases moved <;>
            exact settled.put present (by simp) rfl rfl rfl rfl rfl
      | proxyForwarding =>
          simp only [threadStep] at moved
          split at moved <;> cases moved <;>
            exact settled.put present (by simp) rfl rfl rfl rfl rfl
      | finished => cases moved

/-- Whatever the order of requests and timers. -/
theorem of_reachable {history : History Config}
    {admitted : History Config → Action Config → Prop}
    (reached : (historied Config).ReachableUnder admitted history) :
    Settled history := by
  refine reached.invariant ?_ fun _ _ _ settled _ stepped =>
    settled.step stepped
  rintro _ ⟨state, starts, rfl⟩
  exact .start starts

end Settled

/-! ## Runs where no revert is under way at `begin_pending` -/

/-- One revert at a time, with the slot empty and the flag set. -/
structure OneRevert (history : History Config) : Prop where
  flagged : ∀ (index : Nat) (thread : Thread Config),
    history.state.threads[index]? = some thread → thread.reverts = true →
      history.state.reverting = true
  alone : ∀ (first second : Nat) (one two : Thread Config),
    history.state.threads[first]? = some one → one.reverts = true →
    history.state.threads[second]? = some two → two.reverts = true →
      first = second
  empty : history.state.reverting = true → history.state.pending = none
  arms_apart : ∀ arming ∈ history.armings, arming.revertLoading = false

namespace OneRevert

variable {history after : History Config} {index : Nat}
  {old new : Thread Config}

theorem start {state : State Config} (starts : Starts state) :
    OneRevert (History.start state) where
  flagged := by simp [History.start, starts.threads]
  alone := by simp [History.start, starts.threads]
  empty := by simp [History.start, starts.reverting]
  arms_apart := by simp [History.start]

theorem idle_of_put {state : State Config}
    (present : state.threads[index]? = some old) {other : Nat}
    {thread : Thread Config} (idle : new.reverts = false)
    (found : (state.threads.set index new)[other]? = some thread)
    (reverts : thread.reverts = true) :
    state.threads[other]? = some thread ∧ other ≠ index := by
  rw [getElem?_set_of_present present] at found
  split at found
  · cases found
    rw [idle] at reverts
    cases reverts
  · rename_i different
    exact ⟨found, different⟩

/-- A step that takes no part in a revert. -/
theorem put (one : OneRevert history)
    (present : history.state.threads[index]? = some old)
    (threads : after.state.threads = history.state.threads.set index new)
    (idle : new.reverts = false)
    (reverting : after.state.reverting = history.state.reverting)
    (pending : history.state.pending = none → after.state.pending = none)
    (armings : after.armings = history.armings) : OneRevert after where
  flagged := by
    intro other thread found reverts
    rw [threads] at found
    rw [reverting]
    exact one.flagged other thread
      (idle_of_put present idle found reverts).1 reverts
  alone := by
    intro first second left right foundLeft reverts foundRight reverts'
    rw [threads] at foundLeft foundRight
    exact one.alone first second left right
      (idle_of_put present idle foundLeft reverts).1 reverts
      (idle_of_put present idle foundRight reverts').1 reverts'
  empty := fun flag => pending (one.empty (reverting ▸ flag))
  arms_apart := armings ▸ one.arms_apart

theorem arrive (one : OneRevert history) {thread : Thread Config}
    (arrives : thread.arrives = true) :
    OneRevert { history with
      state := { history.state with
        threads := history.state.threads ++ [thread] } } := by
  have old : ∀ (index : Nat) (found : Thread Config),
      (history.state.threads ++ [thread])[index]? = some found →
      found.reverts = true → history.state.threads[index]? = some found := by
    intro index found present reverts
    rw [List.getElem?_append] at present
    split at present
    · exact present
    · have same := List.mem_singleton.mp (List.mem_of_getElem? present)
      rw [← same] at arrives
      cases found <;> simp [Thread.reverts, Thread.arrives] at reverts arrives
  exact
    { flagged := fun index found present reverts =>
        one.flagged index found (old index found present reverts) reverts
      alone := fun first second left right foundLeft reverts foundRight
          reverts' =>
        one.alone first second left right (old first left foundLeft reverts)
          reverts (old second right foundRight reverts') reverts'
      empty := one.empty
      arms_apart := one.arms_apart }

/-- A revert starts: nobody else is in one, as the slot was taken. -/
theorem detach (one : OneRevert history) {id : RequestId}
    (present : history.state.threads[index]? = some old)
    (pending : history.state.pending = some id)
    (threads : after.state.threads =
      history.state.threads.set index (.loadingSnapshot id))
    (reverting : after.state.reverting = true)
    (taken : after.state.pending = none)
    (armings : after.armings = history.armings) : OneRevert after := by
  have none_before : ∀ (other : Nat) (thread : Thread Config),
      history.state.threads[other]? = some thread →
      thread.reverts = false := by
    intro other thread found
    by_contra reverts
    have flag := one.flagged other thread found (by simpa using reverts)
    rw [one.empty flag] at pending
    cases pending
  have only : ∀ (other : Nat) (thread : Thread Config),
      after.state.threads[other]? = some thread → thread.reverts = true →
      other = index := by
    intro other thread found reverts
    rw [threads, getElem?_set_of_present present] at found
    split at found
    · assumption
    · rw [none_before other thread found] at reverts
      cases reverts
  exact
    { flagged := fun _ _ _ _ => reverting
      alone := fun first second left right foundLeft reverts foundRight
          reverts' =>
        (only first left foundLeft reverts).trans
          (only second right foundRight reverts').symm
      empty := fun _ => taken
      arms_apart := armings ▸ one.arms_apart }

/-- The load ends, and its outcome is still to be recorded. -/
theorem load (one : OneRevert history) {id : RequestId} {loaded : Bool}
    (present : history.state.threads[index]? = some (.loadingSnapshot id))
    (threads : after.state.threads =
      history.state.threads.set index (.recording loaded))
    (reverting : after.state.reverting = history.state.reverting)
    (pending : after.state.pending = history.state.pending)
    (armings : after.armings = history.armings) : OneRevert after := by
  have origin : ∀ (other : Nat) (thread : Thread Config),
      after.state.threads[other]? = some thread → thread.reverts = true →
      ∃ before : Thread Config,
        history.state.threads[other]? = some before ∧
          before.reverts = true := by
    intro other thread found reverts
    rw [threads, getElem?_set_of_present present] at found
    split at found
    · rename_i same
      exact ⟨_, same ▸ present, rfl⟩
    · exact ⟨thread, found, reverts⟩
  exact
    { flagged := by
        intro other thread found reverts
        obtain ⟨before, present', reverts'⟩ :=
          origin other thread found reverts
        rw [reverting]
        exact one.flagged other before present' reverts'
      alone := by
        intro first second left right foundLeft reverts foundRight reverts'
        obtain ⟨left', present', was⟩ := origin first left foundLeft reverts
        obtain ⟨right', present'', was'⟩ :=
          origin second right foundRight reverts'
        exact one.alone first second left' right' present' was present'' was'
      empty := fun flag => by
        rw [pending]
        exact one.empty (reverting ▸ flag)
      arms_apart := armings ▸ one.arms_apart }

/-- The outcome of a revert is recorded: there was no other one. -/
theorem finish (one : OneRevert history) {loaded : Bool}
    (present : history.state.threads[index]? = some (.recording loaded))
    (threads : after.state.threads =
      history.state.threads.set index .finished)
    (reverting : after.state.reverting = false)
    (armings : after.armings = history.armings) : OneRevert after := by
  have none_after : ∀ (other : Nat) (thread : Thread Config),
      after.state.threads[other]? = some thread → thread.reverts = true →
      False := by
    intro other thread found reverts
    rw [threads] at found
    obtain ⟨before, elsewhere⟩ := idle_of_put present rfl found reverts
    exact elsewhere (one.alone other index thread _ before reverts present rfl)
  exact
    { flagged := fun other thread found reverts =>
        (none_after other thread found reverts).elim
      alone := fun first _ left _ found reverts _ _ =>
        (none_after first left found reverts).elim
      empty := fun flag => by simp [reverting] at flag
      arms_apart := armings ▸ one.arms_apart }

/-- A change becomes pending while no revert is under way. -/
theorem arm (one : OneRevert history)
    (clear : history.state.reverting = false)
    (threads : after.state.threads =
      history.state.threads.set index .finished ++ [.expiring index])
    (reverting : after.state.reverting = history.state.reverting)
    (armings : after.armings =
      ⟨index, history.state.threads.any Thread.isLoading⟩ ::
        history.armings) : OneRevert after := by
  have none_before : ∀ thread ∈ history.state.threads,
      thread.reverts = false := by
    intro thread member
    obtain ⟨other, found⟩ := List.getElem?_of_mem member
    by_contra reverts
    have flag := one.flagged other thread found (by simpa using reverts)
    rw [clear] at flag
    cases flag
  have none_after : ∀ (other : Nat) (thread : Thread Config),
      after.state.threads[other]? = some thread → thread.reverts = false := by
    intro other thread found
    rw [threads] at found
    rcases List.mem_append.mp (List.mem_of_getElem? found) with kept | timer
    · rcases List.mem_or_eq_of_mem_set kept with before | rfl
      · exact none_before thread before
      · rfl
    · rw [List.mem_singleton.mp timer]
      rfl
  have unloaded : history.state.threads.any Thread.isLoading = false := by
    rw [List.any_eq_false]
    intro thread member
    rw [not_isLoading (none_before thread member)]
    exact Bool.false_ne_true
  exact
    { flagged := fun other thread found reverts => by
        rw [none_after other thread found] at reverts
        cases reverts
      alone := fun first _ left _ found reverts _ _ => by
        rw [none_after first left found] at reverts
        cases reverts
      empty := fun flag => by
        rw [reverting, clear] at flag
        cases flag
      arms_apart := by
        rw [armings, unloaded]
        simpa using one.arms_apart }

theorem detachStep (one : OneRevert history) {id : RequestId}
    (present : history.state.threads[index]? = some old)
    (state : after.state = Guard.detachStep history.state index id)
    (armings : after.armings = history.armings) : OneRevert after := by
  by_cases pending : history.state.pending = some id
  · rw [Guard.detachStep, if_pos pending] at state
    exact one.detach present pending (by rw [state]; rfl) (by rw [state]; rfl)
      (by rw [state]; rfl) armings
  · rw [Guard.detachStep, if_neg pending] at state
    exact one.put present (by rw [state]; rfl) rfl (by rw [state]; rfl)
      (by rw [state]; exact fun empty => empty) armings

theorem step (one : OneRevert history) {action : Action Config}
    (clear : NoRevertSince history action)
    (stepped : history.next action = some after) : OneRevert after := by
  cases action with
  | arrive thread =>
      obtain ⟨state, arrived, rfl⟩ := Option.map_eq_some_iff.mp stepped
      simp only [Guard.next] at arrived
      split at arrived <;> cases arrived
      rename_i arrives
      exact one.arrive arrives
  | advance index ok =>
      obtain ⟨thread, present, stepped⟩ := Option.bind_eq_some_iff.mp stepped
      obtain ⟨state, moved, rfl⟩ := Option.map_eq_some_iff.mp stepped
      cases thread with
      | guarded progress =>
          cases moved
          by_cases arming : ∃ payload, progress = .arming payload
          · obtain ⟨payload, rfl⟩ := arming
            rw [NoRevertSince, present] at clear
            exact one.arm clear rfl rfl rfl
          · have notArming : ∀ payload, progress ≠ .arming payload :=
              fun payload same => arming ⟨payload, same⟩
            obtain ⟨new, threads, idle, pending, reverting⟩ :=
              guardedStep_apart history.state index ok notArming
            exact one.put present threads idle reverting
              (fun empty => pending.trans empty) (by
                cases progress <;>
                  first | rfl | exact absurd rfl (notArming _))
      | confirming id =>
          simp only [threadStep] at moved
          split at moved <;> cases moved
          · exact one.put present rfl rfl rfl (fun _ => rfl) rfl
          · exact one.put present rfl rfl rfl (fun empty => empty) rfl
      | savingBoot id =>
          simp only [threadStep] at moved
          split at moved <;> cases moved <;>
            exact one.put present rfl rfl rfl (fun empty => empty) rfl
      | reverting id =>
          cases moved
          exact one.detachStep present rfl rfl
      | expiring id =>
          cases moved
          exact one.detachStep present rfl rfl
      | loadingSnapshot id =>
          simp only [threadStep] at moved
          split at moved <;> cases moved <;>
            exact one.load present rfl rfl rfl rfl
      | recording loaded =>
          cases moved
          exact one.finish present rfl rfl rfl
      | proxyChecking =>
          simp only [threadStep] at moved
          split at moved <;> cases moved <;>
            exact one.put present rfl rfl rfl (fun empty => empty) rfl
      | proxyForwarding =>
          simp only [threadStep] at moved
          split at moved <;> cases moved <;>
            exact one.put present rfl rfl rfl (fun empty => empty) rfl
      | finished => cases moved

theorem of_reached {history : History Config}
    (reached : (historied Config).ReachableUnder NoRevertSince history) :
    OneRevert history := by
  refine reached.invariant ?_ fun _ _ _ one clear stepped =>
    one.step clear stepped
  rintro _ ⟨state, starts, rfl⟩
  exact .start starts

end OneRevert

/-- In every run where `begin_pending` finds no revert under way, each change
is resolved at most once, by its own id, and none becomes pending while a
revert is loading. -/
theorem resolvedOnce_of_noRevertSince {history : History Config}
    (reached : (historied Config).ReachableUnder NoRevertSince history) :
    ResolvedOnce history := by
  have settled := Settled.of_reachable reached
  have one := OneRevert.of_reached reached
  refine ⟨settled.one_outcome, ?_, settled.own_change, one.arms_apart⟩
  intro id loading
  obtain ⟨index, found⟩ := List.getElem?_of_mem loading
  exact (settled.loads index id found).2

/-- The change is committed, and `begin_pending` is the next step. -/
def Thread.arms : Thread Config → Bool
  | .guarded (.arming _) => true
  | _ => false

theorem noRevertSince_advance (history : History Config) (index : Nat)
    (ok : Bool) :
    ((history.state.threads[index]?).any Thread.arms = true →
      history.state.reverting = false) ↔
      NoRevertSince history (.advance index ok) := by
  rw [NoRevertSince]
  split
  · rename_i present
    simp [present, Thread.arms]
  · rename_i other
    refine iff_of_true (fun arms => ?_) trivial
    cases present : history.state.threads[index]? with
    | none => simp [present] at arms
    | some thread =>
        rw [present, Option.any_some] at arms
        unfold Thread.arms at arms
        split at arms
        · exact absurd present (other _)
        · cases arms

instance (history : History Config) :
    (action : Action Config) → Decidable (NoRevertSince history action)
  | .arrive _ => .isTrue trivial
  | .advance index ok =>
      decidable_of_iff _ (noRevertSince_advance history index ok)

def applyOne : Thread Nat :=
  .guarded (.checking (applyPrepare (· + 1) fun _ => false))

/-- An `apply`, reverted on request before its timer fires, and a second one
that is confirmed. -/
def resolvingTrace : List (Action Nat) :=
  .arrive applyOne :: List.replicate 7 (.advance 0 true) ++
    [.arrive (.reverting 0), .advance 2 true, .advance 2 true,
      .advance 2 true, .advance 1 true, .arrive applyOne] ++
    List.replicate 7 (.advance 3 true) ++
    [.arrive (.confirming 3), .advance 5 true]

theorem starts_historied :
    (historied Nat).Initial (History.start (State.start 0)) :=
  ⟨State.start 0, starts_start 0, rfl⟩

theorem resolvingTrace_resolvedOnce :
    ∃ history, (historied Nat).run (History.start (State.start 0))
        resolvingTrace = some history ∧
      history.outcomes = [(3, .confirmed), (0, .reverted)] ∧
      ResolvedOnce history := by
  have replayed : ((historied Nat).run (History.start (State.start 0))
      resolvingTrace).map History.outcomes =
      some [(3, .confirmed), (0, .reverted)] := by decide +kernel
  obtain ⟨history, replay, outcomes⟩ := Option.map_eq_some_iff.mp replayed
  have reached : (historied Nat).ReachableUnder NoRevertSince history :=
    TransitionSystem.ReachableUnder.run (.initial starts_historied)
      resolvingTrace (by decide +kernel) replay
  exact ⟨history, replay, outcomes, resolvedOnce_of_noRevertSince reached⟩

/-- Two requests find the slot empty; the change of the second is being
reverted when the first reaches `begin_pending`. -/
def armsLateTrace : List (Action Nat) :=
  .arrive applyOne :: List.replicate 6 (.advance 0 true) ++
    .arrive applyOne :: List.replicate 7 (.advance 1 true) ++
    [.arrive (.reverting 1), .advance 3 true, .advance 0 true]

theorem change_armed_while_loading :
    ∃ history, (historied Nat).Reachable history ∧
      ¬ ResolvedOnce history := by
  refine ⟨_, TransitionSystem.reachable_of_run starts_historied
    armsLateTrace rfl, ?_⟩
  intro resolved
  have apart := resolved.arms_apart ⟨0, true⟩ (by decide)
  cases apart

end QuartzFire.Guard
