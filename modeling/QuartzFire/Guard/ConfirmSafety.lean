import QuartzFire.Guard.CommitConfirm

/-!
# The boot config and unconfirmed changes

The module documentation of the guard promises that the boot config is never
touched before a confirmation.  The pending slot is consulted and filled in
separate steps, so the promise fails when a boot save or another change runs
in between; it holds in every run where the answers of `is_pending` are still
right when the calls relying on them take effect.
-/

namespace QuartzFire.Guard

variable {Config : Type}

/-- Every guarded change in the boot config was confirmed by its own confirm
request. -/
def BootConfirmed (state : State Config) : Prop :=
  ∀ change ∈ state.boot.changes, change ∈ state.confirmed

/-- A change is committed and not yet in the pending slot. -/
def Thread.unregistered : Thread Config → Bool
  | .guarded (.arming _) => true
  | _ => false

/-- A confirm request took its change out of the slot and has not saved. -/
def Thread.owesSave : Thread Config → Bool
  | .savingBoot _ => true
  | _ => false

/-- `is_pending` still answers no, and no other request has a committed change
on its way into the slot. -/
def StillClear (state : State Config) (index : Nat) : Prop :=
  state.isPending = false ∧
    ∀ other ∈ state.threads.eraseIdx index, other.unregistered = false

/-- The steps on which the guard depends find what it was told before: its
snapshot, its commit and a proxied save still find the slot clear; no boot save
is owed when a change is committed; the text loaded is the request's own; and
the load of a revert succeeds. -/
def AnswerStands (state : State Config) : Action Config → Prop
  | .arrive _ => True
  | .advance index ok =>
      match state.threads[index]? with
      | some (.guarded (.snapshotting _)) => ok = true → StillClear state index
      | some (.guarded (.committing payload)) => ok = true →
          StillClear state index ∧
            (∀ other ∈ state.threads, other.owesSave = false) ∧
            match payload, state.loadFile with
            | .load _, some (_, writer) => writer = index
            | _, _ => True
      | some .proxyForwarding => ok = true → StillClear state index
      | some (.loadingSnapshot _) =>
          ok = true ∧ state.snapshot.isSome = true
      | _ => True

instance (state : State Config) (index : Nat) :
    Decidable (StillClear state index) :=
  inferInstanceAs (Decidable (_ ∧ _))

instance (state : State Config) (action : Action Config) :
    Decidable (AnswerStands state action) := by
  unfold AnswerStands
  repeat' split
  all_goals infer_instance

/-! ## The life of a change -/

/-- The one change in flight between its commit and its settlement. -/
inductive Phase where
  | idle
  | unregistered (id : RequestId)
  | pending (id : RequestId)
  | loading (index : Nat) (id : RequestId)
  | recording (index : Nat)

namespace Phase

/-- The pending slot in each phase. -/
def slot : Phase → Option RequestId
  | .pending id => some id
  | _ => none

def reverts : Phase → Bool
  | .loading _ _ | .recording _ => true
  | _ => false

/-- The change that is in the running config without being confirmed. -/
def live : Phase → Option RequestId
  | .unregistered id | .pending id | .loading _ id => some id
  | _ => none

/-- Where a thread may stand in each phase. -/
def Allows (phase : Phase) (index : Nat) : Thread Config → Prop
  | .guarded (.arming _) => phase = .unregistered index
  | .loadingSnapshot id => phase = .loading index id
  | .recording _ => phase = .recording index
  | .savingBoot _ => phase = .idle
  | _ => True

/-- The thread a phase is about. -/
def owner : Phase → Option Nat
  | .unregistered index | .loading index _ | .recording index => some index
  | _ => none

/-- A thread the phase is not about, and which owes no save, may stay where it
is in every other phase. -/
theorem Allows.elsewhere {phase : Phase} {index : Nat}
    {thread : Thread Config} (allowed : phase.Allows index thread)
    (away : phase.owner ≠ some index)
    (saved : phase = .idle → thread.owesSave = false) (next : Phase) :
    next.Allows index thread := by
  cases thread with
  | guarded progress =>
      cases progress with
      | arming payload =>
          cases allowed
          exact absurd rfl away
      | _ => trivial
  | loadingSnapshot id =>
      cases allowed
      exact absurd rfl away
  | recording loaded =>
      cases allowed
      exact absurd rfl away
  | savingBoot id => exact Bool.noConfusion (saved allowed)
  | _ => trivial

end Phase

/-- The state agrees with a phase, and all it holds of guarded changes is
confirmed or the live change. -/
structure InPhase (state : State Config) (phase : Phase) : Prop where
  slot : state.pending = phase.slot
  reverting : state.reverting = phase.reverts
  threads : ∀ index thread, state.threads[index]? = some thread →
    phase.Allows index thread
  unregistered : ∀ id, phase = .unregistered id →
    ∃ payload, state.threads[id]? = some (.guarded (.arming payload))
  boot : ∀ change ∈ state.boot.changes, change ∈ state.confirmed
  snapshot : ∀ file ∈ state.snapshot, ∀ change ∈ file.document.changes,
    change ∈ state.confirmed
  running : ∀ change ∈ state.running.changes,
    change ∈ state.confirmed ∨ phase.live = some change

namespace InPhase

variable {state : State Config} {phase : Phase}

theorem start (starts : Starts state) : InPhase state .idle where
  slot := starts.pending
  reverting := starts.reverting
  threads := by
    intro index thread present
    simp [starts.threads] at present
  unregistered := by simp
  boot := by simp [starts.boot]
  snapshot := by
    intro file member change inFile
    rw [(starts.snapshot file member).2] at inFile
    exact absurd inFile List.not_mem_nil
  running := by simp [starts.running]

/-- Only the phase's own thread is past its commit. -/
theorem phase_of_unregistered (inPhase : InPhase state phase)
    {index : Nat} {payload : Payload Config}
    (present : state.threads[index]? = some (.guarded (.arming payload))) :
    phase = .unregistered index :=
  inPhase.threads index _ present

/-- When `is_pending` answers no and no other request is past its commit, no
change is in flight at all. -/
theorem live_eq_none (inPhase : InPhase state phase)
    {index : Nat} {thread : Thread Config}
    (present : state.threads[index]? = some thread)
    (registered : thread.unregistered = false)
    (clear : StillClear state index) : phase = .idle := by
  obtain ⟨notPending, others⟩ := clear
  rw [State.isPending, inPhase.slot, inPhase.reverting] at notPending
  cases phase with
  | idle => rfl
  | unregistered id =>
      obtain ⟨payload, arming⟩ := inPhase.unregistered id rfl
      have different : id ≠ index := by
        intro same
        rw [same, present] at arming
        cases arming
        simp [Thread.unregistered] at registered
      have member : Thread.guarded (.arming payload) ∈
          state.threads.eraseIdx index :=
        List.mem_eraseIdx_iff_getElem?.mpr ⟨id, different, arming⟩
      simpa [Thread.unregistered] using others _ member
  | pending id => simp [Phase.slot] at notPending
  | loading index id => simp [Phase.reverts] at notPending
  | recording index => simp [Phase.reverts] at notPending

/-- A step inside one thread that leaves the phase as it is. -/
theorem put (inPhase : InPhase state phase)
    {index : Nat} {old new : Thread Config}
    (present : state.threads[index]? = some old)
    (registered : old.unregistered = false)
    (allowed : phase.Allows index new) :
    InPhase (state.put index new) phase where
  slot := inPhase.slot
  reverting := inPhase.reverting
  threads := by
    intro other thread found
    rw [State.put, getElem?_set_of_present present] at found
    split at found
    · rename_i same
      cases found
      exact same ▸ allowed
    · exact inPhase.threads other thread found
  unregistered := by
    intro id isUnregistered
    obtain ⟨payload, arming⟩ := inPhase.unregistered id isUnregistered
    have different : id ≠ index := by
      intro same
      rw [same, present] at arming
      cases arming
      simp [Thread.unregistered] at registered
    refine ⟨payload, ?_⟩
    rw [State.put, getElem?_set_of_present present, if_neg different]
    exact arming
  boot := inPhase.boot
  snapshot := inPhase.snapshot
  running := inPhase.running

/-- A step of the phase's own thread into another phase. -/
theorem threads_put (inPhase : InPhase state phase) {next : Phase}
    {index : Nat} {old new : Thread Config}
    (present : state.threads[index]? = some old)
    (own : ∀ other, phase.owner = some other → other = index)
    (saved : phase = .idle →
      ∀ other ∈ state.threads, other.owesSave = false)
    (allowed : next.Allows index new) :
    ∀ other thread, (state.threads.set index new)[other]? = some thread →
      next.Allows other thread := by
  intro other thread found
  rw [getElem?_set_of_present present] at found
  split at found
  · rename_i same
    cases found
    exact same ▸ allowed
  · rename_i different
    exact (inPhase.threads other thread found).elsewhere
      (fun owned => different (own other owned))
      (fun idle => saved idle thread (List.mem_of_getElem? found)) next

/-- A new request starts at a step no phase speaks of. -/
theorem arrive (inPhase : InPhase state phase) {thread : Thread Config}
    (allowed : phase.Allows state.threads.length thread) :
    InPhase { state with threads := state.threads ++ [thread] } phase where
  slot := inPhase.slot
  reverting := inPhase.reverting
  threads := by
    intro index found present
    rw [List.getElem?_append] at present
    split at present
    · exact inPhase.threads index found present
    · rename_i outside
      obtain ⟨bound, rfl⟩ := List.getElem?_eq_some_iff.mp present
      have atEnd : index = state.threads.length := by
        simp at bound
        omega
      subst atEnd
      simpa using allowed
  unregistered := by
    intro id isUnregistered
    obtain ⟨payload, arming⟩ := inPhase.unregistered id isUnregistered
    refine ⟨payload, ?_⟩
    rw [List.getElem?_append_left (List.getElem?_eq_some_iff.mp arming).1]
    exact arming
  boot := inPhase.boot
  snapshot := inPhase.snapshot
  running := inPhase.running

/-- A commit made while nothing is in flight and no boot save is owed puts its
change in flight. -/
theorem commitChange (inPhase : InPhase state .idle)
    {id : RequestId} {old : Thread Config} (payload : Payload Config)
    {document : Document Config}
    (present : state.threads[id]? = some old)
    (saved : ∀ other ∈ state.threads, other.owesSave = false)
    (own : ∀ change ∈ document.changes,
      change = id ∨ change ∈ state.running.changes) :
    InPhase ((state.commitChange id document).put id
      (.guarded (.arming payload))) (.unregistered id) where
  slot := inPhase.slot
  reverting := inPhase.reverting
  threads := by
    exact inPhase.threads_put present (by simp [Phase.owner])
      (fun _ => saved) rfl
  unregistered := by
    intro other same
    cases same
    refine ⟨payload, ?_⟩
    simp only [State.put, State.commitChange, State.commit]
    rw [getElem?_set_of_present present, if_pos rfl]
  boot := inPhase.boot
  snapshot := inPhase.snapshot
  running := by
    intro change inDocument
    rcases own change inDocument with same | before
    · exact .inr (congrArg some same.symm)
    · rcases inPhase.running change before with settled | alive
      · exact .inl settled
      · simp [Phase.live] at alive

/-- `begin_pending` moves the committed change into the slot; its timer starts
where no phase speaks of it. -/
theorem arm {id : RequestId} (inPhase : InPhase state (.unregistered id))
    {old : Thread Config} (present : state.threads[id]? = some old)
    (loadFile : Option (Config × RequestId)) :
    InPhase { state with
      pending := some id
      loadFile := loadFile
      threads := state.threads.set id .finished ++ [.expiring id] }
      (.pending id) := by
  have moved : InPhase { state.put id .finished with
      pending := some id, loadFile := loadFile } (.pending id) :=
    { slot := rfl
      reverting := inPhase.reverting
      threads := by
        exact inPhase.threads_put present
          (by simp [Phase.owner]) (by simp) trivial
      unregistered := by simp
      boot := inPhase.boot
      snapshot := inPhase.snapshot
      running := inPhase.running }
  exact moved.arrive (show Phase.Allows _ _ (.expiring id) from trivial)

/-- `confirm` settles the pending change and still owes its save. -/
theorem confirm {id : RequestId} (inPhase : InPhase state (.pending id))
    {index : Nat} {old : Thread Config}
    (present : state.threads[index]? = some old) :
    InPhase ({ state with
      pending := none
      snapshot := none
      confirmed := id :: state.confirmed }.put index (.savingBoot id))
      .idle where
  slot := rfl
  reverting := inPhase.reverting
  threads := by
    exact inPhase.threads_put present
      (by simp [Phase.owner]) (by simp) rfl
  unregistered := by simp
  boot := fun change saved =>
    List.mem_cons_of_mem id (inPhase.boot change saved)
  snapshot := by simp [State.put]
  running := by
    intro change present
    left
    rcases inPhase.running change present with settled | alive
    · exact List.mem_cons_of_mem id settled
    · cases alive
      exact List.mem_cons_self

/-- A boot save while nothing is in flight only saves confirmed changes. -/
theorem saveBoot (inPhase : InPhase state .idle)
    {index : Nat} {old : Thread Config}
    (present : state.threads[index]? = some old)
    (registered : old.unregistered = false) :
    InPhase ({ state with boot := state.running }.put index .finished)
      .idle :=
  have confirmedRunning : ∀ change ∈ state.running.changes,
      change ∈ state.confirmed := by
    intro change present
    rcases inPhase.running change present with settled | alive
    · exact settled
    · simp [Phase.live] at alive
  { inPhase.put present registered
      (show Phase.Allows _ index .finished from trivial) with
    boot := confirmedRunning }

/-- `expire` and `revert` take the change out of the slot to undo it. -/
theorem detach {id : RequestId} (inPhase : InPhase state (.pending id))
    {index : Nat} {old : Thread Config}
    (present : state.threads[index]? = some old) :
    InPhase ({ state with pending := none, reverting := true }.put index
      (.loadingSnapshot id)) (.loading index id) where
  slot := rfl
  reverting := rfl
  threads := by
    exact inPhase.threads_put present
      (by simp [Phase.owner]) (by simp) rfl
  unregistered := by simp
  boot := inPhase.boot
  snapshot := inPhase.snapshot
  running := inPhase.running

/-- A successful load of the snapshot leaves only confirmed changes running. -/
theorem loadSnapshot {index : Nat} {id : RequestId}
    (inPhase : InPhase state (.loading index id))
    {old : Thread Config} (present : state.threads[index]? = some old)
    {file : GuardFile Config} (found : state.snapshot = some file) :
    InPhase ((state.commit file.document).put index (.recording true))
      (.recording index) where
  slot := inPhase.slot
  reverting := inPhase.reverting
  threads := by
    exact inPhase.threads_put present
      (by simp [Phase.owner]) (by simp) rfl
  unregistered := by simp
  boot := inPhase.boot
  snapshot := inPhase.snapshot
  running := fun change present =>
    .inl (inPhase.snapshot file found change present)

/-- With the outcome recorded, nothing is in flight any more. -/
theorem record {index : Nat} (inPhase : InPhase state (.recording index))
    {old : Thread Config} (present : state.threads[index]? = some old)
    (loaded : Bool) :
    InPhase ({ state with
      reverting := false
      snapshot := if loaded then none else state.snapshot }.put index
        .finished) .idle where
  slot := inPhase.slot
  reverting := rfl
  threads := by
    exact inPhase.threads_put present
      (by simp [Phase.owner]) (by simp) trivial
  unregistered := by simp
  boot := inPhase.boot
  snapshot := by
    intro file member
    cases loaded with
    | true => simp [State.put] at member
    | false => exact inPhase.snapshot file member
  running := by
    intro change present
    rcases inPhase.running change present with settled | alive
    · exact .inl settled
    · simp [Phase.live] at alive

/-- A guarded request's step, each branch by the step it models. -/
theorem guardedStep (inPhase : InPhase state phase)
    {id : RequestId} {ok : Bool} {progress : Progress Config}
    (present : state.threads[id]? = some (.guarded progress))
    (stands : AnswerStands state (.advance id ok)) :
    ∃ next, InPhase (Guard.guardedStep state id ok progress) next := by
  rw [AnswerStands, present] at stands
  cases progress with
  | fetching revision =>
      simp only [Guard.guardedStep]
      split <;> exact ⟨phase, inPhase.put present rfl trivial⟩
  | checking prepare =>
      simp only [Guard.guardedStep]
      split <;> exact ⟨phase, inPhase.put present rfl trivial⟩
  | preparing prepare =>
      simp only [Guard.guardedStep]
      split <;> exact ⟨phase, inPhase.put present rfl trivial⟩
  | clearing payload =>
      have moved := inPhase.put present rfl
        (show Phase.Allows _ id (.guarded (.snapshotting payload)) from trivial)
      exact ⟨phase, { moved with
        snapshot := by simp [Guard.guardedStep, State.put] }⟩
  | snapshotting payload =>
      simp only [Guard.guardedStep]
      split
      · rename_i succeeds
        have idle := inPhase.live_eq_none present rfl (stands succeeds)
        subst idle
        have moved := inPhase.put present rfl
          (show Phase.Allows _ id (.guarded (.staging payload)) from trivial)
        refine ⟨.idle, { moved with snapshot := ?_ }⟩
        intro file member change inFile
        cases member
        rcases inPhase.running change inFile with settled | alive
        · exact settled
        · simp [Phase.live] at alive
      · exact ⟨phase, inPhase.put present rfl trivial⟩
  | staging payload =>
      simp only [Guard.guardedStep]
      split
      · exact ⟨phase, inPhase.put present rfl trivial⟩
      · exact ⟨phase, inPhase.put present rfl trivial⟩
      · rename_i file text _
        have moved := inPhase.put present rfl
          (show Phase.Allows _ id (.guarded (.committing (.load text)))
            from trivial)
        exact ⟨phase, { moved with }⟩
  | committing payload =>
      cases payload with
      | configure edit =>
          simp only [Guard.guardedStep]
          split
          · rename_i succeeds
            obtain ⟨clear, saved, -⟩ := stands succeeds
            have idle := inPhase.live_eq_none present rfl clear
            subst idle
            refine ⟨_, inPhase.commitChange _ present saved ?_⟩
            intro change member
            exact List.mem_cons.mp member
          · exact ⟨phase, inPhase.put present rfl trivial⟩
      | load text =>
          simp only [Guard.guardedStep]
          split
          · rename_i found author loaded
            obtain ⟨clear, saved, writer⟩ := stands rfl
            have idle := inPhase.live_eq_none present rfl clear
            subst idle
            rw [loaded] at writer
            cases writer
            refine ⟨_, inPhase.commitChange _ present saved ?_⟩
            intro change member
            exact .inl (List.mem_singleton.mp member)
          · have moved := inPhase.put present rfl
              (show Phase.Allows _ id .finished from trivial)
            exact ⟨phase, { moved with }⟩
  | arming payload =>
      have unregistered := inPhase.phase_of_unregistered present
      subst unregistered
      exact ⟨_, inPhase.arm present _⟩

theorem detachStep (inPhase : InPhase state phase)
    {index : Nat} {id : RequestId} {old : Thread Config}
    (present : state.threads[index]? = some old)
    (registered : old.unregistered = false) :
    ∃ next, InPhase (Guard.detachStep state index id) next := by
  unfold Guard.detachStep
  split
  · rename_i inSlot
    rw [inPhase.slot] at inSlot
    cases phase <;> simp only [Phase.slot, reduceCtorEq] at inSlot
    cases inSlot
    exact ⟨_, inPhase.detach present⟩
  · exact ⟨phase, inPhase.put present registered trivial⟩

/-- Every admitted step keeps some phase. -/
theorem step {action : Action Config} {after : State Config}
    (inPhase : InPhase state phase) (stands : AnswerStands state action)
    (stepped : next state action = some after) :
    ∃ phase, InPhase after phase := by
  cases action with
  | arrive thread =>
      simp only [next, Option.ite_none_right_eq_some,
        Option.some.injEq] at stepped
      obtain ⟨arrives, rfl⟩ := stepped
      refine ⟨phase, inPhase.arrive ?_⟩
      cases thread with
      | guarded progress =>
          cases progress <;> trivial
      | _ => trivial
  | advance index ok =>
      obtain ⟨thread, present, moved⟩ := Option.bind_eq_some_iff.mp stepped
      cases thread with
      | guarded progress =>
          cases moved
          exact inPhase.guardedStep present stands
      | confirming id =>
          simp only [threadStep] at moved
          split at moved <;> cases moved
          · rename_i inSlot
            rw [inPhase.slot] at inSlot
            cases phase <;> simp only [Phase.slot, reduceCtorEq] at inSlot
            cases inSlot
            exact ⟨_, inPhase.confirm present⟩
          · exact ⟨phase, inPhase.put present rfl trivial⟩
      | savingBoot id =>
          have idle : phase = .idle := inPhase.threads index _ present
          subst idle
          simp only [threadStep] at moved
          split at moved <;> cases moved
          · exact ⟨_, inPhase.saveBoot present rfl⟩
          · exact ⟨_, inPhase.put present rfl trivial⟩
      | reverting id =>
          cases moved
          exact inPhase.detachStep present rfl
      | expiring id =>
          cases moved
          exact inPhase.detachStep present rfl
      | loadingSnapshot id =>
          have loading : phase = .loading index id :=
            inPhase.threads index _ present
          subst loading
          rw [AnswerStands, present] at stands
          obtain ⟨succeeds, found⟩ := stands
          obtain ⟨file, found⟩ := Option.isSome_iff_exists.mp found
          subst succeeds
          simp only [threadStep, found, Option.some.injEq] at moved
          subst moved
          exact ⟨_, inPhase.loadSnapshot present found⟩
      | recording loaded =>
          have recording : phase = .recording index :=
            inPhase.threads index _ present
          subst recording
          cases moved
          exact ⟨_, inPhase.record present loaded⟩
      | proxyChecking =>
          simp only [threadStep] at moved
          split at moved <;> cases moved <;>
            exact ⟨phase, inPhase.put present rfl trivial⟩
      | proxyForwarding =>
          rw [AnswerStands, present] at stands
          simp only [threadStep] at moved
          split at moved <;> cases moved
          · rename_i succeeds
            have idle := inPhase.live_eq_none present rfl (stands succeeds)
            subst idle
            exact ⟨_, inPhase.saveBoot present rfl⟩
          · exact ⟨phase, inPhase.put present rfl trivial⟩
      | finished => cases moved

end InPhase

/-- The invariant of these runs. -/
def Placed (state : State Config) : Prop := ∃ phase, InPhase state phase

/-- In every run whose calls find the answers they rely on still right, every
state's boot config holds confirmed changes only. -/
theorem bootConfirmed_of_answersStand {state : State Config}
    (reached : (guard Config).ReachableUnder AnswerStands state) :
    BootConfirmed state := by
  have placed : Placed state := by
    refine reached.invariant (fun _ starts => ⟨.idle, .start starts⟩) ?_
    rintro before action after ⟨phase, inPhase⟩ stands stepped
    exact inPhase.step stands stepped
  obtain ⟨phase, inPhase⟩ := placed
  exact inPhase.boot

/-- An `apply` adding one to the configuration, confirmed, and a proxied save
after it. -/
def confirmedTrace : List (Action Nat) :=
  .arrive (.guarded (.checking (applyPrepare (· + 1) fun _ => false))) ::
    List.replicate 7 (.advance 0 true) ++
    [.arrive (.confirming 0), .advance 2 true, .advance 2 true,
      .arrive .proxyChecking, .advance 3 true, .advance 3 true]

theorem confirmedTrace_bootConfirmed :
    ∃ state, (guard Nat).run (State.start 0) confirmedTrace = some state ∧
      state.boot.changes = [0] ∧ BootConfirmed state := by
  have replayed : ((guard Nat).run (State.start 0) confirmedTrace).map
      (fun state => state.boot.changes) = some [0] := by decide +kernel
  obtain ⟨state, replay, changes⟩ := Option.map_eq_some_iff.mp replayed
  have reached : (guard Nat).ReachableUnder AnswerStands state :=
    TransitionSystem.ReachableUnder.run (.initial (starts_start 0))
      confirmedTrace (by decide +kernel) replay
  exact ⟨state, replay, changes, bootConfirmed_of_answersStand reached⟩

/-- An `apply` still on its way to `begin_pending` while a proxied save, which
found no change pending, is forwarded. -/
def overtakenTrace : List (Action Nat) :=
  .arrive (.guarded (.checking (applyPrepare (· + 1) fun _ => false))) ::
    List.replicate 6 (.advance 0 true) ++
    [.arrive .proxyChecking, .advance 1 true, .advance 1 true]

/-- A boot save can overtake the registration of a committed change. -/
theorem unconfirmed_change_saved :
    ∃ state, (guard Nat).Reachable state ∧ ¬ BootConfirmed state := by
  refine ⟨_, TransitionSystem.reachable_of_run (starts_start 0)
    overtakenTrace rfl, ?_⟩
  intro bootConfirmed
  have confirmedZero := bootConfirmed 0 (by decide)
  exact absurd confirmedZero (by decide)

end QuartzFire.Guard
