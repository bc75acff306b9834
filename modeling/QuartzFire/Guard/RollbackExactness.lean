import QuartzFire.Guard.CommitConfirm

/-!
# What a revert restores

All guarded requests write the same snapshot file, before their commit and
after a check of the pending slot made earlier still.  A revert restores the
config its change was committed on top of in every run where a request starts
its snapshot only while no other request still depends on the file.
-/

namespace QuartzFire.Guard

variable {Config : Type}

/-- A revert about to load has the snapshot taken for its own change, and
loading it brings back the running config from immediately before that change
was committed. -/
def RestoresBase (state : State Config) : Prop :=
  ∀ (index : Nat) (id : RequestId),
    state.threads[index]? = some (.loadingSnapshot id) →
    (∃ file, state.snapshot = some file ∧ file.owner = some id) ∧
      ∀ after, next state (.advance index true) = some after →
        state.base id = some after.running

/-- Between the removal of the stale snapshot and `begin_pending`. -/
def Thread.holdsSnapshot : Thread Config → Bool
  | .guarded (.snapshotting _) | .guarded (.staging _)
  | .guarded (.committing _) | .guarded (.arming _) => true
  | _ => false

/-- A request removes the old snapshot only when no change is pending or being
reverted and no other request is between its snapshot and `begin_pending`. -/
def SnapshotFree (state : State Config) : Action Config → Prop
  | .arrive _ => True
  | .advance index _ =>
      match state.threads[index]? with
      | some (.guarded (.clearing _)) =>
          state.isPending = false ∧
            ∀ other ∈ state.threads, other.holdsSnapshot = false
      | _ => True

def Thread.clearsSnapshot : Thread Config → Bool
  | .guarded (.clearing _) => true
  | _ => false

theorem snapshotFree_advance (state : State Config) (index : Nat) (ok : Bool) :
    (((state.threads[index]?).any Thread.clearsSnapshot = true) →
      state.isPending = false ∧
        ∀ other ∈ state.threads, other.holdsSnapshot = false) ↔
      SnapshotFree state (.advance index ok) := by
  rw [SnapshotFree]
  split
  · rename_i present
    simp [present, Thread.clearsSnapshot]
  · rename_i other
    refine iff_of_true (fun clears => ?_) trivial
    cases present : state.threads[index]? with
    | none => simp [present] at clears
    | some thread =>
        rw [present, Option.any_some] at clears
        unfold Thread.clearsSnapshot at clears
        split at clears
        · exact absurd present (other _)
        · cases clears

instance (state : State Config) :
    (action : Action Config) → Decidable (SnapshotFree state action)
  | .arrive _ => .isTrue trivial
  | .advance index ok => decidable_of_iff _ (snapshotFree_advance state index ok)

/-! ## Who depends on the snapshot file -/

/-- The one request the snapshot file belongs to, and how far it is. -/
inductive Holder where
  | none
  | clearing (id : RequestId)
  | saved (id : RequestId)
  | committed (id : RequestId)
  | pending (id : RequestId)
  | loading (index : Nat) (id : RequestId)
  | recording (index : Nat)

namespace Holder

def slot : Holder → Option RequestId
  | .pending id => some id
  | _ => Option.none

def reverts : Holder → Bool
  | .loading _ _ | .recording _ => true
  | _ => false

/-- Where a thread may stand under each holder. -/
def Allows (holder : Holder) (index : Nat) : Thread Config → Prop
  | .guarded (.snapshotting _) => holder = .clearing index
  | .guarded (.staging _) | .guarded (.committing _) => holder = .saved index
  | .guarded (.arming _) => holder = .committed index
  | .loadingSnapshot id => holder = .loading index id
  | .recording _ => holder = .recording index
  | _ => True

/-- The thread a holder is about. -/
def owner : Holder → Option Nat
  | .clearing index | .saved index | .committed index
  | .loading index _ | .recording index => some index
  | _ => Option.none

theorem Allows.elsewhere {holder : Holder} {index : Nat}
    {thread : Thread Config} (allowed : holder.Allows index thread)
    (away : holder.owner ≠ some index) (next : Holder) :
    next.Allows index thread := by
  cases thread with
  | guarded progress =>
      cases progress with
      | snapshotting _ | staging _ | committing _ | arming _ =>
          cases allowed
          exact absurd rfl away
      | _ => trivial
  | loadingSnapshot _ | recording _ =>
      cases allowed
      exact absurd rfl away
  | _ => trivial

/-- What the holder may rely on: the snapshot is its own, and is the running
config until the commit and the recorded base of the change after it. -/
def Snapshot (state : State Config) : Holder → Prop
  | .saved id => state.snapshot = some ⟨state.running, some id⟩
  | .committed id | .pending id | .loading _ id =>
      ∃ document, state.snapshot = some ⟨document, some id⟩ ∧
        state.base id = some document
  | _ => True

/-- A guarded request holding the file is where its threads says. -/
def Present (state : State Config) : Holder → Prop
  | .clearing id | .saved id | .committed id =>
      ∃ thread, state.threads[id]? = some thread ∧
        thread.holdsSnapshot = true
  | _ => True

end Holder

structure HeldBy (state : State Config) (holder : Holder) : Prop where
  slot : state.pending = holder.slot
  reverting : state.reverting = holder.reverts
  threads : ∀ index thread, state.threads[index]? = some thread →
    holder.Allows index thread
  present : holder.Present state
  snapshot : holder.Snapshot state

namespace HeldBy

variable {state : State Config} {holder : Holder}

theorem start (starts : Starts state) : HeldBy state .none where
  slot := starts.pending
  reverting := starts.reverting
  threads := by
    intro index thread present
    simp [starts.threads] at present
  present := trivial
  snapshot := trivial

/-- With nothing pending and no request past its own clearing, nobody depends
on the file. -/
theorem eq_none (held : HeldBy state holder)
    (notPending : state.isPending = false)
    (others : ∀ other ∈ state.threads, other.holdsSnapshot = false) :
    holder = .none := by
  rw [State.isPending, held.slot, held.reverting] at notPending
  have present := held.present
  cases holder with
  | none => rfl
  | clearing id | saved id | committed id =>
      obtain ⟨thread, found, holds⟩ := present
      rw [others thread (List.mem_of_getElem? found)] at holds
      exact Bool.noConfusion holds
  | pending id => simp [Holder.slot] at notPending
  | loading index id => simp [Holder.reverts] at notPending
  | recording index => simp [Holder.reverts] at notPending

/-- A step of the holder's own thread, or of any thread while the file is
free. -/
theorem threads_put (held : HeldBy state holder) {next : Holder}
    {index : Nat} {old new : Thread Config}
    (present : state.threads[index]? = some old)
    (own : ∀ other, holder.owner = some other → other = index)
    (allowed : next.Allows index new) :
    ∀ other thread, (state.threads.set index new)[other]? = some thread →
      next.Allows other thread := by
  intro other thread found
  rw [getElem?_set_of_present present] at found
  split at found
  · rename_i same
    cases found
    exact same ▸ allowed
  · rename_i different
    exact (held.threads other thread found).elsewhere
      (fun owned => different (own other owned)) next

/-- A step inside one thread that neither holds the file nor changes what the
holder relies on. -/
theorem put (held : HeldBy state holder)
    {index : Nat} {old new : Thread Config} {after : State Config}
    (present : state.threads[index]? = some old)
    (bystander : old.holdsSnapshot = false)
    (threads : after.threads = state.threads.set index new)
    (allowed : holder.Allows index new)
    (pending : after.pending = state.pending)
    (reverting : after.reverting = state.reverting)
    (snapshot : holder.Snapshot state → holder.Snapshot after) :
    HeldBy after holder where
  slot := pending.trans held.slot
  reverting := reverting.trans held.reverting
  threads := by
    intro other thread found
    rw [threads, getElem?_set_of_present present] at found
    split at found
    · rename_i same
      cases found
      exact same ▸ allowed
    · exact held.threads other thread found
  present := by
    have stays : ∀ id : Nat,
        (∃ thread : Thread Config, state.threads[id]? = some thread ∧
          thread.holdsSnapshot = true) →
        ∃ thread : Thread Config, after.threads[id]? = some thread ∧
          thread.holdsSnapshot = true := by
      rintro id ⟨thread, found, holds⟩
      have different : id ≠ index := by
        intro same
        rw [same, present] at found
        cases found
        rw [bystander] at holds
        exact Bool.noConfusion holds
      refine ⟨thread, ?_, holds⟩
      rw [threads, getElem?_set_of_present present, if_neg different]
      exact found
    have before := held.present
    cases holder <;> first | trivial | exact stays _ before
  snapshot := snapshot held.snapshot

/-- A new request starts at a step no holder speaks of. -/
theorem arrive (held : HeldBy state holder) {thread : Thread Config}
    (allowed : holder.Allows state.threads.length thread) :
    HeldBy { state with threads := state.threads ++ [thread] } holder where
  slot := held.slot
  reverting := held.reverting
  threads := by
    intro index found present
    rw [List.getElem?_append] at present
    split at present
    · exact held.threads index found present
    · rename_i outside
      obtain ⟨bound, rfl⟩ := List.getElem?_eq_some_iff.mp present
      have atEnd : index = state.threads.length := by
        simp at bound
        omega
      subst atEnd
      simpa using allowed
  present := by
    have before := held.present
    cases holder with
    | clearing id | saved id | committed id =>
        obtain ⟨thread, found, holds⟩ := before
        refine ⟨thread, ?_, holds⟩
        rw [List.getElem?_append_left (List.getElem?_eq_some_iff.mp found).1]
        exact found
    | _ => trivial
  snapshot := by
    have before := held.snapshot
    cases holder <;> exact before

/-- A request giving up on its own. -/
theorem release (held : HeldBy state holder)
    {index : Nat} {old : Thread Config} {after : State Config}
    (present : state.threads[index]? = some old)
    (own : holder.owner = some index)
    (threads : after.threads = state.threads.set index .finished)
    (pending : after.pending = none) (reverting : after.reverting = false) :
    HeldBy after .none where
  slot := pending
  reverting := reverting
  threads := by
    rw [threads]
    refine held.threads_put present ?_ trivial
    intro other owned
    exact Option.some.inj (owned.symm.trans own)
  present := trivial
  snapshot := trivial

/-- The holder's own thread goes on holding the file. -/
theorem advance (held : HeldBy state holder) {next : Holder}
    {index : Nat} {old new : Thread Config} {after : State Config}
    (present : state.threads[index]? = some old)
    (own : ∀ other, holder.owner = some other → other = index)
    (threads : after.threads = state.threads.set index new)
    (allowed : next.Allows index new)
    (slot : after.pending = next.slot)
    (reverting : after.reverting = next.reverts)
    (holds : next.owner = none ∨
      next.owner = some index ∧ new.holdsSnapshot = true ∨
      next.reverts = true)
    (snapshot : next.Snapshot after) : HeldBy after next where
  slot := slot
  reverting := reverting
  threads := by
    rw [threads]
    exact held.threads_put present own allowed
  present := by
    have found : after.threads[index]? = some new := by
      rw [threads, getElem?_set_of_present present, if_pos rfl]
    cases next with
    | clearing id | saved id | committed id =>
        rcases holds with free | ⟨owned, holding⟩ | reverts
        · simp [Holder.owner] at free
        · cases owned
          exact ⟨new, found, holding⟩
        · simp [Holder.reverts] at reverts
    | _ => trivial
  snapshot := snapshot

/-- `begin_pending` hands the file over to the pending change. -/
theorem arm {id : RequestId} (held : HeldBy state (.committed id))
    {old : Thread Config} (present : state.threads[id]? = some old)
    (loadFile : Option (Config × RequestId)) :
    HeldBy { state with
      pending := some id
      loadFile := loadFile
      threads := state.threads.set id .finished ++ [.expiring id] }
      (.pending id) := by
  have moved : HeldBy { state.put id .finished with
      pending := some id, loadFile := loadFile } (.pending id) :=
    held.advance present (by simp [Holder.owner]) rfl
      (show Holder.Allows _ id .finished from trivial) rfl held.reverting
      (.inl rfl) held.snapshot
  exact moved.arrive (show Holder.Allows _ _ (.expiring id) from trivial)

theorem guardedStep (held : HeldBy state holder)
    {id : RequestId} {ok : Bool} {progress : Progress Config}
    (present : state.threads[id]? = some (.guarded progress))
    (free : SnapshotFree state (.advance id ok)) :
    ∃ next, HeldBy (Guard.guardedStep state id ok progress) next := by
  rw [SnapshotFree, present] at free
  cases progress with
  | fetching revision =>
      simp only [Guard.guardedStep]
      split <;>
        exact ⟨holder, held.put present rfl rfl trivial rfl rfl (by
          cases holder <;> exact fun before => before)⟩
  | checking prepare =>
      simp only [Guard.guardedStep]
      split <;>
        exact ⟨holder, held.put present rfl rfl trivial rfl rfl (by
          cases holder <;> exact fun before => before)⟩
  | preparing prepare =>
      simp only [Guard.guardedStep]
      split <;>
        exact ⟨holder, held.put present rfl rfl trivial rfl rfl (by
          cases holder <;> exact fun before => before)⟩
  | clearing payload =>
      have unheld := held.eq_none free.1 free.2
      subst unheld
      exact ⟨.clearing id, held.advance present (by simp [Holder.owner])
        rfl (show Holder.Allows _ id (.guarded (.snapshotting payload))
          from rfl) held.slot held.reverting (.inr (.inl ⟨rfl, rfl⟩)) trivial⟩
  | snapshotting payload =>
      have clearing : holder = .clearing id := held.threads id _ present
      subst clearing
      simp only [Guard.guardedStep]
      split
      · exact ⟨.saved id, held.advance present (by simp [Holder.owner])
          rfl (show Holder.Allows _ id (.guarded (.staging payload)) from rfl)
          held.slot held.reverting (.inr (.inl ⟨rfl, rfl⟩)) rfl⟩
      · exact ⟨_, held.release present rfl rfl held.slot held.reverting⟩
  | staging payload =>
      have saved : holder = .saved id := held.threads id _ present
      subst saved
      simp only [Guard.guardedStep]
      split
      · exact ⟨_, held.release present rfl rfl held.slot held.reverting⟩
      · exact ⟨.saved id, held.advance present (by simp [Holder.owner])
          rfl rfl held.slot held.reverting (.inr (.inl ⟨rfl, rfl⟩))
          held.snapshot⟩
      · exact ⟨.saved id, held.advance present (by simp [Holder.owner])
          rfl rfl held.slot held.reverting (.inr (.inl ⟨rfl, rfl⟩))
          held.snapshot⟩
  | committing payload =>
      have saved : holder = .saved id := held.threads id _ present
      subst saved
      have committed : ∀ document : Document Config,
          Holder.Snapshot (state.commitChange id document)
            (.committed id) := by
        intro document
        exact ⟨state.running, held.snapshot, by simp [State.commitChange]⟩
      cases payload with
      | configure edit =>
          simp only [Guard.guardedStep]
          split
          · exact ⟨.committed id, held.advance present
              (by simp [Holder.owner]) rfl rfl held.slot held.reverting
              (.inr (.inl ⟨rfl, rfl⟩)) (committed
                ⟨edit state.running.content, id :: state.running.changes⟩)⟩
          · exact ⟨_, held.release present rfl rfl held.slot held.reverting⟩
      | load text =>
          simp only [Guard.guardedStep]
          split
          · rename_i found writer _
            exact ⟨.committed id, held.advance present
              (by simp [Holder.owner]) rfl rfl held.slot held.reverting
              (.inr (.inl ⟨rfl, rfl⟩)) (committed ⟨found, [writer]⟩)⟩
          · exact ⟨_, held.release present rfl rfl held.slot held.reverting⟩
  | arming payload =>
      have committed : holder = .committed id := held.threads id _ present
      subst committed
      exact ⟨_, held.arm present _⟩

theorem detachStep (held : HeldBy state holder)
    {index : Nat} {id : RequestId} {old : Thread Config}
    (present : state.threads[index]? = some old)
    (bystander : old.holdsSnapshot = false) :
    ∃ next, HeldBy (Guard.detachStep state index id) next := by
  unfold Guard.detachStep
  split
  · rename_i inSlot
    rw [held.slot] at inSlot
    cases holder <;> simp only [Holder.slot, reduceCtorEq] at inSlot
    cases inSlot
    exact ⟨.loading index id, held.advance present (by simp [Holder.owner])
      rfl rfl rfl rfl (.inr (.inr rfl)) held.snapshot⟩
  · exact ⟨holder, held.put present bystander rfl trivial rfl rfl (by
      cases holder <;> exact fun before => before)⟩

/-- Every step that starts no snapshot out of turn keeps some holder. -/
theorem step {action : Action Config} {after : State Config}
    (held : HeldBy state holder) (free : SnapshotFree state action)
    (stepped : next state action = some after) :
    ∃ holder, HeldBy after holder := by
  cases action with
  | arrive thread =>
      simp only [next, Option.ite_none_right_eq_some,
        Option.some.injEq] at stepped
      obtain ⟨arrives, rfl⟩ := stepped
      refine ⟨holder, held.arrive ?_⟩
      cases thread with
      | guarded progress => cases progress <;> trivial
      | _ => trivial
  | advance index ok =>
      obtain ⟨thread, present, moved⟩ := Option.bind_eq_some_iff.mp stepped
      have unchanged : ∀ {after : State Config},
          after.snapshot = state.snapshot → after.running = state.running →
          after.base = state.base →
          holder.Snapshot state → holder.Snapshot after := by
        intro after snapshot running base before
        cases holder <;> simp only [Holder.Snapshot] at before ⊢ <;>
          first | trivial | simpa only [snapshot, running, base] using before
      cases thread with
      | guarded progress =>
          cases moved
          exact held.guardedStep present free
      | confirming id =>
          simp only [threadStep] at moved
          split at moved <;> cases moved
          · rename_i inSlot
            rw [held.slot] at inSlot
            cases holder <;> simp only [Holder.slot, reduceCtorEq] at inSlot
            cases inSlot
            exact ⟨.none, held.advance present (by simp [Holder.owner])
              rfl (show Holder.Allows _ index (.savingBoot id) from trivial)
              rfl held.reverting (.inl rfl) trivial⟩
          · exact ⟨holder, held.put present rfl rfl trivial rfl rfl
              (unchanged rfl rfl rfl)⟩
      | savingBoot id =>
          simp only [threadStep] at moved
          split at moved <;> cases moved <;>
            exact ⟨holder, held.put present rfl rfl trivial rfl rfl
              (unchanged rfl rfl rfl)⟩
      | reverting id =>
          cases moved
          exact held.detachStep present rfl
      | expiring id =>
          cases moved
          exact held.detachStep present rfl
      | loadingSnapshot id =>
          have loading : holder = .loading index id :=
            held.threads index _ present
          subst loading
          simp only [threadStep] at moved
          split at moved <;> cases moved <;>
            exact ⟨.recording index, held.advance present
              (by simp [Holder.owner]) rfl rfl held.slot held.reverting
              (.inr (.inr rfl)) trivial⟩
      | recording loaded =>
          have recording : holder = .recording index :=
            held.threads index _ present
          subst recording
          cases moved
          exact ⟨_, held.release present rfl rfl held.slot rfl⟩
      | proxyChecking =>
          simp only [threadStep] at moved
          split at moved <;> cases moved <;>
            exact ⟨holder, held.put present rfl rfl trivial rfl rfl
              (unchanged rfl rfl rfl)⟩
      | proxyForwarding =>
          simp only [threadStep] at moved
          split at moved <;> cases moved <;>
            exact ⟨holder, held.put present rfl rfl trivial rfl rfl
              (unchanged rfl rfl rfl)⟩
      | finished => cases moved

end HeldBy

/-- The invariant of these runs. -/
def Held (state : State Config) : Prop := ∃ holder, HeldBy state holder

/-- In every run where snapshots are taken in turn, reverts restore exactly what
their change was committed on top of. -/
theorem restoresBase_of_snapshotFree {state : State Config}
    (reached : (guard Config).ReachableUnder SnapshotFree state) :
    RestoresBase state := by
  have held : Held state := by
    refine reached.invariant (fun _ starts => ⟨.none, .start starts⟩) ?_
    rintro before action after ⟨holder, held⟩ free stepped
    exact held.step free stepped
  obtain ⟨holder, held⟩ := held
  intro index id present
  have loading : holder = .loading index id := held.threads index _ present
  subst loading
  obtain ⟨document, found, base⟩ := held.snapshot
  refine ⟨⟨_, found, rfl⟩, ?_⟩
  intro after stepped
  simp only [next, present, Option.bind_some, threadStep, found,
    Option.some.injEq] at stepped
  subst stepped
  exact base

/-- One `apply`, reverted while its change is pending. -/
def revertedTrace : List (Action Nat) :=
  .arrive (.guarded (.checking (applyPrepare (· + 1) fun _ => false))) ::
    List.replicate 7 (.advance 0 true) ++
    [.arrive (.reverting 0), .advance 2 true]

theorem revertedTrace_restoresBase :
    ∃ state, (guard Nat).run (State.start 0) revertedTrace = some state ∧
      state.threads[2]? = some (.loadingSnapshot 0) ∧
      RestoresBase state := by
  refine ⟨_, rfl, rfl, restoresBase_of_snapshotFree
    (TransitionSystem.ReachableUnder.run (.initial (starts_start 0))
      revertedTrace (by decide) rfl)⟩

/-- Two `apply` requests that both find the slot empty; the second overwrites
the snapshot once the first is committed, and the first is then reverted. -/
def overlappingTrace : List (Action Nat) :=
  [.arrive (.guarded (.checking (applyPrepare (· + 1) fun _ => false))),
    .arrive (.guarded (.checking (applyPrepare (· + 1) fun _ => false))),
    .advance 0 true, .advance 1 true, .advance 0 true, .advance 1 true,
    .advance 0 true, .advance 0 true, .advance 0 true, .advance 0 true,
    .advance 1 true, .advance 1 true, .advance 0 true,
    .arrive (.reverting 0), .advance 3 true]

/-- A revert can load a snapshot that another request took after the change. -/
theorem revert_keeps_own_change :
    ∃ state, (guard Nat).Reachable state ∧ ¬ RestoresBase state := by
  have replayed : ∃ state,
      (guard Nat).run (State.start 0) overlappingTrace = some state ∧
        state.threads[3]? = some (.loadingSnapshot 0) ∧
        state.snapshot = some ⟨⟨1, [0]⟩, some 1⟩ ∧
        state.base 0 = some ⟨0, []⟩ :=
    ⟨_, rfl, rfl, rfl, rfl⟩
  obtain ⟨state, replay, loading, snapshot, base⟩ := replayed
  refine ⟨state, TransitionSystem.reachable_of_run (starts_start 0)
    overlappingTrace replay, ?_⟩
  intro restores
  have restored := (restores 3 0 loading).2
    ((state.commit ⟨1, [0]⟩).put 3 (.recording true))
    (by simp [next, loading, threadStep, snapshot])
  rw [base] at restored
  cases restored

end QuartzFire.Guard
