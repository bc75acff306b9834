import Mathlib.Algebra.BigOperators.Group.List.Basic
import Mathlib.Algebra.GroupWithZero.Nat
import Mathlib.Data.List.Perm.Basic
import QuartzFire.Guard.Resolution

/-!
# The guard is free again

A pending change has its timer and a flagged revert its thread.  Left to those
the slot empties and the flag falls, whatever VyOS answers and in whatever order
they run, and nothing is saved to the boot config meanwhile.
-/

namespace QuartzFire.Guard

variable {Config : Type} {state after last : State Config} {index : Nat}
  {old new : Thread Config}

/-- The most steps a timer or a revert has left. -/
def Thread.owed : Thread Config → Nat
  | .expiring _ => 3
  | .loadingSnapshot _ => 2
  | .recording _ => 1
  | _ => 0

def State.owed (state : State Config) : Nat :=
  (state.threads.map Thread.owed).sum

/-- A timer fires, or a revert under way goes on. -/
def OfTimer (state : State Config) : Action Config → Prop
  | .arrive _ => False
  | .advance index _ => ∃ thread ∈ state.threads[index]?, thread.owed ≠ 0

/-- One thread moves on: it leaves a change in the slot to its timer and a
flagged revert to its own thread, and owes less than it did. -/
structure Moves (state after : State Config) (index : Nat)
    (old new : Thread Config) : Prop where
  threads : after.threads = state.threads.set index new
  slot : ∀ id, after.pending = some id →
    state.pending = some id ∧ old ≠ .expiring id
  flag : after.reverting = true →
    new.reverts = true ∨ state.reverting = true ∧ old.reverts = false
  timed : old.owed ≠ 0 → new.owed < old.owed ∧ after.boot = state.boot

theorem threadStep_moves {ok : Bool}
    (notArming : ∀ payload, old ≠ .guarded (.arming payload))
    (stepped : threadStep state index ok old = some after) :
    ∃ new, Moves state after index old new := by
  cases old with
  | guarded progress =>
      cases stepped
      obtain ⟨new, threads, -, pending, reverting⟩ :=
        guardedStep_apart state index ok fun payload same =>
          notArming payload (same ▸ rfl)
      exact ⟨new, threads, fun id slot => ⟨pending ▸ slot, by rintro ⟨⟩⟩,
        fun flag => .inr ⟨reverting ▸ flag, rfl⟩, fun owes => absurd rfl owes⟩
  | reverting id =>
      cases stepped
      unfold detachStep
      split
      · exact ⟨.loadingSnapshot id, rfl, by simp [State.put],
          fun _ => .inl rfl, fun owes => absurd rfl owes⟩
      · exact ⟨.finished, rfl, fun _ slot => ⟨slot, by rintro ⟨⟩⟩,
          fun flag => .inr ⟨flag, rfl⟩, fun owes => absurd rfl owes⟩
  | expiring id =>
      cases stepped
      unfold detachStep
      split
      · exact ⟨.loadingSnapshot id, rfl, by simp [State.put],
          fun _ => .inl rfl, fun _ => ⟨Nat.lt_succ_self 2, rfl⟩⟩
      · -- The slot holds another change, which has a timer of its own.
        rename_i elsewhere
        refine ⟨.finished, rfl, fun other slot => ⟨slot, ?_⟩,
          fun flag => .inr ⟨flag, rfl⟩, fun _ => ⟨Nat.zero_lt_succ 2, rfl⟩⟩
        rintro ⟨⟩
        exact elsewhere slot
  | loadingSnapshot id =>
      simp only [threadStep] at stepped
      split at stepped <;> cases stepped <;>
        exact ⟨_, rfl, fun _ slot => ⟨slot, by rintro ⟨⟩⟩, fun _ => .inl rfl,
          fun _ => ⟨Nat.lt_succ_self 1, rfl⟩⟩
  | recording loaded =>
      cases stepped
      exact ⟨.finished, rfl, fun _ slot => ⟨slot, by rintro ⟨⟩⟩,
        by simp [State.put], fun _ => ⟨Nat.lt_succ_self 0, rfl⟩⟩
  | finished => cases stepped
  | _ =>
      simp only [threadStep] at stepped
      split at stepped <;> cases stepped <;>
        exact ⟨_, rfl, by simp [State.put], fun flag => .inr ⟨flag, rfl⟩,
          fun owes => absurd rfl owes⟩

/-- Only the thread itself changes. -/
theorem others {threads : List (Thread Config)}
    (present : threads[index]? = some old) (new : Thread Config) :
    ∃ rest, threads.Perm (old :: rest) ∧
      (threads.set index new).Perm (new :: rest) := by
  obtain ⟨bound, rfl⟩ := List.getElem?_eq_some_iff.mp present
  exact ⟨_, (List.getElem_cons_eraseIdx_perm bound).symm,
    List.set_perm_cons_eraseIdx bound new⟩

/-- The change in the slot has a timer that has not fired, and a flagged revert
a thread that ends it. -/
structure Attended (state : State Config) : Prop where
  timer : ∀ id, state.pending = some id → .expiring id ∈ state.threads
  revert : state.reverting = true →
    ∃ thread ∈ state.threads, thread.reverts = true

namespace Attended

theorem move (attended : Attended state)
    (present : state.threads[index]? = some old)
    (moves : Moves state after index old new) : Attended after := by
  obtain ⟨rest, before, next⟩ := others present new
  have stays : ∀ thread ∈ state.threads, thread ≠ old →
      thread ∈ after.threads := by
    intro thread member other
    rw [moves.threads, next.mem_iff]
    exact List.mem_cons_of_mem _
      ((List.mem_cons.mp (before.mem_iff.mp member)).resolve_left other)
  constructor
  · intro id slot
    obtain ⟨held, other⟩ := moves.slot id slot
    exact stays _ (attended.timer id held) (Ne.symm other)
  · intro flag
    rcases moves.flag flag with reverts | ⟨flagged, idle⟩
    · exact ⟨new, by simp [moves.threads, next.mem_iff], reverts⟩
    · obtain ⟨thread, member, reverts⟩ := attended.revert flagged
      refine ⟨thread, stays thread member ?_, reverts⟩
      rintro rfl
      rw [idle] at reverts
      cases reverts

theorem append (attended : Attended state) (thread : Thread Config) :
    Attended { state with threads := state.threads ++ [thread] } :=
  ⟨fun id slot => List.mem_append_left _ (attended.timer id slot),
    fun flag => (attended.revert flag).imp fun _ reverter =>
      ⟨List.mem_append_left _ reverter.1, reverter.2⟩⟩

theorem step (attended : Attended state) {action : Action Config}
    (stepped : next state action = some after) : Attended after := by
  cases action with
  | arrive thread =>
      rw [next] at stepped
      split at stepped <;> cases stepped
      exact attended.append thread
  | advance index ok =>
      obtain ⟨thread, present, moved⟩ := Option.bind_eq_some_iff.mp stepped
      by_cases arming : ∃ payload, thread = .guarded (.arming payload)
      · obtain ⟨payload, rfl⟩ := arming
        cases moved
        have settled : Attended (state.put index .finished) :=
          attended.move present ⟨rfl, fun _ slot => ⟨slot, by rintro ⟨⟩⟩,
            fun flag => .inr ⟨flag, rfl⟩, fun owes => absurd rfl owes⟩
        refine ⟨?_, (settled.append (.expiring index)).revert⟩
        rintro id ⟨⟩
        exact List.mem_append_right _ (List.mem_singleton.mpr rfl)
      · obtain ⟨new, moves⟩ := threadStep_moves
          (fun payload same => arming ⟨payload, same⟩) moved
        exact attended.move present moves

theorem of_reachable (reached : (guard Config).Reachable state) :
    Attended state := by
  refine reached.invariant ?_ fun _ _ _ attended _ stepped =>
    attended.step stepped
  intro state starts
  exact ⟨by simp [starts.pending], by simp [starts.reverting]⟩

/-- While the guard is busy, a timer or a revert has steps left. -/
theorem owes (attended : Attended state) (busy : state.isPending = true) :
    ∃ thread ∈ state.threads, thread.owed ≠ 0 := by
  rw [State.isPending, Bool.or_eq_true, Option.isSome_iff_exists] at busy
  rcases busy with ⟨id, slot⟩ | flag
  · exact ⟨_, attended.timer id slot, Nat.succ_ne_zero 2⟩
  · obtain ⟨thread, member, reverts⟩ := attended.revert flag
    refine ⟨thread, member, fun none => ?_⟩
    cases thread <;> first | cases none; done | cases reverts

end Attended

/-- The timers and reverts bring the guard from the state to the last: what is
owed bounds their steps, the boot config is as before, and as long as the guard
is busy one of them can step on, however its VyOS call ends. -/
structure Releases (state : State Config) (schedule : List (Action Config))
    (last : State Config) : Prop where
  bounded : schedule.length + last.owed ≤ state.owed
  boot : last.boot = state.boot
  goes_on : last.isPending = true → ∃ index, ∀ ok,
    OfTimer last (.advance index ok) ∧
      (next last (.advance index ok)).isSome = true

/-- From every state of every run the timers and the reverts under way alone
free the guard. -/
theorem timers_release (reached : (guard Config).Reachable state)
    (schedule : List (Action Config))
    (timed : (guard Config).AdmittedAlong OfTimer state schedule)
    (replay : (guard Config).run state schedule = some last) :
    Releases state schedule last := by
  induction schedule generalizing state with
  | nil =>
      cases replay
      refine ⟨by simp, rfl, fun busy => ?_⟩
      obtain ⟨thread, member, owes⟩ :=
        (Attended.of_reachable reached).owes busy
      obtain ⟨index, present⟩ := List.getElem?_of_mem member
      refine ⟨index, fun ok => ⟨⟨thread, present, owes⟩, ?_⟩⟩
      rw [next, present, Option.bind_some]
      cases thread with
      | loadingSnapshot id =>
          simp only [threadStep]
          split <;> rfl
      | expiring | recording => rfl
      | _ => exact absurd rfl owes
  | cons action schedule ih =>
      obtain ⟨middle, stepped, rest⟩ := Option.bind_eq_some_iff.mp replay
      have later := ih (reached.step trivial stepped) (timed.2 middle stepped)
        rest
      cases action with
      | arrive => exact timed.1.elim
      | advance index ok =>
          obtain ⟨thread, present, owes⟩ := timed.1
          obtain ⟨found, same, moved⟩ := Option.bind_eq_some_iff.mp stepped
          cases present.symm.trans same
          obtain ⟨new, moves⟩ := threadStep_moves
            (by rintro payload rfl; exact owes rfl) moved
          obtain ⟨less, boot⟩ := moves.timed owes
          refine ⟨?_, later.boot.trans boot, later.goes_on⟩
          obtain ⟨rest, before, next⟩ := others present new
          have bounded := later.bounded
          unfold State.owed at bounded ⊢
          rw [moves.threads, (next.map _).sum_eq] at bounded
          rw [(before.map _).sum_eq]
          simp only [List.map_cons, List.sum_cons, List.length_cons] at bounded ⊢
          omega

/-- An `apply` nobody confirms: its timer reverts it. -/
theorem unconfirmed_released :
    ∃ state last : State Nat, state.isPending = true ∧
      last.isPending = false ∧
      Releases state (List.replicate 3 (.advance 1 true)) last :=
  ⟨_, _, rfl, rfl, timers_release
    (TransitionSystem.reachable_of_run (starts_start 0)
      (.arrive applyOne :: List.replicate 7 (.advance 0 true)) rfl) _
    ⟨⟨_, rfl, Nat.succ_ne_zero 2⟩, by
      rintro _ ⟨⟩
      refine ⟨⟨_, rfl, Nat.succ_ne_zero 1⟩, ?_⟩
      rintro _ ⟨⟩
      exact ⟨⟨_, rfl, Nat.succ_ne_zero 0⟩, fun _ _ => trivial⟩⟩ rfl⟩

end QuartzFire.Guard
