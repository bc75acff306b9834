import Mathlib.Algebra.BigOperators.Group.List.Basic
import QuartzFire.Devices.Accountant

/-!
# One key, connection after connection

A key of conntrack is used by one connection after the other.  The accountant
tells the next connection from the one before by a counter that is smaller, and
then credits from zero in the directions in which it is.
-/

namespace QuartzFire.Devices

attribute [ext] Counted

instance : AddCommMonoid Counted where
  add_assoc _ _ _ := Counted.ext (Nat.add_assoc _ _ _) (Nat.add_assoc _ _ _)
  zero_add _ := Counted.ext (Nat.zero_add _) (Nat.zero_add _)
  add_zero _ := Counted.ext (Nat.add_zero _) (Nat.add_zero _)
  add_comm _ _ := Counted.ext (Nat.add_comm _ _) (Nat.add_comm _ _)
  nsmul := nsmulRec

/-- An event at one key. -/
inductive KeyEvent (Key : Type) where
  /-- The first observation of a connection. -/
  | begun (counters : Counted) (remove : Bool)
  /-- A further observation of the connection there is. -/
  | grown (counters : Counted) (remove : Bool)
  /-- A snapshot without the key. -/
  | forgotten (live : List Key)

namespace KeyEvent

variable {Key : Type}

/-- What the slot of the key holds afterwards. -/
def slot : KeyEvent Key → Option Counted
  | begun counters remove | grown counters remove =>
      if remove then none else some counters
  | forgotten _ => none

/-- Connections begun. -/
def begins (events : List (KeyEvent Key)) : Nat :=
  events.countP fun
    | begun _ _ => true
    | _ => false

/-- The connections' last observed counters, summed up; `current` is what was
observed before of the connection there is. -/
def lastObserved (current : Counted) : List (KeyEvent Key) → Counted
  | [] => current
  | begun counters _ :: events => current + lastObserved counters events
  | grown counters _ :: events => lastObserved counters events
  | forgotten _ :: events => lastObserved current events

/-- The events are those of successive connections: a connection's counters do
not decrease, and at a reuse a counter is below the one observed last. -/
def Succession (key : Key) : Option Counted → List (KeyEvent Key) → Prop
  | _, [] => True
  | held, begun counters remove :: events =>
      (∀ prev ∈ held, counters.orig < prev.orig ∨ counters.reply < prev.reply) ∧
        Succession key (slot (begun counters remove : KeyEvent Key)) events
  | held, grown counters remove :: events =>
      (∃ prev ∈ held, prev ≤ counters) ∧
        Succession key (slot (grown counters remove : KeyEvent Key)) events
  | _, forgotten live :: events => key ∉ live ∧ Succession key none events

/-- At every reuse each counter is below the one observed last, or that was
zero. -/
def BothRestart : Option Counted → List (KeyEvent Key) → Prop
  | _, [] => True
  | held, begun counters remove :: events =>
      (∀ prev ∈ held, (counters.orig < prev.orig ∨ prev.orig = 0) ∧
        (counters.reply < prev.reply ∨ prev.reply = 0)) ∧
      BothRestart (slot (begun counters remove : KeyEvent Key)) events
  | _, grown counters remove :: events =>
      BothRestart (slot (grown counters remove : KeyEvent Key)) events
  | _, forgotten _ :: events => BothRestart none events

end KeyEvent

namespace Accountant

variable {Key : Type}

/-- What is held back of a first observation: a base that did not restart. -/
def heldBack (held : Option Counted) (counters : Counted) : Counted :=
  let prev := held.getD 0
  ⟨if counters.orig < prev.orig then 0 else prev.orig,
    if counters.reply < prev.reply then 0 else prev.reply⟩

theorem growth_heldBack (held : Option Counted) (flow : Flow Key) :
    (growth held flow).bytes + heldBack held flow.counters = flow.counters := by
  have restarts (counter base : Nat) :
      counter - (if counter < base then 0 else base) +
        (if counter < base then 0 else base) = counter := by
    split
    · rfl
    · omega
  exact Counted.ext (restarts _ _) (restarts _ _)

theorem heldBack_eq_zero_iff {held : Option Counted} {counters : Counted} :
    heldBack held counters = 0 ↔
      ∀ prev ∈ held, (counters.orig < prev.orig ∨ prev.orig = 0) ∧
        (counters.reply < prev.reply ∨ prev.reply = 0) := by
  have restarted (counter base : Nat) :
      (if counter < base then 0 else base) = 0 ↔ counter < base ∨ base = 0 := by
    split
    · simp [*]
    · simp [*]
  cases held with
  | none =>
      constructor
      · rintro _ prev ⟨⟩
      · intro _
        exact Counted.ext ((restarted counters.orig 0).mpr (.inr rfl))
          ((restarted counters.reply 0).mpr (.inr rfl))
  | some prev =>
      rw [Counted.ext_iff]
      constructor
      · rintro ⟨orig, reply⟩ _ ⟨⟩
        exact ⟨(restarted _ _).mp orig, (restarted _ _).mp reply⟩
      · intro both
        exact ⟨(restarted _ _).mpr (both prev rfl).1,
          (restarted _ _).mpr (both prev rfl).2⟩

theorem growth_begun {held : Option Counted} {key : Key} {counters : Counted}
    (restarts : ∀ prev ∈ held,
      counters.orig < prev.orig ∨ counters.reply < prev.reply) :
    (growth held ⟨key, counters.orig, counters.reply⟩).newFlow = true := by
  cases held with
  | none => rfl
  | some prev =>
      have below := restarts prev rfl
      simpa [growth] using below

variable [DecidableEq Key]

/-- What the event makes the accountant do, and what it credits. -/
def handle (acct : Accountant Key) (key : Key) :
    KeyEvent Key → Option RawDelta × Accountant Key
  | .begun counters remove | .grown counters remove =>
      acct.observeRaw ⟨key, counters.orig, counters.reply⟩ remove
  | .forgotten live => (none, acct.retainKeys live)

/-- All deltas of a run. -/
def deltas (acct : Accountant Key) (key : Key) :
    List (KeyEvent Key) → List RawDelta
  | [] => []
  | event :: events =>
      let (delta, acct) := acct.handle key event
      delta.toList ++ acct.deltas key events

/-- Bytes credited in a run. -/
def credited (acct : Accountant Key) (key : Key)
    (events : List (KeyEvent Key)) : Counted :=
  ((acct.deltas key events).map RawDelta.bytes).sum

/-- Flags `new_flow` of a run. -/
def newFlows (acct : Accountant Key) (key : Key)
    (events : List (KeyEvent Key)) : Nat :=
  (acct.deltas key events).countP RawDelta.newFlow

/-! ## One event of a primed accountant -/

section Primed

variable {acct : Accountant Key} (flow : Flow Key) (remove : Bool)

theorem observeRaw_bytes (primed : acct.primed = true) :
    ((acct.observeRaw flow remove).1.toList.map RawDelta.bytes).sum =
      (growth (acct.counted flow.key) flow).bytes := by
  simp only [observeRaw, primed, Bool.not_true, Bool.false_eq_true, if_false]
  split
  · rename_i silent
    simp only [Bool.and_eq_true, beq_iff_eq] at silent
    exact Counted.ext silent.1.1.symm silent.1.2.symm
  · simp

theorem observeRaw_newFlow (primed : acct.primed = true) :
    (acct.observeRaw flow remove).1.toList.countP RawDelta.newFlow =
      (growth (acct.counted flow.key) flow).newFlow.toNat := by
  simp only [observeRaw, primed, Bool.not_true, Bool.false_eq_true, if_false]
  split
  · rename_i silent
    simp only [Bool.and_eq_true, Bool.not_eq_true'] at silent
    rw [silent.2]
    rfl
  · cases begins : (growth (acct.counted flow.key) flow).newFlow with
    | true => simp [begins]
    | false => simp [begins]

end Primed

/-! ## One event -/

theorem handle_primed {acct : Accountant Key} {key : Key}
    (event : KeyEvent Key) :
    (acct.handle key event).2.primed = acct.primed := by
  cases event with
  | begun counters remove => exact observeRaw_primed acct _ remove
  | grown counters remove => exact observeRaw_primed acct _ remove
  | forgotten live => rfl

theorem observeRaw_slot (acct : Accountant Key) (key : Key)
    (counters : Counted) (remove : Bool) :
    (acct.observeRaw ⟨key, counters.orig, counters.reply⟩ remove).2.counted
      key = if remove then none else some counters := by
  rw [observeRaw_counted, Function.update_self]
  rfl

theorem deltas_cons (acct : Accountant Key) (key : Key) (event : KeyEvent Key)
    (events : List (KeyEvent Key)) :
    acct.deltas key (event :: events) =
      (acct.handle key event).1.toList ++
        (acct.handle key event).2.deltas key events := rfl

theorem credited_cons (acct : Accountant Key) (key : Key)
    (event : KeyEvent Key) (events : List (KeyEvent Key)) :
    acct.credited key (event :: events) =
      ((acct.handle key event).1.toList.map RawDelta.bytes).sum +
        (acct.handle key event).2.credited key events := by
  rw [credited, deltas_cons, List.map_append, List.sum_append]
  rfl

theorem newFlows_cons (acct : Accountant Key) (key : Key)
    (event : KeyEvent Key) (events : List (KeyEvent Key)) :
    acct.newFlows key (event :: events) =
      (acct.handle key event).1.toList.countP RawDelta.newFlow +
        (acct.handle key event).2.newFlows key events := by
  rw [newFlows, deltas_cons, List.countP_append]
  rfl

/-! ## A whole run -/

/-- What is held back in a run. -/
def withheld : Option Counted → List (KeyEvent Key) → Counted
  | _, [] => 0
  | held, .begun counters remove :: events =>
      heldBack held counters +
        withheld (KeyEvent.begun counters remove : KeyEvent Key).slot events
  | _, .grown counters remove :: events =>
      withheld (KeyEvent.grown counters remove : KeyEvent Key).slot events
  | _, .forgotten _ :: events => withheld none events

theorem handle_slot (acct : Accountant Key) (key : Key)
    (event : KeyEvent Key)
    (absent : ∀ live, event = .forgotten live → key ∉ live) :
    (acct.handle key event).2.counted key = event.slot := by
  cases event with
  | begun counters remove => exact observeRaw_slot acct key counters remove
  | grown counters remove => exact observeRaw_slot acct key counters remove
  | forgotten live => exact if_neg (absent live rfl)

theorem handle_begun {acct : Accountant Key} (primed : acct.primed = true)
    (key : Key) (counters : Counted) (remove : Bool) :
    ((acct.handle key (.begun counters remove)).1.toList.map
        RawDelta.bytes).sum + heldBack (acct.counted key) counters =
      counters := by
  rw [handle, observeRaw_bytes _ remove primed]
  exact growth_heldBack _ ⟨key, counters.orig, counters.reply⟩

theorem handle_grown {acct : Accountant Key} (primed : acct.primed = true)
    {key : Key} {prev counters : Counted} (slot : prev ∈ acct.counted key)
    (grown : prev ≤ counters) (remove : Bool) :
    ((acct.handle key (.grown counters remove)).1.toList.map
        RawDelta.bytes).sum + prev = counters := by
  rw [handle, observeRaw_bytes _ remove primed, slot, add_comm]
  exact (@growth_tracked Key prev ⟨key, counters.orig, counters.reply⟩
    grown).1

/-- After an event the slot is what was observed last, if there is one. -/
theorem slot_observed {counters prev : Counted} {remove : Bool}
    (slot : prev ∈ if remove then none else some counters) :
    prev = counters := by
  cases remove with
  | true => cases slot
  | false =>
      cases slot
      rfl

/-- Nothing is lost but what is held back at the reuses. -/
theorem credited_add_withheld (key : Key) (events : List (KeyEvent Key)) :
    ∀ (acct : Accountant Key) (current : Counted),
      acct.primed = true →
      (∀ prev ∈ acct.counted key, prev = current) →
      KeyEvent.Succession key (acct.counted key) events →
      acct.credited key events + withheld (acct.counted key) events +
        current = KeyEvent.lastObserved current events := by
  induction events with
  | nil =>
      intro acct current _ _ _
      exact zero_add current
  | cons event events ih =>
      intro acct current primed slot succession
      rw [credited_cons]
      have later (current : Counted) := ih (acct.handle key event).2 current
        ((handle_primed event).trans primed)
      cases event with
      | begun counters remove =>
          rw [handle_slot _ _ _ (by rintro _ ⟨⟩)] at later
          have rest := later counters (fun _ => slot_observed) succession.2
          rw [KeyEvent.lastObserved, ← rest, withheld, add_add_add_comm,
            handle_begun primed]
          ac_rfl
      | grown counters remove =>
          obtain ⟨⟨prev, held, grown⟩, succession⟩ := succession
          rw [handle_slot _ _ _ (by rintro _ ⟨⟩)] at later
          have rest := later counters (fun _ => slot_observed) succession
          have regroup (gain credited held prev : Counted) :
              gain + credited + held + prev = credited + held + (gain + prev) := by
            ac_rfl
          rw [KeyEvent.lastObserved, withheld, ← slot prev held, regroup,
            handle_grown primed held grown, rest]
      | forgotten live =>
          have gone : (acct.handle key (.forgotten live)).2.counted key = none :=
            if_neg succession.1
          rw [gone] at later
          have rest := later current (by rintro _ ⟨⟩) succession.2
          rw [KeyEvent.lastObserved, ← rest, withheld]
          exact congrArg (· + withheld none events + current) (zero_add _)

theorem newFlows_eq_begins (key : Key) (events : List (KeyEvent Key)) :
    ∀ acct : Accountant Key, acct.primed = true →
      KeyEvent.Succession key (acct.counted key) events →
      acct.newFlows key events = KeyEvent.begins events := by
  induction events with
  | nil =>
      intro acct _ _
      rfl
  | cons event events ih =>
      intro acct primed succession
      rw [newFlows_cons]
      have later := ih (acct.handle key event).2
        ((handle_primed event).trans primed)
      cases event with
      | begun counters remove =>
          rw [handle_slot _ _ _ (by rintro _ ⟨⟩)] at later
          rw [later succession.2, handle, observeRaw_newFlow _ remove primed,
            growth_begun succession.1, KeyEvent.begins, KeyEvent.begins,
            List.countP_cons, Nat.add_comm]
          rfl
      | grown counters remove =>
          obtain ⟨⟨prev, held, grown⟩, succession⟩ := succession
          rw [handle_slot _ _ _ (by rintro _ ⟨⟩)] at later
          rw [later succession, handle, observeRaw_newFlow _ remove primed, held,
            (@growth_tracked Key prev ⟨key, counters.orig, counters.reply⟩
              grown).2, KeyEvent.begins, KeyEvent.begins, List.countP_cons,
            Nat.add_comm]
          rfl
      | forgotten live =>
          have gone : (acct.handle key (.forgotten live)).2.counted key = none :=
            if_neg succession.1
          rw [gone] at later
          rw [later succession.2, KeyEvent.begins, KeyEvent.begins,
            List.countP_cons, Nat.add_comm]
          rfl

omit [DecidableEq Key] in
theorem withheld_eq_zero_iff (events : List (KeyEvent Key)) :
    ∀ held : Option Counted,
      withheld held events = 0 ↔ KeyEvent.BothRestart held events := by
  induction events with
  | nil =>
      intro held
      simp [withheld, KeyEvent.BothRestart]
  | cons event events ih =>
      intro held
      cases event with
      | begun counters remove =>
          have both (left right : Counted) :
              left + right = 0 ↔ left = 0 ∧ right = 0 := by
            simp only [Counted.ext_iff, Counted.add_orig, Counted.add_reply,
              Counted.zero_orig, Counted.zero_reply]
            omega
          rw [withheld, both, heldBack_eq_zero_iff, ih, KeyEvent.BothRestart]
      | grown counters remove => exact ih _
      | forgotten live => exact ih _

/-- The accounting of one key is right: bytes in each direction and
connections. -/
def Exact (acct : Accountant Key) (key : Key) (events : List (KeyEvent Key)) :
    Prop :=
  let baseline := (acct.counted key).getD 0
  acct.credited key events + baseline = KeyEvent.lastObserved baseline events ∧
    acct.newFlows key events = KeyEvent.begins events

theorem exact_iff (acct : Accountant Key) (key : Key)
    (events : List (KeyEvent Key)) (primed : acct.primed = true)
    (succession : KeyEvent.Succession key (acct.counted key) events) :
    acct.Exact key events ↔
      KeyEvent.BothRestart (acct.counted key) events := by
  have slot : ∀ prev ∈ acct.counted key, prev = (acct.counted key).getD 0 := by
    intro prev held
    rw [held]
    rfl
  have sum := credited_add_withheld key events acct _ primed slot succession
  rw [← withheld_eq_zero_iff, Exact, ← sum,
    newFlows_eq_begins key events acct primed succession]
  simp only [and_true, Counted.ext_iff, Counted.add_orig, Counted.add_reply,
    Counted.zero_orig, Counted.zero_reply]
  omega

/-- An accountant that has nothing counted. -/
def started : Accountant String := (new : Accountant String).markPrimed

theorem exact_of_reuse :
    started.Exact "key" [.begun ⟨9000, 100⟩ false, .begun ⟨200, 5⟩ false] :=
  (exact_iff started "key" [.begun ⟨9000, 100⟩ false, .begun ⟨200, 5⟩ false]
    rfl ⟨by rintro _ ⟨⟩, by rintro _ ⟨⟩; decide, trivial⟩).mpr
      ⟨by rintro _ ⟨⟩, by rintro _ ⟨⟩; decide, trivial⟩

/-- At a reuse by a connection that has received more than the one before, only
the growth is credited. -/
theorem larger_reply_held_back :
    ¬ ∀ (acct : Accountant String) (key : String)
        (events : List (KeyEvent String)), acct.primed = true →
      KeyEvent.Succession key (acct.counted key) events →
      acct.Exact key events := by
  intro always
  have exact_ := always started "key"
    [.begun ⟨9000, 100⟩ false, .begun ⟨200, 300⟩ false] rfl
    ⟨by rintro _ ⟨⟩, by rintro _ ⟨⟩; decide, trivial⟩
  exact absurd exact_.1 (by decide)

end Accountant

end QuartzFire.Devices
