import Mathlib.Logic.Function.Basic
import Mathlib.Data.List.Nodup
import Mathlib.Order.Basic

/-!
# The conntrack accountant

Byte counters of one conntrack entry arrive in observations; the accountant
remembers what it credited last under the entry's key and credits the growth.
-/

namespace QuartzFire.Devices

/-- Bytes per direction of a flow. -/
structure Counted where
  orig : Nat
  reply : Nat
  deriving DecidableEq

namespace Counted

instance : Zero Counted := ⟨⟨0, 0⟩⟩
instance : Add Counted :=
  ⟨fun left right => ⟨left.orig + right.orig, left.reply + right.reply⟩⟩
instance : LE Counted :=
  ⟨fun left right => left.orig ≤ right.orig ∧ left.reply ≤ right.reply⟩
instance : Preorder Counted where
  le_refl counted := ⟨Nat.le_refl _, Nat.le_refl _⟩
  le_trans _ _ _ lower upper :=
    ⟨Nat.le_trans lower.1 upper.1, Nat.le_trans lower.2 upper.2⟩

def total (counted : Counted) : Nat := counted.orig + counted.reply

@[simp] theorem zero_orig : (0 : Counted).orig = 0 := rfl
@[simp] theorem zero_reply : (0 : Counted).reply = 0 := rfl

@[simp] theorem add_orig (left right : Counted) :
    (left + right).orig = left.orig + right.orig := rfl

@[simp] theorem add_reply (left right : Counted) :
    (left + right).reply = left.reply + right.reply := rfl

theorem le_def {left right : Counted} :
    left ≤ right ↔ left.orig ≤ right.orig ∧ left.reply ≤ right.reply :=
  Iff.rfl

instance (left right : Counted) : Decidable (left ≤ right) :=
  decidable_of_iff _ le_def.symm

end Counted

/-- What accounting reads of a parsed conntrack line. -/
structure Flow (Key : Type) where
  key : Key
  origBytes : Nat
  replyBytes : Nat

def Flow.counters {Key : Type} (flow : Flow Key) : Counted :=
  ⟨flow.origBytes, flow.replyBytes⟩

/-- Growth of a flow since it was last observed. -/
structure RawDelta where
  dOrig : Nat
  dReply : Nat
  newFlow : Bool
  deriving DecidableEq

namespace RawDelta

def bytes (raw : RawDelta) : Counted := ⟨raw.dOrig, raw.dReply⟩

/-- Connections begun. -/
def hits (raw : RawDelta) : Nat := raw.newFlow.toNat

end RawDelta

structure Accountant (Key : Type) where
  counted : Key → Option Counted
  primed : Bool

namespace Accountant

variable {Key : Type}

def new : Accountant Key := ⟨fun _ => none, false⟩

/-- The first half of `observeRaw`: growth since the slot was written. -/
def growth (prevSlot : Option Counted) (flow : Flow Key) : RawDelta :=
  let prev := prevSlot.getD 0
  let reset := decide (flow.origBytes < prev.orig) ||
    decide (flow.replyBytes < prev.reply)
  let baseOrig := if flow.origBytes < prev.orig then 0 else prev.orig
  let baseReply := if flow.replyBytes < prev.reply then 0 else prev.reply
  { dOrig := flow.origBytes - baseOrig
    dReply := flow.replyBytes - baseReply
    newFlow := prevSlot.isNone || reset }

theorem growth_le (prevSlot : Option Counted) (flow : Flow Key) :
    (growth prevSlot flow).bytes ≤ flow.counters :=
  ⟨Nat.sub_le _ _, Nat.sub_le _ _⟩

theorem growth_tracked {slot : Counted} {flow : Flow Key}
    (grown : slot ≤ flow.counters) :
    slot + (growth (some slot) flow).bytes = flow.counters ∧
      (growth (some slot) flow).newFlow = false := by
  have orig : slot.orig ≤ flow.origBytes := grown.1
  have reply : slot.reply ≤ flow.replyBytes := grown.2
  constructor
  · show Counted.mk _ _ = Counted.mk _ _
    simp [growth, RawDelta.bytes, Nat.not_lt.mpr orig, Nat.not_lt.mpr reply,
      orig, reply]
  · simp [growth, Nat.not_lt.mpr orig, Nat.not_lt.mpr reply]

variable [DecidableEq Key]

def observeRaw (acct : Accountant Key) (flow : Flow Key) (remove : Bool) :
    Option RawDelta × Accountant Key :=
  let raw := growth (acct.counted flow.key) flow
  let slot := if remove then none else some flow.counters
  let observed := { acct with
    counted := Function.update acct.counted flow.key slot }
  -- before the baseline the slot is all that is wanted
  if !acct.primed then (none, observed)
  else if raw.dOrig == 0 && raw.dReply == 0 && !raw.newFlow then
    (none, observed)
  else (some raw, observed)

def retainKeys (acct : Accountant Key) (live : List Key) : Accountant Key :=
  { acct with
    counted := fun key => if key ∈ live then acct.counted key else none }

def markPrimed (acct : Accountant Key) : Accountant Key :=
  { acct with primed := true }

/-! ## What one observation does -/

/-- Bytes an observation credits. -/
def gain (acct : Accountant Key) (flow : Flow Key) (remove : Bool) : Counted :=
  ((acct.observeRaw flow remove).1.map RawDelta.bytes).getD 0

/-- Connections an observation counts. -/
def hits (acct : Accountant Key) (flow : Flow Key) (remove : Bool) : Nat :=
  ((acct.observeRaw flow remove).1.map RawDelta.hits).getD 0

variable (acct : Accountant Key) (flow : Flow Key) (remove : Bool)

theorem observeRaw_delta :
    (acct.observeRaw flow remove).1 = none ∨
      (acct.observeRaw flow remove).1 =
        some (growth (acct.counted flow.key) flow) := by
  simp only [observeRaw]
  split
  · exact .inl rfl
  · split
    · exact .inl rfl
    · exact .inr rfl

@[simp] theorem observeRaw_primed :
    (acct.observeRaw flow remove).2.primed = acct.primed := by
  simp only [observeRaw]
  split
  · rfl
  · split <;> rfl

theorem observeRaw_counted :
    (acct.observeRaw flow remove).2.counted =
      Function.update acct.counted flow.key
        (if remove then none else some flow.counters) := by
  simp only [observeRaw]
  split
  · rfl
  · split <;> rfl

theorem observeRaw_other {key : Key} (other : key ≠ flow.key) :
    (acct.observeRaw flow remove).2.counted key = acct.counted key := by
  rw [observeRaw_counted, Function.update_of_ne other]

variable {acct flow}

theorem observeRaw_unprimed (unprimed : acct.primed = false) :
    (acct.observeRaw flow remove).1 = none := by
  simp [observeRaw, unprimed]

theorem gain_unprimed (unprimed : acct.primed = false) :
    acct.gain flow remove = 0 := by
  rw [gain, observeRaw_unprimed remove unprimed]
  rfl

theorem hits_unprimed (unprimed : acct.primed = false) :
    acct.hits flow remove = 0 := by
  rw [hits, observeRaw_unprimed remove unprimed]
  rfl

/-- Whatever slot is found, no more than the counters is credited. -/
theorem gain_le (acct : Accountant Key) (flow : Flow Key) (remove : Bool) :
    acct.gain flow remove ≤ flow.counters := by
  rcases acct.observeRaw_delta flow remove with silent | told
  · rw [gain, silent]
    exact ⟨Nat.zero_le _, Nat.zero_le _⟩
  · rw [gain, told]
    exact growth_le _ flow

theorem hits_le_one (acct : Accountant Key) (flow : Flow Key)
    (remove : Bool) : acct.hits flow remove ≤ 1 := by
  rcases acct.observeRaw_delta flow remove with silent | told
  · rw [hits, silent]
    exact Nat.zero_le _
  · rw [hits, told]
    exact Bool.toNat_le _

/-- A flow found under its own slot is credited its growth only. -/
theorem gain_tracked {slot : Counted}
    (tracked : acct.counted flow.key = some slot)
    (grown : slot ≤ flow.counters) (remove : Bool) :
    slot + acct.gain flow remove ≤ flow.counters := by
  rcases acct.observeRaw_delta flow remove with silent | told
  · rw [gain, silent]
    exact grown
  · rw [gain, told, tracked]
    simp only [Option.map_some, Option.getD_some, (growth_tracked grown).1]
    exact le_rfl

theorem hits_tracked {slot : Counted}
    (tracked : acct.counted flow.key = some slot)
    (grown : slot ≤ flow.counters) (remove : Bool) :
    acct.hits flow remove = 0 := by
  rcases acct.observeRaw_delta flow remove with silent | told
  · rw [hits, silent]
    rfl
  · rw [hits, told, tracked]
    simp [RawDelta.hits, (growth_tracked grown).2]

end Accountant

end QuartzFire.Devices
