import QuartzFire.Foundation.InternetChecksum

/-!
# Reading a buffer within its bounds

A reader of a buffer gives a value, rejects the buffer, or panics on an index
that is not in it.  What a reader gives is stated as a relation, and the rules
below show that readers that check lengths first never panic.
-/

namespace QuartzFire

inductive Halt where
  | reject
  | panic
  deriving DecidableEq, Repr

abbrev Read := Except Halt

abbrev Bytes := List UInt8

namespace Read

variable {Value Result : Type}

/-- `return None` -/
def reject : Read Value := .error .reject

section Readers

variable (buf : Bytes)

/-- `buf[index]` -/
def byte (index : Nat) : Read UInt8 :=
  match buf[index]? with
  | some value => .ok value
  | none => .error .panic

/-- `buf[first..last]` -/
def slice (first last : Nat) : Read Bytes :=
  if last ≤ buf.length then .ok ((buf.drop first).take (last - first))
  else .error .panic

/-- Goes on where the condition holds. -/
def require (condition : Prop) [Decidable condition] : Read Unit :=
  if condition then .ok () else reject

def word16 (index : Nat) : Read UInt16 := do
  return be16 (← byte buf index) (← byte buf (index + 1))

def word32 (index : Nat) : Read UInt32 := do
  return be32 (← byte buf index) (← byte buf (index + 1))
    (← byte buf (index + 2)) (← byte buf (index + 3))

end Readers

/-! ## What readers give -/

/-- The reader gives what is related and does not panic. -/
structure Gives (reader : Read Value) (related : Value → Prop) : Prop where
  safe : reader ≠ .error .panic
  exact : ∀ value, reader = .ok value ↔ related value

namespace Gives

variable {reader : Read Value} {next : Value → Read Result}
  {related other : Value → Prop} {after : Value → Result → Prop}

theorem congr (gives : Gives reader related)
    (same : ∀ value, related value ↔ other value) : Gives reader other :=
  ⟨gives.safe, fun value => (gives.exact value).trans (same value)⟩

theorem pure (value : Value) :
    Gives (Pure.pure value : Read Value) (fun given => given = value) := by
  refine ⟨nofun, fun given => ?_⟩
  constructor
  · intro same
    exact (Except.ok.inj same).symm
  · rintro rfl
    rfl

theorem reject : Gives (Read.reject : Read Value) (fun _ => False) :=
  ⟨nofun, fun _ => ⟨nofun, False.elim⟩⟩

/-- What is read second may rely on what was read first. -/
theorem bind (gives : Gives reader related)
    (then' : ∀ value, related value → Gives (next value) (after value)) :
    Gives (reader >>= next) (fun result =>
      ∃ value, related value ∧ after value result) := by
  cases read : reader with
  | error halt =>
      refine ⟨?_, fun result => ⟨nofun, ?_⟩⟩
      · intro panics
        cases panics
        exact gives.safe read
      · rintro ⟨value, relates, _⟩
        have given := (gives.exact value).mpr relates
        rw [read] at given
        cases given
  | ok value =>
      have relates := (gives.exact value).mp read
      obtain ⟨safe, exact'⟩ := then' value relates
      refine ⟨safe, fun result => (exact' result).trans ?_⟩
      constructor
      · intro gives'
        exact ⟨value, relates, gives'⟩
      · rintro ⟨given, relates', gives'⟩
        have same := (gives.exact given).mpr relates'
        rw [read] at same
        cases same
        exact gives'

theorem ite {condition : Prop} [Decidable condition] {reader' : Read Value}
    (yes : condition → Gives reader related)
    (no : ¬ condition → Gives reader' other) :
    Gives (if condition then reader else reader') (fun value =>
      (condition ∧ related value) ∨ (¬ condition ∧ other value)) := by
  by_cases holds : condition
  · rw [if_pos holds]
    exact (yes holds).congr fun value => by simp [holds]
  · rw [if_neg holds]
    exact (no holds).congr fun value => by simp [holds]

theorem require (condition : Prop) [Decidable condition] :
    Gives (Read.require condition) (fun _ => condition) := by
  unfold Read.require
  refine (Gives.ite (fun _ => .pure ()) fun _ => .reject).congr fun value => ?_
  simp

variable {buf : Bytes} {index : Nat}

theorem byte (inside : index < buf.length) :
    Gives (Read.byte buf index) (fun value => buf[index]? = some value) := by
  unfold Read.byte
  rw [List.getElem?_eq_getElem inside]
  exact (Gives.pure buf[index]).congr fun value => by simp [eq_comm]

theorem word16 (inside : index + 2 ≤ buf.length) :
    Gives (Read.word16 buf index) (fun value => ∃ high low,
      buf[index]? = some high ∧ buf[index + 1]? = some low ∧
        value = be16 high low) := by
  refine ((Gives.byte (by omega)).bind fun high _ =>
    (Gives.byte (by omega)).bind fun low _ => .pure _).congr fun value => ?_
  simp only [exists_and_left]

theorem word32 (inside : index + 4 ≤ buf.length) :
    Gives (Read.word32 buf index) (fun value => ∃ first second third fourth,
      buf[index]? = some first ∧ buf[index + 1]? = some second ∧
        buf[index + 2]? = some third ∧ buf[index + 3]? = some fourth ∧
          value = be32 first second third fourth) := by
  refine ((Gives.byte (by omega)).bind fun first _ =>
    (Gives.byte (by omega)).bind fun second _ =>
      (Gives.byte (by omega)).bind fun third _ =>
        (Gives.byte (by omega)).bind fun fourth _ => .pure _).congr
          fun value => ?_
  simp only [exists_and_left]

theorem slice {first last : Nat} (inside : last ≤ buf.length) :
    Gives (Read.slice buf first last) (fun octets =>
      octets = (buf.drop first).take (last - first)) := by
  unfold Read.slice
  rw [if_pos inside]
  exact .pure _

end Gives

end Read

end QuartzFire
