import Mathlib.Logic.Function.Iterate
import QuartzFire.ContentFiltering.AccessLog
import QuartzFire.Foundation.Lines
import QuartzFire.Foundation.TransitionSystem

/-!
# The log feed

The feed follows the access log by polling.  It reads whatever is behind its own
position line by line, and starts over when the file is shorter than what it has
read, which is how a rotation that truncates the file shows itself.
-/

namespace QuartzFire.ContentFiltering

open TransitionSystem

abbrev Bytes := List UInt8

def newline : UInt8 := 10

/-- How much `BufReader` reads at a time. -/
def bufferSize : Nat := 8192

/-- The text of a line that is valid UTF-8. -/
def lineText (line : Bytes) : Option (List Char) :=
  (ByteArray.utf8Decode? ⟨line.toArray⟩).map Array.toList

def transformLine (line : Bytes) : Option AccessObject :=
  (lineText line).bind fun text => transform (trimEnd text)

/-! ## The feed and its file -/

inductive FeedPhase where
  /-- The file is not open yet. -/
  | waiting
  /-- At the end of the file, whose length is asked for next. -/
  | measuring
  | checking
  /-- In `read_line`, with the bytes it has so far. -/
  | reading (line : Bytes)
  deriving DecidableEq

structure FeedState where
  file : Bytes
  position : Nat
  buffer : Bytes
  lastLen : Nat
  phase : FeedPhase
  /-- The lines given to `transform`. -/
  transformed : List Bytes
  emitted : List AccessObject
  /-- What the writer has written of its next line. -/
  unfinished : Bytes
  /-- The lines completed since the feed started and the file was truncated. -/
  completed : List Bytes
  /-- The lines completed since the feed started and before that truncation. -/
  before : List Bytes
  /-- The file was truncated behind the position of the feed. -/
  stale : Bool
  deriving DecidableEq

namespace FeedState

/-- `fill_buf` -/
def fillBuf (state : FeedState) : FeedState :=
  if state.buffer = [] then
    let bytes := (state.file.drop state.position).take bufferSize
    { state with
      buffer := bytes
      position := state.position + bytes.length }
  else state

/-- `read_line` returns these bytes. -/
def finish (state : FeedState) (line : Bytes) : FeedState :=
  if line = [] then { state with phase := .checking }
  else
    match lineText line with
    | some text =>
        { state with
          phase := .checking
          lastLen := state.lastLen + line.length
          transformed := state.transformed ++ [line]
          emitted := state.emitted ++ (transform (trimEnd text)).toList }
    | none => { state with phase := .checking }

/-- One round of the loop in `read_line`. -/
def readMore (state : FeedState) (line : Bytes) : FeedState :=
  let state := state.fillBuf
  if state.buffer = [] then state.finish line
  else
    match takeLine newline state.buffer with
    | some (rest, buffer) =>
        { state with buffer := buffer }.finish (line ++ rest)
    | none =>
        { state with buffer := [], phase := .reading (line ++ state.buffer) }

/-- The file is compared with what was read of it. -/
def check (state : FeedState) (known opened : Bool) : FeedState :=
  let state :=
    if known && state.file.length < state.lastLen then
      if opened then
        { state with position := 0, buffer := [], lastLen := 0, stale := false }
      else { state with lastLen := 0 }
    else state
  { state with phase := .reading [] }

def append (state : FeedState) (bytes : Bytes) : FeedState :=
  let (lines, tail) := splitLines newline (state.unfinished ++ bytes)
  { state with
    file := state.file ++ bytes
    unfinished := tail
    completed :=
      if state.phase = .waiting then [] else state.completed ++ lines }

/-- `copytruncate` -/
def truncate (state : FeedState) : FeedState :=
  { state with
    file := []
    before := state.before ++ state.completed
    completed := []
    stale := state.position ≠ 0 }

end FeedState

inductive FeedAction where
  | append (bytes : Bytes)
  | truncate
  /-- The file is opened and its end looked up. -/
  | seek
  | measure (known : Bool)
  | check (known opened : Bool)
  | readMore
  deriving DecidableEq

def logFeed : TransitionSystem FeedState FeedAction where
  Initial state := state.file = [] ∧ state.position = 0 ∧ state.buffer = [] ∧
    state.lastLen = 0 ∧ state.phase = .waiting ∧ state.transformed = [] ∧
    state.emitted = [] ∧ state.unfinished = [] ∧ state.completed = [] ∧
    state.before = [] ∧ state.stale = false
  next state
    | .append bytes => some (state.append bytes)
    | .truncate => some state.truncate
    | .seek =>
        if state.phase = .waiting then
          some { state with
            position := state.file.length, phase := .measuring }
        else none
    | .measure known =>
        if state.phase = .measuring then
          some { state with
            lastLen := if known then state.file.length else 0
            phase := .checking }
        else none
    | .check known opened =>
        if state.phase = .checking then some (state.check known opened)
        else none
    | .readMore =>
        match state.phase with
        | .reading line => some (state.readMore line)
        | _ => none

/-! ## Exactly once -/

/-- What the feed does next when all it asks for succeeds. -/
def FeedPhase.action : FeedPhase → FeedAction
  | .waiting => .seek
  | .measuring => .measure true
  | .checking => .check true true
  | .reading _ => .readMore

/-- The feed goes on while its file stays as it is. -/
def FeedState.proceed (state : FeedState) : FeedState :=
  (logFeed.next state state.phase.action).getD state

/-- Every line is transformed at most once, whole and in its place, and those
completed since the file was last truncated are all transformed once the feed
catches up.  A rotation may take the lines that were not yet read with it. -/
structure Delivered (state : FeedState) : Prop where
  once : ∃ old new, state.transformed = old ++ new ∧
    old.Sublist state.before ∧ new <+: state.completed
  caughtUp : ∃ rounds old,
    (FeedState.proceed^[rounds] state).transformed = old ++ state.completed ∧
      old.Sublist state.before
  emitted : state.emitted = state.transformed.filterMap transformLine

/-! ## When it is so -/

/-- What `last_len` will be when the file is checked next. -/
def FeedState.lastLenAtCheck (state : FeedState) : Nat :=
  match state.phase with
  | .reading _ => state.lastLen +
      ((takeLine newline state.buffer).map fun parts => parts.1.length).getD 0
  | _ => state.lastLen

/-- The feed starts between two lines and measures the file before it grows,
meets its end only between lines, and notices a truncation before the file is
again as long as it was read.  The writer rotates between lines and the feed is
then not inside one. -/
def Orderly (state : FeedState) : FeedAction → Prop
  | .append bytes =>
      (state.phase = .measuring → bytes = []) ∧
      (state.stale = true →
        state.file.length + bytes.length < state.lastLenAtCheck) ∧
      (state.phase ≠ .waiting →
        ∀ line ∈ (splitLines newline (state.unfinished ++ bytes)).1,
          (lineText line).isSome = true)
  | .truncate =>
      match state.phase with
      | .waiting => True
      | .measuring => state.file = []
      | .checking => state.unfinished = []
      | .reading line => state.unfinished = [] ∧ line = [] ∧
          (state.buffer = [] ∨ newline ∈ state.buffer)
  | .seek => state.unfinished = []
  | .measure known => known = true ∨ state.file = []
  | .check known opened => state.stale = true → known = true ∧ opened = true
  | .readMore => state.fillBuf.buffer = [] → state.phase = .reading []

instance (state : FeedState) :
    (action : FeedAction) → Decidable (Orderly state action)
  | .append _ => inferInstanceAs (Decidable (_ ∧ _ ∧ _))
  | .truncate =>
      match phase : state.phase with
      | .waiting => .isTrue (by simp [Orderly, phase])
      | .measuring => decidable_of_iff (state.file = []) <| by
          simp [Orderly, phase]
      | .checking => decidable_of_iff (state.unfinished = []) <| by
          simp [Orderly, phase]
      | .reading line => decidable_of_iff (state.unfinished = [] ∧ line = [] ∧
          (state.buffer = [] ∨ newline ∈ state.buffer)) <| by
            simp [Orderly, phase]
  | .seek => decEq state.unfinished []
  | .measure known => inferInstanceAs (Decidable (known = true ∨ _))
  | .check _ _ => inferInstanceAs (Decidable (_ → _ ∧ _))
  | .readMore => inferInstanceAs (Decidable (_ → _))

/-! ### What holds between steps -/

/-- The bytes `read_line` has so far. -/
def FeedPhase.line : FeedPhase → Bytes
  | .reading line => line
  | _ => []

/-- The lines ahead of the feed are those that were completed and not yet
transformed. -/
structure Ahead (state : FeedState) (old new pending : List Bytes) :
    Prop where
  transformed : state.transformed = old ++ new
  old : old.Sublist state.before
  completed : state.completed = new ++ pending
  bytes : state.phase.line ++ state.buffer ++
    state.file.drop state.position = pending.flatten ++ state.unfinished

/-- The feed is where its file is. -/
structure Following (state : FeedState) : Prop where
  aware : state.stale = false
  inside : state.position ≤ state.file.length
  measuring : state.phase = .measuring →
    state.position = state.file.length ∧ state.buffer = []
  count : state.phase ≠ .measuring →
    state.lastLen + state.phase.line.length + state.buffer.length =
      state.position
  line : newline ∉ state.phase.line
  ahead : ∃ old new pending, Ahead state old new pending

/-- The file was truncated and the feed will notice it. -/
structure Cut (state : FeedState) : Prop where
  stale : state.stale = true
  read : state.position ≠ 0
  phase : state.phase = .checking ∨ state.phase = .reading [] ∧
    (state.buffer = [] ∨ newline ∈ state.buffer)
  shorter : state.file.length < state.lastLenAtCheck
  count : state.lastLen + state.buffer.length = state.position
  file : state.file = state.completed.flatten ++ state.unfinished
  old : state.transformed.Sublist state.before
  /-- The line that is in the buffer already. -/
  next : state.phase = .reading [] → ∀ line rest,
    takeLine newline state.buffer = some (line, rest) →
      (state.transformed ++ [line]).Sublist state.before ∧
        (lineText line).isSome = true

/-- The feed has not started. -/
structure Idle (state : FeedState) : Prop where
  phase : state.phase = .waiting
  position : state.position = 0
  buffer : state.buffer = []
  transformed : state.transformed = []
  completed : state.completed = []
  aware : state.stale = false

structure Sound (state : FeedState) : Prop where
  emitted : state.emitted = state.transformed.filterMap transformLine
  unfinished : newline ∉ state.unfinished
  lines : ∀ line ∈ state.completed,
    IsLine newline line ∧ (lineText line).isSome = true
  /-- A buffer that is not empty was read on the way to a line. -/
  begun : state.buffer ≠ [] → 0 < state.lastLen
  standing : Idle state ∨ state.phase ≠ .waiting ∧
    (Following state ∨ Cut state)

/-! ### The writer -/

section Writer

variable {state : FeedState}

/-- The line at the front is the first one pending. -/
theorem Ahead.first {old new pending : List Bytes}
    (ahead : Ahead state old new pending) (sound : Sound state)
    {line rest : Bytes} (whole : IsLine newline line)
    (front : state.phase.line ++ state.buffer ++
      state.file.drop state.position = line ++ rest) :
    ∃ others, pending = line :: others ∧
      rest = others.flatten ++ state.unfinished ∧
      (lineText line).isSome = true := by
  have pendings : ∀ line ∈ pending, IsLine newline line ∧
      (lineText line).isSome = true := by
    intro line member
    refine sound.lines line ?_
    rw [ahead.completed]
    exact List.mem_append_right _ member
  rw [ahead.bytes] at front
  obtain ⟨others, rfl, rest⟩ := whole.eq_head
    (fun line member => (pendings line member).1) sound.unfinished front.symm
  exact ⟨others, rfl, rest, (pendings line List.mem_cons_self).2⟩

theorem Ahead.append {old new pending : List Bytes}
    (ahead : Ahead state old new pending)
    (inside : state.position ≤ state.file.length)
    (started : state.phase ≠ .waiting) (bytes : Bytes) :
    Ahead (state.append bytes) old new (pending ++
      (splitLines newline (state.unfinished ++ bytes)).1) where
  transformed := ahead.transformed
  old := ahead.old
  completed := by
    simp only [FeedState.append, started, if_false, ahead.completed,
      List.append_assoc]
  bytes := by
    have parts := (splitLines_spec newline
      (state.unfinished ++ bytes)).1
    simp only [FeedState.append]
    rw [List.drop_append_of_le_length inside, ← List.append_assoc,
      ahead.bytes, List.append_assoc, List.flatten_append, List.append_assoc]
    exact congrArg _ parts

theorem Following.append (following : Following state)
    (started : state.phase ≠ .waiting) {bytes : Bytes}
    (measured : state.phase = .measuring → bytes = []) :
    Following (state.append bytes) where
  aware := following.aware
  inside := by
    have inside := following.inside
    simp only [FeedState.append, List.length_append]
    omega
  measuring phase := by
    obtain ⟨position, buffer⟩ := following.measuring phase
    simp only [FeedState.append, measured phase, List.append_nil]
    exact ⟨position, buffer⟩
  count := following.count
  line := following.line
  ahead := by
    obtain ⟨old, new, pending, ahead⟩ := following.ahead
    exact ⟨old, new, _, ahead.append following.inside started bytes⟩

theorem Cut.started (cut : Cut state) : state.phase ≠ .waiting := by
  rcases cut.phase with checking | ⟨reading, _⟩
  · simp [checking]
  · simp [reading]

theorem Cut.append (cut : Cut state) {bytes : Bytes}
    (short : state.file.length + bytes.length < state.lastLenAtCheck) :
    Cut (state.append bytes) where
  stale := cut.stale
  read := cut.read
  phase := cut.phase
  shorter := by
    have same : (state.append bytes).lastLenAtCheck = state.lastLenAtCheck :=
      rfl
    rw [same]
    simpa [FeedState.append] using short
  count := cut.count
  file := by
    have parts := (splitLines_spec newline
      (state.unfinished ++ bytes)).1
    simp only [FeedState.append, cut.started, if_false]
    rw [cut.file, List.append_assoc, List.flatten_append, List.append_assoc]
    exact congrArg _ parts
  old := cut.old
  next := cut.next

theorem Sound.append (sound : Sound state) {bytes : Bytes}
    (orderly : Orderly state (.append bytes)) :
    Sound (state.append bytes) := by
  obtain ⟨measured, short, readable⟩ := orderly
  obtain ⟨_, whole, tail⟩ := splitLines_spec newline
    (state.unfinished ++ bytes)
  refine ⟨sound.emitted, tail, ?_, sound.begun, ?_⟩
  · intro line member
    simp only [FeedState.append] at member
    split_ifs at member with waiting
    · cases member
    · rcases List.mem_append.mp member with earlier | later
      · exact sound.lines line earlier
      · exact ⟨whole line later, readable waiting line later⟩
  · rcases sound.standing with idle | ⟨started, following | cut⟩
    · refine .inl { idle with completed := ?_ }
      simp [FeedState.append, idle.phase]
    · exact .inr ⟨started, .inl (following.append started measured)⟩
    · exact .inr ⟨started, .inr (cut.append (short cut.stale))⟩

/-- Nothing was read of the file that is cut. -/
theorem Following.truncate_unread (following : Following state)
    (unread : state.position = 0)
    (between : state.unfinished = [] ∨ state.file = []) :
    Following state.truncate := by
  obtain ⟨old, new, pending, ahead⟩ := following.ahead
  have empty : state.phase.line = [] ∧ state.buffer = [] := by
    by_cases measuring : state.phase = .measuring
    · exact ⟨by simp [measuring, FeedPhase.line],
        (following.measuring measuring).2⟩
    · have count := following.count measuring
      rw [unread] at count
      constructor <;> exact List.eq_nil_of_length_eq_zero (by omega)
  have tail : state.unfinished = [] := by
    rcases between with tail | file
    · exact tail
    · have bytes := ahead.bytes
      rw [empty.1, empty.2, file, List.drop_nil] at bytes
      exact (List.append_eq_nil_iff.mp bytes.symm).2
  refine ⟨?_, ?_, ?_, following.count, following.line, old ++ new, [], [], ?_⟩
  · simpa [FeedState.truncate] using unread
  · simp [FeedState.truncate, unread]
  · exact fun _ => ⟨by simp [FeedState.truncate, unread], empty.2⟩
  · refine ⟨?_, ?_, rfl, ?_⟩
    · simpa [FeedState.truncate] using ahead.transformed
    · have prefixed : new <+: state.completed := ⟨pending, ahead.completed.symm⟩
      exact ahead.old.append prefixed.sublist
    · simp [FeedState.truncate, empty, tail]

/-- The feed has read some of the file that is cut. -/
theorem Following.truncate_read (following : Following state)
    (sound : Sound state) (read : state.position ≠ 0)
    (phase : state.phase = .checking ∨ state.phase = .reading [] ∧
      (state.buffer = [] ∨ newline ∈ state.buffer))
    (tail : state.unfinished = []) : Cut state.truncate := by
  obtain ⟨old, new, pending, ahead⟩ := following.ahead
  have none_read : state.phase.line = [] := by
    rcases phase with checking | ⟨reading, _⟩
    · simp [checking, FeedPhase.line]
    · simp [reading, FeedPhase.line]
  have count : state.lastLen + state.buffer.length = state.position := by
    have count := following.count (by rcases phase with h | ⟨h, _⟩ <;> simp [h])
    simpa [none_read] using count
  have counted : 0 < state.lastLen := by
    by_cases empty : state.buffer = []
    · rw [empty, List.length_nil] at count
      omega
    · exact sound.begun empty
  refine ⟨by simpa [FeedState.truncate] using read, read, phase, ?_, count,
    ?_, ?_, ?_⟩
  · have least : state.lastLen ≤ state.truncate.lastLenAtCheck := by
      rw [FeedState.lastLenAtCheck]
      split
      · exact Nat.le_add_right _ _
      · exact Nat.le_refl _
    exact Nat.lt_of_lt_of_le counted least
  · simp [FeedState.truncate, tail]
  · have prefixed : new <+: state.completed := ⟨pending, ahead.completed.symm⟩
    have kept := ahead.old.append prefixed.sublist
    rwa [← ahead.transformed] at kept
  · intro reading line rest taken
    obtain ⟨whole, buffer⟩ := takeLine_spec taken
    have front : state.phase.line ++ state.buffer ++
        state.file.drop state.position =
        line ++ (rest ++ state.file.drop state.position) := by
      have buffer : state.buffer = line ++ rest := buffer
      rw [none_read, buffer, List.nil_append, List.append_assoc]
    obtain ⟨others, rfl, _, readable⟩ := ahead.first sound whole front
    refine ⟨?_, readable⟩
    have kept : (state.transformed ++ [line]).Sublist
        (state.before ++ (new ++ line :: others)) := by
      rw [ahead.transformed, List.append_assoc]
      refine ahead.old.append ?_
      exact (List.Sublist.refl new).append
        (List.singleton_sublist.mpr List.mem_cons_self)
    rwa [← ahead.completed] at kept

theorem Cut.truncate (cut : Cut state) (tail : state.unfinished = []) :
    Cut state.truncate where
  stale := by simpa [FeedState.truncate] using cut.read
  read := cut.read
  phase := cut.phase
  shorter := Nat.lt_of_le_of_lt (Nat.zero_le _) cut.shorter
  count := cut.count
  file := by simp [FeedState.truncate, tail]
  old := cut.old.trans (List.sublist_append_left _ _)
  next := by
    intro reading line rest taken
    obtain ⟨kept, readable⟩ := cut.next reading line rest taken
    exact ⟨kept.trans (List.sublist_append_left _ _), readable⟩

theorem Sound.truncate (sound : Sound state)
    (orderly : Orderly state .truncate) : Sound state.truncate := by
  refine ⟨sound.emitted, sound.unfinished, ?_, sound.begun, ?_⟩
  · simp [FeedState.truncate]
  rcases sound.standing with idle | ⟨started, standing⟩
  · refine .inl ⟨idle.phase, idle.position, idle.buffer, idle.transformed, rfl,
      ?_⟩
    simp [FeedState.truncate, idle.position]
  refine .inr ⟨started, ?_⟩
  have between : state.unfinished = [] ∧ (state.phase = .checking ∨
      state.phase = .reading [] ∧
        (state.buffer = [] ∨ newline ∈ state.buffer)) ∨
      state.phase = .measuring ∧ state.file = [] := by
    rw [Orderly] at orderly
    cases phase : state.phase with
    | waiting => exact absurd phase started
    | measuring => exact .inr ⟨rfl, by simpa [phase] using orderly⟩
    | checking => exact .inl ⟨by simpa [phase] using orderly, .inl rfl⟩
    | reading line =>
        simp only [phase] at orderly
        obtain ⟨tail, rfl, buffer⟩ := orderly
        exact .inl ⟨tail, .inr ⟨rfl, buffer⟩⟩
  rcases standing with following | cut
  · by_cases read : state.position = 0
    · exact .inl (following.truncate_unread read
        (between.imp And.left And.right))
    · rcases between with ⟨tail, phase⟩ | ⟨measuring, empty⟩
      · exact .inr (following.truncate_read sound read phase tail)
      · have position := (following.measuring measuring).1
        rw [empty] at position
        exact absurd position read
  · rcases between with ⟨tail, _⟩ | ⟨measuring, _⟩
    · exact .inr (cut.truncate tail)
    · rcases cut.phase with checking | ⟨reading, _⟩
      · simp [measuring] at checking
      · simp [measuring] at reading

end Writer

/-! ### The feed -/

section Feed

variable {state : FeedState}

theorem Idle.seek (idle : Idle state) (tail : state.unfinished = []) :
    Following { state with
      position := state.file.length, phase := .measuring } where
  aware := idle.aware
  inside := Nat.le_refl _
  measuring _ := ⟨rfl, idle.buffer⟩
  count measured := absurd rfl measured
  line := by simp [FeedPhase.line]
  ahead := by
    refine ⟨[], [], [], idle.transformed, List.nil_sublist _, idle.completed,
      ?_⟩
    simp [FeedPhase.line, idle.buffer, tail]

theorem Following.measure (following : Following state)
    (phase : state.phase = .measuring) :
    Following { state with
      lastLen := state.file.length, phase := .checking } where
  aware := following.aware
  inside := following.inside
  measuring checking := by simp at checking
  count _ := by
    obtain ⟨position, buffer⟩ := following.measuring phase
    simp [FeedPhase.line, position, buffer]
  line := by simp [FeedPhase.line]
  ahead := by
    obtain ⟨old, new, pending, ahead⟩ := following.ahead
    refine ⟨old, new, pending, ahead.transformed, ahead.old, ahead.completed,
      ?_⟩
    simpa [phase, FeedPhase.line] using ahead.bytes

/-- A file that was not truncated is no shorter than what was read of it. -/
theorem Following.check (following : Following state)
    (phase : state.phase = .checking) (known opened : Bool) :
    state.check known opened = { state with phase := .reading [] } ∧
      Following { state with phase := .reading [] } := by
  have count := following.count (by simp [phase])
  have inside := following.inside
  have longer : ¬ state.file.length < state.lastLen := by omega
  refine ⟨by simp [FeedState.check, longer], following.aware, inside, ?_, ?_,
    by simp [FeedPhase.line], ?_⟩
  · simp
  · intro _
    simpa [phase, FeedPhase.line] using count
  · obtain ⟨old, new, pending, ahead⟩ := following.ahead
    refine ⟨old, new, pending, ahead.transformed, ahead.old, ahead.completed,
      ?_⟩
    simpa [phase, FeedPhase.line] using ahead.bytes

/-- The truncation is noticed. -/
theorem Cut.check (cut : Cut state) (phase : state.phase = .checking) :
    Following (state.check true true) := by
  have shorter : state.file.length < state.lastLen := by
    simpa [FeedState.lastLenAtCheck, phase] using cut.shorter
  have noticed : state.check true true = { state with
      position := 0, buffer := [], lastLen := 0, stale := false
      phase := .reading [] } := by
    simp [FeedState.check, shorter]
  rw [noticed]
  refine ⟨rfl, Nat.zero_le _, by simp, by simp [FeedPhase.line],
    by simp [FeedPhase.line], state.transformed, [], state.completed,
    (List.append_nil _).symm, cut.old, rfl, ?_⟩
  simpa [FeedPhase.line] using cut.file

/-- Filling the buffer moves bytes from the file to the buffer. -/
theorem fillBuf_spec (state : FeedState) : ∃ buffer position,
    state.fillBuf = { state with buffer := buffer, position := position } ∧
      buffer ++ state.file.drop position =
        state.buffer ++ state.file.drop state.position ∧
      buffer.length + state.position = state.buffer.length + position ∧
      state.position ≤ position ∧
      (state.position ≤ state.file.length → position ≤ state.file.length) ∧
      (buffer = [] → state.buffer = [] ∧
        state.file.drop state.position = []) := by
  rw [FeedState.fillBuf]
  split_ifs with empty
  · refine ⟨_, _, rfl, ?_, ?_, Nat.le_add_right _ _, ?_, ?_⟩
    · rw [empty, List.nil_append, List.length_take, ← List.drop_drop]
      conv => rhs; rw [← List.take_append_drop bufferSize
        (state.file.drop state.position)]
      congr 1
      rcases Nat.le_total bufferSize (state.file.drop state.position).length
        with more | less
      · rw [Nat.min_eq_left more]
      · rw [Nat.min_eq_right less, List.drop_length,
          List.drop_eq_nil_of_le less]
    · rw [empty, List.length_nil]
      omega
    · intro inside
      simp only [List.length_take, List.length_drop]
      omega
    · intro none_read
      refine ⟨empty, ?_⟩
      rcases List.take_eq_nil_iff.mp none_read with none_asked | ended
      · cases none_asked
      · exact ended
  · exact ⟨_, _, rfl, rfl, rfl, Nat.le_refl _, id,
      fun none => absurd none empty⟩

theorem finish_line {line : Bytes} (whole : IsLine newline line)
    (readable : (lineText line).isSome = true) (state : FeedState) :
    state.finish line = { state with
      phase := .checking
      lastLen := state.lastLen + line.length
      transformed := state.transformed ++ [line]
      emitted := state.emitted ++ (transformLine line).toList } := by
  obtain ⟨text, decoded⟩ := Option.isSome_iff_exists.mp readable
  simp only [FeedState.finish, whole.ne_nil, if_false, decoded, transformLine,
    Option.bind_some]

/-- How far the feed is from the end of its file. -/
def FeedState.toGo (state : FeedState) : Nat :=
  4 * (state.file.drop state.position).length + 3 * state.buffer.length +
    2 * state.phase.line.length +
    (match state.phase with
      | .measuring => 2
      | .checking => 1
      | _ => 0)

/-- One step of the feed along its file. -/
structure Proceeds (state after : FeedState) : Prop where
  following : Following after
  started : after.phase ≠ .waiting
  emitted : after.emitted = after.transformed.filterMap transformLine
  begun : after.buffer ≠ [] → 0 < after.lastLen
  completed : after.completed = state.completed
  before : after.before = state.before
  unfinished : after.unfinished = state.unfinished

theorem Proceeds.sound {after : FeedState} (proceeds : Proceeds state after)
    (sound : Sound state) : Sound after where
  emitted := proceeds.emitted
  unfinished := proceeds.unfinished ▸ sound.unfinished
  lines := proceeds.completed ▸ sound.lines
  begun := proceeds.begun
  standing := .inr ⟨proceeds.started, .inl proceeds.following⟩

theorem Sound.emitted_append (sound : Sound state) (line : Bytes) :
    state.emitted ++ (transformLine line).toList =
      (state.transformed ++ [line]).filterMap transformLine := by
  rw [List.filterMap_append, ← sound.emitted]
  cases made : transformLine line <;> simp [made]

theorem Following.readMore (following : Following state) (sound : Sound state)
    {line : Bytes} (phase : state.phase = .reading line)
    (orderly : Orderly state .readMore) :
    Proceeds state (state.readMore line) ∧
      (state.phase.line ++ state.buffer ++ state.file.drop state.position ≠ [] →
        (state.readMore line).toGo < state.toGo) := by
  obtain ⟨old, new, pending, ahead⟩ := following.ahead
  obtain ⟨buffer, position, filled, moved, count, forward, inside, ended⟩ :=
    fillBuf_spec state
  have front := ahead.bytes
  have counted := following.count (by simp [phase])
  have none_inside : newline ∉ line := by
    simpa [phase, FeedPhase.line] using following.line
  rw [Orderly, filled] at orderly
  rw [FeedState.readMore, filled]
  simp only [phase, FeedPhase.line, List.append_assoc] at front counted ⊢
  rw [← moved] at front ⊢
  replace inside := inside following.inside
  by_cases empty : buffer = []
  · -- The end of the file, between two lines.
    have between : line = [] := by simpa [phase] using orderly empty
    subst between
    obtain ⟨drained, atEnd⟩ := ended empty
    simp only [empty, if_pos, FeedState.finish]
    refine ⟨⟨⟨following.aware, inside, by simp, ?_, by simp [FeedPhase.line],
      old, new, pending, ahead.transformed, ahead.old, ahead.completed, ?_⟩,
      by simp, sound.emitted, by simp, rfl, rfl, rfl⟩, ?_⟩
    · intro _
      simp only [FeedPhase.line, empty, List.length_nil] at counted count ⊢
      omega
    · simpa [FeedPhase.line, empty] using front
    · intro more
      rw [drained, atEnd, empty] at moved
      exact absurd moved more
  · cases taken : takeLine newline buffer with
    | some parts =>
        obtain ⟨rest, left⟩ := parts
        obtain ⟨ends, rfl⟩ := takeLine_spec taken
        have whole : IsLine newline (line ++ rest) :=
          ends.append_left none_inside
        have begins : state.phase.line ++ state.buffer ++
            state.file.drop state.position =
            (line ++ rest) ++ (left ++ state.file.drop position) := by
          simp only [phase, FeedPhase.line, List.append_assoc, ← moved]
        obtain ⟨others, rfl, behind, readable⟩ :=
          ahead.first sound whole begins
        simp only [empty, if_false, finish_line whole readable]
        have taken : 0 < rest.length :=
          List.length_pos_of_ne_nil ends.ne_nil
        rw [List.length_append] at count
        refine ⟨⟨⟨following.aware, inside, by simp, ?_, by simp [FeedPhase.line],
          old, new ++ [line ++ rest], others, ?_, ahead.old, ?_, ?_⟩,
          by simp, sound.emitted_append _, ?_, rfl, rfl, rfl⟩, fun _ => ?_⟩
        · intro _
          simp only [FeedPhase.line, List.length_append, List.length_nil]
          omega
        · rw [ahead.transformed, List.append_assoc]
        · rw [ahead.completed, List.append_assoc, List.singleton_append]
        · exact behind
        · intro _
          simp only [List.length_append]
          omega
        · simp only [FeedState.toGo, phase, FeedPhase.line, List.length_drop,
            List.length_nil]
          omega
    | none =>
        have unended : newline ∉ buffer := takeLine_eq_none.mp taken
        have some_read : 0 < buffer.length := List.length_pos_of_ne_nil empty
        simp only [empty, if_false]
        refine ⟨⟨⟨following.aware, inside, by simp, ?_, ?_, old, new, pending,
          ahead.transformed, ahead.old, ahead.completed, ?_⟩,
          by simp, sound.emitted, by simp, rfl, rfl, rfl⟩, fun _ => ?_⟩
        · intro _
          simp only [FeedPhase.line, List.length_append, List.length_nil]
          omega
        · simp [FeedPhase.line, none_inside, unended]
        · simpa [FeedPhase.line] using front
        · simp only [FeedState.toGo, phase, FeedPhase.line, List.length_drop,
            List.length_append, List.length_nil]
          omega

/-- A feed whose file was cut reads at most the line it has in its buffer. -/
theorem Cut.readMore (cut : Cut state) (sound : Sound state)
    (phase : state.phase = .reading []) :
    Sound (state.readMore []) ∧ Cut (state.readMore []) ∧
      (state.readMore []).phase = .checking ∧
      (state.readMore []).completed = state.completed ∧
      (state.readMore []).before = state.before := by
  have shorter := cut.shorter
  have count := cut.count
  rcases cut.phase with checking | ⟨_, buffer⟩
  · simp [phase] at checking
  rcases buffer with empty | ended
  · rw [empty, List.length_nil, Nat.add_zero] at count
    have short : state.file.length < state.lastLen := by
      simpa [FeedState.lastLenAtCheck, phase, empty, takeLine] using shorter
    have none_left : state.file.drop state.position = [] :=
      List.drop_eq_nil_of_le (by omega)
    have step : state.readMore [] = { state with phase := .checking } := by
      simp [FeedState.readMore, FeedState.fillBuf, FeedState.finish, empty,
        none_left]
    rw [step]
    have cut : Cut { state with phase := .checking } :=
      ⟨cut.stale, cut.read, .inl rfl, short, cut.count, cut.file, cut.old,
        by simp⟩
    exact ⟨⟨sound.emitted, sound.unfinished, sound.lines, sound.begun,
      .inr ⟨by simp, .inr cut⟩⟩, cut, rfl, rfl, rfl⟩
  · have some_left : state.buffer ≠ [] := List.ne_nil_of_mem ended
    obtain ⟨⟨line, rest⟩, taken⟩ : ∃ parts,
        takeLine newline state.buffer = some parts := by
      rw [← Option.ne_none_iff_exists']
      exact fun none => takeLine_eq_none.mp none ended
    obtain ⟨whole, parts⟩ := takeLine_spec taken
    obtain ⟨kept, readable⟩ := cut.next phase line rest taken
    have step : state.readMore [] = { state with
        buffer := rest
        phase := .checking
        lastLen := state.lastLen + line.length
        transformed := state.transformed ++ [line]
        emitted := state.emitted ++ (transformLine line).toList } := by
      simp only [FeedState.readMore, FeedState.fillBuf, some_left, if_false,
        taken, List.nil_append, finish_line whole readable]
    have some_taken : 0 < line.length :=
      List.length_pos_of_ne_nil whole.ne_nil
    have short : state.file.length < state.lastLen + line.length := by
      simpa [FeedState.lastLenAtCheck, phase, taken] using shorter
    rw [step]
    rw [parts, List.length_append] at count
    have cut : Cut { state with
        buffer := rest
        phase := .checking
        lastLen := state.lastLen + line.length
        transformed := state.transformed ++ [line]
        emitted := state.emitted ++ (transformLine line).toList } :=
      ⟨cut.stale, cut.read, .inl rfl, short, by simp only; omega, cut.file,
        kept, by simp⟩
    exact ⟨⟨sound.emitted_append line, sound.unfinished, sound.lines,
      fun _ => Nat.add_pos_right _ some_taken, .inr ⟨by simp, .inr cut⟩⟩,
      cut, rfl, rfl, rfl⟩

/-- While lines are pending the feed comes closer to the end of its file. -/
theorem Following.proceed (following : Following state) (sound : Sound state)
    (started : state.phase ≠ .waiting) {old new pending : List Bytes}
    {line : Bytes} (ahead : Ahead state old new (line :: pending)) :
    Proceeds state state.proceed ∧ state.proceed.toGo < state.toGo := by
  have whole : IsLine newline line := by
    refine (sound.lines line ?_).1
    rw [ahead.completed]
    exact List.mem_append_right _ List.mem_cons_self
  have ends : newline ∈ state.phase.line ++ state.buffer ++
      state.file.drop state.position := by
    rw [ahead.bytes]
    simp [whole.terminator_mem]
  cases phase : state.phase with
  | waiting => exact absurd phase started
  | measuring =>
      have step : state.proceed = { state with
          lastLen := state.file.length, phase := .checking } := by
        simp [FeedState.proceed, FeedPhase.action, logFeed, phase]
      obtain ⟨_, empty⟩ := following.measuring phase
      rw [step]
      refine ⟨⟨following.measure phase, by simp, sound.emitted,
        fun filled => absurd empty filled, rfl, rfl, rfl⟩, ?_⟩
      simp [FeedState.toGo, phase, FeedPhase.line]
  | checking =>
      obtain ⟨checked, following⟩ := following.check phase true true
      have step : state.proceed = { state with phase := .reading [] } := by
        simp [FeedState.proceed, FeedPhase.action, logFeed, phase, checked]
      rw [step]
      refine ⟨⟨following, by simp, sound.emitted, sound.begun, rfl, rfl, rfl⟩,
        ?_⟩
      simp [FeedState.toGo, phase, FeedPhase.line]
  | reading bytes =>
      have step : state.proceed = state.readMore bytes := by
        simp [FeedState.proceed, FeedPhase.action, logFeed, phase]
      have orderly : Orderly state .readMore := by
        intro empty
        obtain ⟨buffer, position, filled, _, _, _, _, ended⟩ :=
          fillBuf_spec state
        rw [filled] at empty
        obtain ⟨drained, atEnd⟩ := ended empty
        rw [drained, atEnd, List.append_nil, List.append_nil] at ends
        exact absurd ends following.line
      obtain ⟨proceeds, closer⟩ := following.readMore sound phase orderly
      rw [step]
      exact ⟨proceeds, closer (List.ne_nil_of_mem ends)⟩

theorem Following.caughtUp (following : Following state) (sound : Sound state)
    (started : state.phase ≠ .waiting) : ∃ rounds old,
      (FeedState.proceed^[rounds] state).transformed = old ++ state.completed ∧
        old.Sublist state.before := by
  induction far : state.toGo using Nat.strongRecOn generalizing state with
  | ind far closer =>
      obtain ⟨old, new, pending, ahead⟩ := following.ahead
      cases pending with
      | nil =>
          refine ⟨0, old, ?_, ahead.old⟩
          rw [ahead.completed, List.append_nil]
          exact ahead.transformed
      | cons line pending =>
          obtain ⟨proceeds, less⟩ := following.proceed sound started ahead
          obtain ⟨rounds, old, reached, older⟩ := closer _ (far ▸ less)
            proceeds.following (proceeds.sound sound) proceeds.started rfl
          rw [proceeds.completed, ← Function.iterate_succ_apply] at reached
          exact ⟨rounds + 1, old, reached, proceeds.before ▸ older⟩

theorem Cut.check_sound (cut : Cut state) (sound : Sound state)
    (phase : state.phase = .checking) :
    Sound (state.check true true) ∧
      (state.check true true).phase ≠ .waiting ∧
      (state.check true true).completed = state.completed ∧
      (state.check true true).before = state.before := by
  have following := cut.check phase
  have shorter : state.file.length < state.lastLen := by
    simpa [FeedState.lastLenAtCheck, phase] using cut.shorter
  have noticed : state.check true true = { state with
      position := 0, buffer := [], lastLen := 0, stale := false
      phase := .reading [] } := by
    simp [FeedState.check, shorter]
  rw [noticed] at following ⊢
  exact ⟨⟨sound.emitted, sound.unfinished, sound.lines, absurd rfl,
    .inr ⟨by simp, .inl following⟩⟩, by simp, rfl, rfl⟩

theorem Cut.caughtUp_checking (cut : Cut state) (sound : Sound state)
    (phase : state.phase = .checking) : ∃ rounds old,
      (FeedState.proceed^[rounds] state).transformed = old ++ state.completed ∧
        old.Sublist state.before := by
  obtain ⟨noticed, started, completed, before⟩ := cut.check_sound sound phase
  obtain ⟨rounds, old, reached, older⟩ :=
    (cut.check phase).caughtUp noticed started
  have step : state.proceed = state.check true true := by
    simp [FeedState.proceed, FeedPhase.action, logFeed, phase]
  rw [completed, ← step, ← Function.iterate_succ_apply] at reached
  exact ⟨rounds + 1, old, reached, before ▸ older⟩

theorem Cut.caughtUp (cut : Cut state) (sound : Sound state) :
    ∃ rounds old,
      (FeedState.proceed^[rounds] state).transformed = old ++ state.completed ∧
        old.Sublist state.before := by
  rcases cut.phase with checking | ⟨reading, _⟩
  · exact cut.caughtUp_checking sound checking
  · obtain ⟨soundNext, cutNext, phase, completed, before⟩ :=
      cut.readMore sound reading
    obtain ⟨rounds, old, reached, older⟩ :=
      cutNext.caughtUp_checking soundNext phase
    have step : state.proceed = state.readMore [] := by
      simp [FeedState.proceed, FeedPhase.action, logFeed, reading]
    rw [completed, ← step, ← Function.iterate_succ_apply] at reached
    exact ⟨rounds + 1, old, reached, before ▸ older⟩

theorem Sound.delivered (sound : Sound state) : Delivered state := by
  rcases sound.standing with idle | ⟨started, following | cut⟩
  · refine ⟨⟨[], [], idle.transformed, List.nil_sublist _, List.nil_prefix⟩,
      ⟨0, [], ?_, List.nil_sublist _⟩, sound.emitted⟩
    rw [idle.completed]
    exact idle.transformed
  · obtain ⟨old, new, pending, ahead⟩ := following.ahead
    exact ⟨⟨old, new, ahead.transformed, ahead.old,
      pending, ahead.completed.symm⟩, following.caughtUp sound started,
      sound.emitted⟩
  · exact ⟨⟨state.transformed, [], (List.append_nil _).symm, cut.old,
      List.nil_prefix⟩, cut.caughtUp sound, sound.emitted⟩

/-- An orderly step keeps what holds. -/
theorem Sound.next (sound : Sound state) {action : FeedAction}
    {after : FeedState} (orderly : Orderly state action)
    (stepped : logFeed.next state action = some after) : Sound after := by
  cases action with
  | append bytes =>
      cases stepped
      exact sound.append orderly
  | truncate =>
      cases stepped
      exact sound.truncate orderly
  | seek =>
      simp only [logFeed] at stepped
      split_ifs at stepped with waiting
      cases stepped
      rcases sound.standing with idle | ⟨started, _⟩
      · exact ⟨sound.emitted, sound.unfinished, sound.lines, sound.begun,
          .inr ⟨by simp, .inl (idle.seek orderly)⟩⟩
      · exact absurd waiting started
  | measure known =>
      have length : (if known then state.file.length else 0) =
          state.file.length := by
        rcases orderly with rfl | empty
        · rfl
        · simp [empty]
      simp only [logFeed, length] at stepped
      split_ifs at stepped with measuring
      cases stepped
      rcases sound.standing with idle | ⟨_, following | cut⟩
      · exact absurd (measuring.symm.trans idle.phase) (by simp)
      · obtain ⟨_, empty⟩ := following.measuring measuring
        exact ⟨sound.emitted, sound.unfinished, sound.lines,
          fun filled => absurd empty filled,
          .inr ⟨by simp, .inl (following.measure measuring)⟩⟩
      · rcases cut.phase with checking | ⟨reading, _⟩
        · exact absurd (measuring.symm.trans checking) (by simp)
        · exact absurd (measuring.symm.trans reading) (by simp)
  | check known opened =>
      simp only [logFeed] at stepped
      split_ifs at stepped with checking
      cases stepped
      rcases sound.standing with idle | ⟨_, following | cut⟩
      · exact absurd (checking.symm.trans idle.phase) (by simp)
      · obtain ⟨checked, following⟩ :=
          following.check checking known opened
        rw [checked]
        exact ⟨sound.emitted, sound.unfinished, sound.lines, sound.begun,
          .inr ⟨by simp, .inl following⟩⟩
      · obtain ⟨rfl, rfl⟩ := orderly cut.stale
        exact (cut.check_sound sound checking).1
  | readMore =>
      simp only [logFeed] at stepped
      split at stepped
      case h_1 line reading =>
        cases stepped
        rcases sound.standing with idle | ⟨_, following | cut⟩
        · exact absurd (reading.symm.trans idle.phase) (by simp)
        · exact (following.readMore sound reading orderly).1.sound sound
        · rcases cut.phase with checking | ⟨between, _⟩
          · exact absurd (reading.symm.trans checking) (by simp)
          · cases reading.symm.trans between
            exact (cut.readMore sound reading).1
      case h_2 => cases stepped

theorem sound_of_initial (initial : logFeed.Initial state) : Sound state := by
  obtain ⟨_, position, buffer, _, phase, transformed, emitted, unfinished,
    completed, _, stale⟩ := initial
  exact ⟨by simp [emitted, transformed], by simp [unfinished],
    by simp [completed], absurd buffer,
    .inl ⟨phase, position, buffer, transformed, completed, stale⟩⟩

end Feed

/-- In an orderly run every line is delivered. -/
theorem delivered_of_orderly {state : FeedState}
    (reached : logFeed.ReachableUnder Orderly state) : Delivered state := by
  have sound : Sound state := by
    refine reached.invariant (fun _ => sound_of_initial) ?_
    intro state action after sound orderly stepped
    exact sound.next orderly stepped
  exact sound.delivered

/-! ## A line in two pieces -/

def emptyFeed : FeedState where
  file := []
  position := 0
  buffer := []
  lastLen := 0
  phase := .waiting
  transformed := []
  emitted := []
  unfinished := []
  completed := []
  before := []
  stale := false

theorem initial_emptyFeed : logFeed.Initial emptyFeed :=
  ⟨rfl, rfl, rfl, rfl, rfl, rfl, rfl, rfl, rfl, rfl, rfl⟩

/-- An entry with the fewest fields. -/
def accessLine : Bytes := "ts,-,10.0.0.9,http://x/,-,GET\n".toUTF8.toList

/-- A line before and one after a rotation, the second in two pieces. -/
def orderlyFeed : List FeedAction :=
  [.append accessLine, .seek, .measure true, .append accessLine,
    .check true true, .readMore, .check true true, .readMore, .truncate,
    .append (accessLine.take 4), .check true true, .append (accessLine.drop 4),
    .readMore, .check false true, .readMore]

def fedState : Option FeedState := logFeed.run emptyFeed orderlyFeed

theorem fedState_taken : fedState.isSome = true := by decide +kernel

theorem fedState_delivered : Delivered (fedState.get fedState_taken) :=
  delivered_of_orderly <|
    .run (.initial initial_emptyFeed) orderlyFeed (by decide +kernel)
      (Option.some_get _).symm

/-- The feed meets the end of its file in the middle of a line. -/
def halvedFeed : List FeedAction :=
  [.seek, .measure true, .append (accessLine.take 4), .check true true,
    .readMore, .readMore, .append (accessLine.drop 4), .check true true,
    .readMore]

def halvedState : Option FeedState := logFeed.run emptyFeed halvedFeed

theorem halvedState_taken : halvedState.isSome = true := by decide +kernel

theorem halved_line_not_delivered :
    ∃ state, logFeed.Reachable state ∧ ¬ Delivered state := by
  refine ⟨halvedState.get halvedState_taken, ?_, fun delivered => ?_⟩
  · exact reachable_of_run initial_emptyFeed halvedFeed
      (Option.some_get _).symm
  · obtain ⟨old, new, transformed, older, newer⟩ := delivered.once
    have before : (halvedState.get halvedState_taken).before = [] := by
      decide +kernel
    have completed : (halvedState.get halvedState_taken).completed =
        [accessLine] := by
      decide +kernel
    have twice : (halvedState.get halvedState_taken).transformed.length = 2 :=
      by decide +kernel
    rw [before] at older
    rw [completed] at newer
    rw [transformed, List.sublist_nil.mp older, List.nil_append] at twice
    have short := newer.length_le
    rw [twice] at short
    exact absurd short (by decide)

end QuartzFire.ContentFiltering
