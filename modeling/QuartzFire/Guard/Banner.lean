import QuartzFire.Foundation.TransitionSystem
import Mathlib.Data.List.Basic

/-!
# The guard banner

The interface keeps what the banner shows in one slot.  Applies, confirms,
reverts and syncs are asynchronous: each sends a request, waits, and writes the
slot when its response is processed, with whatever the others wrote in between.
The backend is taken as the banner meets it, by the answers of its endpoints.
-/

namespace QuartzFire.Guard.Banner

open TransitionSystem

/-! ## The backend -/

structure Change where
  /-- Changes are numbered as they begin; the ids of the code are taken never
  to repeat. -/
  id : Nat
  description : String
  deriving DecidableEq

inductive Ending where
  | confirmed
  | reverted
  | revertFailed
  deriving DecidableEq

structure LastOutcome where
  ending : Ending
  description : String
  error : Option String
  deriving DecidableEq

structure Backend where
  pending : Option Change
  reverting : Bool
  last : Option LastOutcome
  /-- How many changes have begun. -/
  begun : Nat
  deriving DecidableEq

namespace Backend

def isPending (backend : Backend) : Bool :=
  backend.pending.isSome || backend.reverting

/-- `begin_pending` -/
def beginPending (backend : Backend) (description : String) :
    Backend × Change :=
  let change := ⟨backend.begun, description⟩
  ({ backend with pending := some change, begun := backend.begun + 1 }, change)

/-- The change is taken out of the slot if it is still there. -/
def take (backend : Backend) (id : Nat) : Option Backend :=
  if (backend.pending.map Change.id) = some id then
    some { backend with pending := none }
  else none

end Backend

/-! ## The slot -/

inductive Busy where
  | confirm
  | revert
  deriving DecidableEq

inductive GuardState where
  | idle
  | pending (change : Change) (busy : Option Busy) (error : Option String)
  /-- The question of the call with this number. -/
  | lockout (reasons : List String) (call : Nat)
  | reverted (description : String)
  | revertFailed (description error : String)
  deriving DecidableEq

def registerPending (change : Change) : GuardState :=
  .pending change none none

/-- What `/guard/pending` answers. -/
structure Status where
  pending : Option Change
  last : Option LastOutcome
  /-- How long ago the last outcome was. -/
  agoSecs : Nat
  /-- How many changes had begun then. -/
  begun : Nat
  deriving DecidableEq

/-- `syncPending`, once the answer is there. -/
def synced (slot : GuardState) (body : Status) : GuardState :=
  match slot with
  -- Never clobber the lockout dialog.
  | .lockout _ _ => slot
  | _ =>
      match body.pending with
      | some change =>
          match slot with
          | .pending _ (some _) _ => slot
          | _ => registerPending change
      | none =>
          let wasCountingDown := slot matches .pending _ _ _
          let recent := body.last.isSome && body.agoSecs ≤ 300
          if wasCountingDown || (slot = .idle && recent) then
            match body.last with
            | some ⟨.reverted, description, _⟩ => .reverted description
            | some ⟨.revertFailed, description, error⟩ =>
                .revertFailed description (error.getD "unknown error")
            | _ => if wasCountingDown then .idle else slot
          else slot

/-! ## Operations -/

inductive Response where
  /-- The change that an apply began. -/
  | begun (change : Change)
  | lockedOut (reasons : List String)
  | status (body : Status)
  | confirmed (bootSaved : Bool) (error : Option String)
  | reverted
  /-- Refused, failed or lost. -/
  | failed (error : String)
  deriving DecidableEq

inductive Request where
  | apply (description : String) (overrideLockout : Bool)
  | pending
  | confirm (change : Change)
  | revert (change : Change)
  deriving DecidableEq

/-- How far an operation is. -/
inductive Stage where
  | sent
  /-- The backend is past its checks. -/
  | serving
  | answered (response : Response)
  /-- A call that waits for the user. -/
  | asking
  | finished
  deriving DecidableEq

/-- The apply that is sent after the user has said to proceed. -/
def Request.overriding : Request → Request
  | .apply description _ => .apply description true
  | request => request

structure Op where
  request : Request
  stage : Stage
  deriving DecidableEq

structure BannerState where
  backend : Backend
  slot : GuardState
  ops : List Op
  /-- The latest change that a processed response reported and none has since
  said to be resolved. -/
  reported : Option Nat
  deriving DecidableEq

inductive Action where
  /-- `guardedCommitAndSave` -/
  | call (description : String)
  | answer (proceed : Bool)
  | clickConfirm
  | clickRevert
  /-- The expiry timer, or the banner is mounted. -/
  | sync
  | dismiss
  /-- The backend goes on with a request; `ok` says how a VyOS call in it ends,
  `reasons` what the lockout check finds. -/
  | serve (op : Nat) (ok : Bool) (reasons : List String) (agoSecs : Nat)
  | lose (op : Nat) (error : String)
  | deliver (op : Nat)
  /-- The window of the pending change ends. -/
  | expire
  /-- A revert that no request waits for ends. -/
  | settle (ok : Bool) (description : String)
  /-- Another session begins a change or takes one out of the slot. -/
  | beginElsewhere (description : String)
  | takeElsewhere
  deriving DecidableEq

namespace Op

def pendingConflict : String :=
  "Another change is awaiting confirmation — confirm or revert it first."

/-- A request as the backend goes on with it. -/
def serve (op : Op) (backend : Backend) (ok : Bool) (reasons : List String)
    (agoSecs : Nat) : Option (Backend × Stage) :=
  match op.stage, op.request with
  | .sent, .apply _ overrideLockout =>
      if backend.isPending then
        some (backend, .answered (.failed pendingConflict))
      else if !overrideLockout && reasons ≠ [] then
        some (backend, .answered (.lockedOut reasons))
      else some (backend, .serving)
  | .serving, .apply description _ =>
      if ok then
        some ((backend.beginPending description).1,
          .answered (.begun (backend.beginPending description).2))
      else some (backend, .answered (.failed "VyOS API error"))
  | .sent, .pending =>
      some (backend, .answered (.status
        ⟨backend.pending, backend.last, agoSecs, backend.begun⟩))
  | .sent, .confirm change =>
      match backend.take change.id with
      | some backend => some (backend, .serving)
      | none => some (backend, .answered (.failed "No such change is pending."))
  | .serving, .confirm change =>
      let error := if ok then none else some "VyOS API error"
      some ({ backend with
          last := some ⟨.confirmed, change.description, error⟩ },
        .answered (.confirmed ok error))
  | .sent, .revert change =>
      match backend.take change.id with
      | some backend => some ({ backend with reverting := true }, .serving)
      | none => some (backend, .answered (.failed "No such change is pending."))
  | .serving, .revert change =>
      if ok then
        some ({ backend with
            reverting := false
            last := some ⟨.reverted, change.description, none⟩ },
          .answered .reverted)
      else
        some ({ backend with
            reverting := false
            last := some ⟨.revertFailed, change.description,
              some "VyOS API error"⟩ },
          .answered (.failed "revert failed"))
  | _, _ => none

/-- The failure of a request that is on its way. -/
def inFlight (op : Op) : Bool :=
  match op.stage with
  | .sent | .serving | .answered _ => true
  | .asking | .finished => false

end Op

/-! ## Processing a response -/

def GuardState.isLockout (slot : GuardState) : Bool :=
  slot matches .lockout _ _

def GuardState.isBusy (slot : GuardState) : Bool :=
  slot matches .pending _ (some _) _

/-- The slot and the stage of the operation after its response, and whether a
sync is started. -/
def continued (slot : GuardState) (index : Nat) :
    Request → Response → GuardState × Stage × Bool
  | .apply _ _, .begun change => (registerPending change, .finished, false)
  | .apply _ false, .lockedOut reasons =>
      (.lockout reasons index, .asking, false)
  | .pending, .status body => (synced slot body, .finished, false)
  | .confirm _, .confirmed true _ => (.idle, .finished, false)
  | .confirm change, .confirmed false error =>
      (.revertFailed change.description (error.getD "unknown error"),
        .finished, false)
  | .revert change, .reverted =>
      (.reverted change.description, .finished, false)
  | .confirm change, .failed error | .revert change, .failed error =>
      (.pending change none (some error), .finished, true)
  | _, _ => (slot, .finished, false)

/-- The change that the banner has to show after a response, whether or not the
slot took it in. -/
def reportedAfter (reported : Option Nat) :
    Request → Response → Option Nat
  | .apply _ _, .begun change => some (max (reported.getD 0) change.id)
  | .pending, .status body =>
      match body.pending with
      | some change => some (max (reported.getD 0) change.id)
      | none => reported.filter (body.begun ≤ ·)
  | .confirm change, .confirmed _ _ | .revert change, .reverted =>
      reported.filter (· ≠ change.id)
  | _, _ => reported

namespace BannerState

def put (state : BannerState) (index : Nat) (op : Op) : BannerState :=
  { state with ops := state.ops.set index op }

def start (state : BannerState) (request : Request) : BannerState :=
  { state with ops := state.ops ++ [⟨request, .sent⟩] }

def process (state : BannerState) (index : Nat) (request : Request)
    (response : Response) : BannerState :=
  let (slot, stage, resync) := continued state.slot index request response
  let state := { state with
    slot := slot
    reported := reportedAfter state.reported request response }.put
      index ⟨request, stage⟩
  if resync then state.start .pending else state

def click (state : BannerState) (busy : Busy) : Option BannerState :=
  match state.slot with
  | .pending change _ _ =>
      some ({ state with slot := .pending change (some busy) none }.start
        (match busy with
          | .confirm => .confirm change
          | .revert => .revert change))
  | _ => none

/-- The user answers the question that is shown. -/
def answer (state : BannerState) (proceed : Bool) : Option BannerState :=
  match state.slot with
  | .lockout _ index => do
      let op ← state.ops[index]?
      if op.stage = .asking then
        return { state with slot := .idle }.put index
          (if proceed then ⟨op.request.overriding, .sent⟩
          else { op with stage := .finished })
      else none
  | _ => none

def next (state : BannerState) : Action → Option BannerState
  | .call description => some (state.start (.apply description false))
  | .answer proceed => state.answer proceed
  | .clickConfirm => state.click .confirm
  | .clickRevert => state.click .revert
  | .sync => some (state.start .pending)
  | .dismiss =>
      match state.slot with
      | .reverted _ | .revertFailed _ _ => some { state with slot := .idle }
      | _ => none
  | .serve index ok reasons agoSecs => do
      let op ← state.ops[index]?
      let (backend, stage) ← op.serve state.backend ok reasons agoSecs
      return { state with backend := backend }.put index { op with stage := stage }
  | .lose index error => do
      let op ← state.ops[index]?
      if op.inFlight then some (state.process index op.request (.failed error))
      else none
  | .deliver index => do
      let op ← state.ops[index]?
      match op.stage with
      | .answered response => some (state.process index op.request response)
      | _ => none
  | .expire => do
      let change ← state.backend.pending
      let backend ← state.backend.take change.id
      return { state with backend := { backend with reverting := true } }
  | .settle ok description =>
      if state.backend.reverting then
        some { state with backend := { state.backend with
          reverting := false
          last := some (if ok then ⟨.reverted, description, none⟩
            else ⟨.revertFailed, description, some "VyOS API error"⟩) } }
      else none
  | .beginElsewhere description =>
      some { state with backend := (state.backend.beginPending description).1 }
  | .takeElsewhere =>
      some { state with backend := { state.backend with pending := none } }

end BannerState

def guardBanner : TransitionSystem BannerState Action where
  Initial state := state.slot = .idle ∧ state.ops = [] ∧ state.reported = none
  next := BannerState.next

/-! ## What the banner must not lose -/

/-- The slot shows the change with this number. -/
def GuardState.Shows (slot : GuardState) (id : Nat) : Prop :=
  ∃ change busy error, slot = .pending change busy error ∧ change.id = id

/-- Every open question is the one that is shown, and so is the latest change
that was reported and not yet said to be resolved. -/
structure NothingLost (state : BannerState) : Prop where
  asked : ∀ (index : Nat) op, state.ops[index]? = some op →
    op.stage = .asking → ∃ reasons, state.slot = .lockout reasons index
  shown : ∀ id ∈ state.reported, state.slot.Shows id

/-- What the response is about is no older than what the banner has to show, and
it takes no open question away. -/
def Fits (slot : GuardState) (reported : Option Nat) :
    Request → Response → Prop
  | .apply _ _, .begun change =>
      slot.isLockout = false ∧ ∀ id ∈ reported, id ≤ change.id
  | .apply _ false, .lockedOut _ => slot.isLockout = false ∧ reported = none
  | .pending, .status body =>
      match body.pending with
      | some change =>
          slot.isLockout = false ∧
            if slot.isBusy then
              slot.Shows change.id ∨ ∃ id ∈ reported, change.id < id
            else ∀ id ∈ reported, id ≤ change.id
      | none => ∀ id ∈ reported, id < body.begun
  | .confirm change, _ | .revert change, _ =>
      slot.isLockout = false ∧ ∀ id ∈ reported, id = change.id
  | _, _ => True

def ResponsesFit (state : BannerState) : Action → Prop
  | .deliver index => ∀ op ∈ state.ops[index]?,
      match op.stage with
      | .answered response =>
          Fits state.slot state.reported op.request response
      | _ => True
  | .lose index error => ∀ op ∈ state.ops[index]?, op.inFlight = true →
      Fits state.slot state.reported op.request (.failed error)
  | _ => True

/-! ### One response -/

section Processing

variable {slot : GuardState} {reported : Option Nat} {index : Nat}
  {request : Request} {response : Response}

/-- An open question survives every response that fits. -/
theorem continued_lockout (fits : Fits slot reported request response)
    (asked : slot.isLockout = true) :
    (continued slot index request response).1 = slot := by
  unfold continued
  split
  case h_3 =>
    cases slot <;> first | rfl | cases asked
  case h_9 => rfl
  all_goals
    simp only [Fits] at fits
    rw [fits.1] at asked
    cases asked

theorem continued_asking
    (asks : (continued slot index request response).2.1 = .asking) :
    ∃ reasons, (continued slot index request response).1 =
      .lockout reasons index := by
  unfold continued at asks ⊢
  split at asks
  case h_2 reasons => exact ⟨reasons, rfl⟩
  all_goals cases asks

theorem registerPending_shows (change : Change) :
    (registerPending change).Shows change.id :=
  ⟨change, none, none, rfl, rfl⟩

theorem max_reported {change : Change}
    (newest : ∀ id ∈ reported, id ≤ change.id) :
    max (reported.getD 0) change.id = change.id := by
  cases reported with
  | none => exact Nat.zero_max _
  | some id => exact Nat.max_eq_right (newest id rfl)

theorem filter_eq_none {keep : Nat → Bool}
    (gone : ∀ id ∈ reported, keep id = false) :
    reported.filter keep = none := by
  cases reported with
  | none => rfl
  | some id => simp [gone id rfl]

theorem GuardState.Shows.pending {change : Change} {busy error} {id : Nat}
    (shows : (GuardState.pending change busy error).Shows id) :
    change.id = id := by
  obtain ⟨_, _, _, same, rfl⟩ := shows
  cases same
  rfl

/-- A click that is in flight keeps its change on the banner, and a status that
fits is about that change or an older one. -/
theorem busy_shows {change : Change}
    (shown : ∀ id ∈ reported, slot.Shows id)
    (same : slot.Shows change.id ∨ ∃ id ∈ reported, change.id < id) :
    slot.Shows (max (reported.getD 0) change.id) := by
  cases reported with
  | none =>
      obtain shows | ⟨_, known, _⟩ := same
      · simpa using shows
      · cases known
  | some latest =>
      have shows := shown latest rfl
      have newest : change.id ≤ latest := by
        obtain this | ⟨id, known, older⟩ := same
        · obtain ⟨_, _, _, rfl, rfl⟩ := shows
          exact Nat.le_of_eq this.pending.symm
        · cases known
          exact Nat.le_of_lt older
      simpa [Nat.max_eq_left newest] using shows

/-- A status that fits leaves what has to be shown on the banner. -/
theorem synced_shows {body : Status}
    (shown : ∀ id ∈ reported, slot.Shows id)
    (fits : Fits slot reported .pending (.status body)) :
    ∀ id ∈ reportedAfter reported .pending (.status body),
      (synced slot body).Shows id := by
  intro id member
  obtain ⟨pending, last, agoSecs, begun⟩ := body
  cases pending with
  | none =>
      simp only [Fits] at fits
      simp only [reportedAfter] at member
      rw [filter_eq_none fun id known => by
        simpa using fits id known] at member
      cases member
  | some change =>
      obtain ⟨noQuestion, newest⟩ := fits
      simp only [reportedAfter, Option.mem_some_iff] at member
      rw [← member]
      cases slot with
      | lockout => cases noQuestion
      | pending current busy error =>
          cases busy with
          | some busy => exact busy_shows shown newest
          | none =>
              rw [max_reported newest]
              exact registerPending_shows change
      | idle | reverted | revertFailed =>
          rw [max_reported newest]
          exact registerPending_shows change

/-- So does every response that fits. -/
theorem continued_shows (shown : ∀ id ∈ reported, slot.Shows id)
    (fits : Fits slot reported request response) :
    ∀ id ∈ reportedAfter reported request response,
      (continued slot index request response).1.Shows id := by
  intro id member
  unfold continued
  split
  case h_1 change =>
    simp only [reportedAfter, Option.mem_some_iff] at member
    rw [← member, max_reported fits.2]
    exact registerPending_shows change
  case h_2 =>
    simp only [Fits] at fits
    simp only [reportedAfter, fits.2] at member
    cases member
  case h_3 body => exact synced_shows shown fits id member
  case h_4 | h_5 | h_6 =>
    simp only [Fits] at fits
    simp only [reportedAfter] at member
    rw [filter_eq_none fun id known => by
      simpa using fits.2 id known] at member
    cases member
  case h_7 | h_8 =>
    simp only [Fits] at fits
    simp only [reportedAfter] at member
    exact ⟨_, _, _, rfl, (fits.2 id member).symm⟩
  case h_9 noBegun _ noStatus confirmedTrue confirmedFalse noReverted _ _ =>
    -- Nothing is reported, and the slot stays.
    unfold reportedAfter at member
    split at member
    case h_1 => exact (noBegun _ _ _ rfl rfl).elim
    case h_2 => exact (noStatus _ rfl rfl).elim
    case h_3 saved _ _ _ _ =>
      cases saved with
      | true => exact (confirmedTrue _ _ rfl rfl).elim
      | false => exact (confirmedFalse _ _ rfl rfl).elim
    case h_4 => exact (noReverted _ rfl rfl).elim
    case h_5 => exact shown id member

end Processing

/-! ### One step -/

theorem Op.serve_stage {op : Op} {backend after : Backend} {ok : Bool}
    {reasons : List String} {agoSecs : Nat} {stage : Stage}
    (served : op.serve backend ok reasons agoSecs = some (after, stage)) :
    stage ≠ .asking ∧ stage ≠ .finished := by
  unfold Op.serve at served
  split at served <;> (try split at served) <;> (try split at served)
  all_goals first
    | (simp only [Option.some.injEq, Prod.mk.injEq] at served
       obtain ⟨_, rfl⟩ := served
       exact ⟨nofun, nofun⟩)
    | cases served

namespace NothingLost

variable {state : BannerState}

theorem start (lost : NothingLost state) (request : Request) :
    NothingLost (state.start request) where
  asked index op found asking := by
    simp only [BannerState.start, List.getElem?_append] at found
    split at found
    · exact lost.asked index op found asking
    · rw [List.getElem?_singleton] at found
      split at found
      · cases found
        cases asking
      · cases found
  shown := lost.shown

/-- A new slot must keep the question of every other call. -/
theorem put (lost : NothingLost state) {slot : GuardState}
    {reported : Option Nat} {index : Nat} {op : Op}
    (kept : ∀ reasons other, other ≠ index →
      state.slot = .lockout reasons other → slot = state.slot)
    (asks : op.stage = .asking → ∃ reasons, slot = .lockout reasons index)
    (shown : ∀ id ∈ reported, slot.Shows id) :
    NothingLost
      ({ state with slot := slot, reported := reported }.put index op) where
  asked other found here asking := by
    simp only [BannerState.put, List.getElem?_set] at here
    split at here
    case isTrue same =>
      split at here
      · cases here
        exact same ▸ asks asking
      · cases here
    case isFalse different =>
      obtain ⟨reasons, question⟩ := lost.asked other found here asking
      exact ⟨reasons, (kept reasons other (Ne.symm different) question).trans
        question⟩
  shown := shown

theorem process (lost : NothingLost state) (index : Nat)
    {request : Request} {response : Response}
    (fits : Fits state.slot state.reported request response) :
    NothingLost (state.process index request response) := by
  have settled : NothingLost ({ state with
      slot := (continued state.slot index request response).1
      reported := reportedAfter state.reported request response }.put index
        ⟨request, (continued state.slot index request response).2.1⟩) := by
    refine lost.put (fun reasons other _ question => ?_) continued_asking
      (continued_shows lost.shown fits)
    exact continued_lockout fits (by rw [question]; rfl)
  unfold BannerState.process
  simp only
  split
  · exact settled.start .pending
  · exact settled

/-- While a question is shown, nothing else has to be. -/
theorem reported_none (lost : NothingLost state) {reasons : List String}
    {index : Nat} (question : state.slot = .lockout reasons index) :
    state.reported = none := by
  refine Option.eq_none_iff_forall_ne_some.mpr fun id known => ?_
  obtain ⟨_, _, _, shows, _⟩ := lost.shown id known
  rw [question] at shows
  cases shows

theorem answer (lost : NothingLost state) {proceed : Bool}
    {after : BannerState} (stepped : state.answer proceed = some after) :
    NothingLost after := by
  unfold BannerState.answer at stepped
  split at stepped
  case h_1 reasons index question =>
    simp only [Option.bind_eq_bind, Option.bind_eq_some_iff] at stepped
    obtain ⟨op, found, stepped⟩ := stepped
    split at stepped
    · cases stepped
      refine lost.put (fun _ other different shown => ?_) ?_ ?_
      · -- Only one question is shown.
        rw [question] at shown
        cases shown
        exact (different rfl).elim
      · cases proceed <;> nofun
      · simp [lost.reported_none question]
    · cases stepped
  case h_2 => cases stepped

/-- Where no question is shown, the slot may change as long as it shows what it
showed. -/
theorem slot (lost : NothingLost state) {slot : GuardState}
    (noQuestion : state.slot.isLockout = false)
    (shows : ∀ id, state.slot.Shows id → slot.Shows id) :
    NothingLost { state with slot := slot } where
  asked index op found asking := by
    obtain ⟨reasons, question⟩ := lost.asked index op found asking
    rw [question] at noQuestion
    cases noQuestion
  shown id known := shows id (lost.shown id known)

theorem click (lost : NothingLost state) {busy : Busy} {after : BannerState}
    (stepped : state.click busy = some after) : NothingLost after := by
  unfold BannerState.click at stepped
  split at stepped
  case h_1 change _ _ counting =>
    cases stepped
    refine (lost.slot (by rw [counting]; rfl) fun id shows => ?_).start _
    rw [counting] at shows
    exact ⟨change, some busy, none, rfl, shows.pending⟩
  case h_2 => cases stepped

theorem serve (lost : NothingLost state) {index : Nat} {op : Op}
    {backend : Backend} {stage : Stage} (progress : stage ≠ .asking) :
    NothingLost
      ({ state with backend := backend }.put index { op with stage := stage }) :=
  have moved : NothingLost { state with backend := backend } :=
    ⟨lost.asked, lost.shown⟩
  moved.put (fun _ _ _ _ => rfl) (fun asking => (progress asking).elim)
    lost.shown

theorem next (lost : NothingLost state) {action : Action}
    {after : BannerState} (fits : ResponsesFit state action)
    (stepped : state.next action = some after) : NothingLost after := by
  cases action with
  | call description => cases stepped; exact lost.start _
  | answer proceed => exact lost.answer stepped
  | clickConfirm => exact lost.click stepped
  | clickRevert => exact lost.click stepped
  | sync => cases stepped; exact lost.start _
  | dismiss =>
      simp only [BannerState.next] at stepped
      split at stepped
      case h_1 notice | h_2 notice =>
        cases stepped
        refine lost.slot (by rw [notice]; rfl) fun id shows => ?_
        obtain ⟨_, _, _, shown, _⟩ := shows
        rw [notice] at shown
        cases shown
      case h_3 => cases stepped
  | serve index ok reasons agoSecs =>
      simp only [BannerState.next, Option.bind_eq_bind,
        Option.bind_eq_some_iff] at stepped
      obtain ⟨op, _, ⟨backend, stage⟩, served, stepped⟩ := stepped
      cases stepped
      exact lost.serve (Op.serve_stage served).1
  | lose index error =>
      simp only [BannerState.next, Option.bind_eq_bind,
        Option.bind_eq_some_iff] at stepped
      obtain ⟨op, found, stepped⟩ := stepped
      split at stepped
      case isTrue waiting =>
        cases stepped
        exact lost.process index (fits op found waiting)
      case isFalse => cases stepped
  | deliver index =>
      simp only [BannerState.next, Option.bind_eq_bind,
        Option.bind_eq_some_iff] at stepped
      obtain ⟨op, found, stepped⟩ := stepped
      split at stepped
      case h_1 response answered =>
        cases stepped
        have fits := fits op found
        rw [answered] at fits
        exact lost.process index fits
      case h_2 => cases stepped
  | expire =>
      simp only [BannerState.next, Option.bind_eq_bind,
        Option.bind_eq_some_iff] at stepped
      obtain ⟨change, _, backend, _, stepped⟩ := stepped
      cases stepped
      exact ⟨lost.asked, lost.shown⟩
  | settle ok description =>
      simp only [BannerState.next] at stepped
      split at stepped
      · cases stepped
        exact ⟨lost.asked, lost.shown⟩
      · cases stepped
  | beginElsewhere description =>
      cases stepped
      exact ⟨lost.asked, lost.shown⟩
  | takeElsewhere =>
      cases stepped
      exact ⟨lost.asked, lost.shown⟩

end NothingLost

/-! ### The question of a call -/

namespace Op

/-- No question is open, and none comes. -/
def DoneAsking (op : Op) : Prop :=
  op.stage = .finished ∨
    op.stage ≠ .asking ∧ op.request.overriding = op.request

/-- An open question stays until the user answers it, and is then over. -/
def Follows (action : Action) (before after : Op) : Prop :=
  (before.stage = .asking → after = before ∨
    after.DoneAsking ∧ ∃ proceed, action = .answer proceed) ∧
  (before.DoneAsking → after.DoneAsking)

theorem follows_refl (action : Action) (op : Op) : op.Follows action op :=
  ⟨fun _ => .inl rfl, id⟩

theorem follows_serve {action : Action} {op : Op} {backend after : Backend}
    {ok : Bool} {reasons : List String} {agoSecs : Nat} {stage : Stage}
    (served : op.serve backend ok reasons agoSecs = some (after, stage)) :
    op.Follows action { op with stage := stage } := by
  constructor
  · intro asking
    unfold Op.serve at served
    simp [asking] at served
  · rintro (finished | ⟨_, overriding⟩)
    · unfold Op.serve at served
      simp [finished] at served
    · exact .inr ⟨(serve_stage served).1, overriding⟩

end Op

/-- An apply that overrides the check is not asked about. -/
theorem continued_overriding {slot : GuardState} {index : Nat}
    {request : Request} {response : Response}
    (overriding : request.overriding = request) :
    (continued slot index request response).2.1 ≠ .asking := by
  intro asks
  unfold continued at asks
  split at asks
  case h_2 => cases overriding
  all_goals cases asks

section Following

variable {state : BannerState} {action : Action} {index other : Nat}
  {op new : Op}

theorem put_follows (state : BannerState) (index : Nat) (new : Op)
    (found : state.ops[other]? = some op)
    (own : other = index → op.Follows action new) :
    ∃ after, (state.put index new).ops[other]? = some after ∧
      op.Follows action after := by
  simp only [BannerState.put, List.getElem?_set]
  split
  case isTrue same =>
    obtain ⟨bound, _⟩ := List.getElem?_eq_some_iff.mp found
    exact ⟨new, by simp [same, bound], own same.symm⟩
  case isFalse => exact ⟨op, found, op.follows_refl action⟩

theorem start_found {request : Request}
    (found : state.ops[other]? = some op) :
    (state.start request).ops[other]? = some op := by
  obtain ⟨bound, _⟩ := List.getElem?_eq_some_iff.mp found
  simpa [BannerState.start, List.getElem?_append_left bound] using found

theorem process_follows {response : Response}
    (here : state.ops[index]? = some new) (waiting : new.inFlight = true)
    (found : state.ops[other]? = some op) :
    ∃ after, (state.process index new.request response).ops[other]? =
      some after ∧ op.Follows action after := by
  have own : other = index → op.Follows action ⟨new.request,
      (continued state.slot index new.request response).2.1⟩ := by
    rintro rfl
    cases here.symm.trans found
    refine ⟨fun asking => ?_, ?_⟩
    · simp [Op.inFlight, asking] at waiting
    · rintro (finished | ⟨_, overriding⟩)
      · simp [Op.inFlight, finished] at waiting
      · exact .inr ⟨continued_overriding overriding, overriding⟩
  have settled := put_follows { state with
      slot := (continued state.slot index new.request response).1
      reported := reportedAfter state.reported new.request response } index
    _ found own
  unfold BannerState.process
  simp only
  split
  · obtain ⟨after, kept, follows⟩ := settled
    exact ⟨after, start_found kept, follows⟩
  · exact settled

theorem answer_follows {proceed : Bool} {after : BannerState}
    (stepped : state.answer proceed = some after)
    (found : state.ops[other]? = some op) :
    ∃ later, after.ops[other]? = some later ∧
      op.Follows (.answer proceed) later := by
  unfold BannerState.answer at stepped
  split at stepped
  case h_1 reasons index question =>
    simp only [Option.bind_eq_bind, Option.bind_eq_some_iff] at stepped
    obtain ⟨asked, here, stepped⟩ := stepped
    split at stepped
    case isTrue asking =>
      cases stepped
      refine put_follows { state with slot := .idle } _ _ found ?_
      rintro rfl
      cases here.symm.trans found
      have settled : Op.DoneAsking (if proceed then
            ⟨op.request.overriding, .sent⟩
          else { op with stage := .finished }) := by
        cases proceed with
        | true =>
            refine .inr ⟨nofun, ?_⟩
            cases op.request <;> rfl
        | false => exact .inl rfl
      exact ⟨fun _ => .inr ⟨settled, proceed, rfl⟩, fun _ => settled⟩
    case isFalse => cases stepped
  case h_2 => cases stepped

theorem next_follows {after : BannerState}
    (stepped : state.next action = some after)
    (found : state.ops[other]? = some op) :
    ∃ later, after.ops[other]? = some later ∧ op.Follows action later := by
  have unchanged : ∀ {after : BannerState}, after.ops = state.ops →
      ∃ later, after.ops[other]? = some later ∧ op.Follows action later :=
    fun same => ⟨op, by rw [same, found], op.follows_refl action⟩
  cases action with
  | call description =>
      cases stepped
      exact ⟨op, start_found found, op.follows_refl _⟩
  | answer proceed => exact answer_follows stepped found
  | clickConfirm | clickRevert =>
      simp only [BannerState.next, BannerState.click] at stepped
      split at stepped
      · cases stepped
        exact ⟨op, start_found found, op.follows_refl _⟩
      · cases stepped
  | sync =>
      cases stepped
      exact ⟨op, start_found found, op.follows_refl _⟩
  | dismiss =>
      simp only [BannerState.next] at stepped
      split at stepped
      case h_1 | h_2 => cases stepped; exact unchanged rfl
      case h_3 => cases stepped
  | serve index ok reasons agoSecs =>
      simp only [BannerState.next, Option.bind_eq_bind,
        Option.bind_eq_some_iff] at stepped
      obtain ⟨served, here, ⟨backend, stage⟩, serving, stepped⟩ := stepped
      cases stepped
      refine put_follows { state with backend := backend } _ _ found ?_
      rintro rfl
      cases here.symm.trans found
      exact Op.follows_serve serving
  | lose index error =>
      simp only [BannerState.next, Option.bind_eq_bind,
        Option.bind_eq_some_iff] at stepped
      obtain ⟨lost, here, stepped⟩ := stepped
      split at stepped
      case isTrue waiting =>
        cases stepped
        exact process_follows here waiting found
      case isFalse => cases stepped
  | deliver index =>
      simp only [BannerState.next, Option.bind_eq_bind,
        Option.bind_eq_some_iff] at stepped
      obtain ⟨delivered, here, stepped⟩ := stepped
      split at stepped
      case h_1 response answered =>
        cases stepped
        exact process_follows here (by rw [Op.inFlight, answered]) found
      case h_2 => cases stepped
  | expire =>
      simp only [BannerState.next, Option.bind_eq_bind,
        Option.bind_eq_some_iff] at stepped
      obtain ⟨_, _, backend, _, stepped⟩ := stepped
      cases stepped
      exact unchanged rfl
  | settle ok description =>
      simp only [BannerState.next] at stepped
      split at stepped
      · cases stepped
        exact unchanged rfl
      · cases stepped
  | beginElsewhere description => cases stepped; exact unchanged rfl
  | takeElsewhere => cases stepped; exact unchanged rfl

end Following

/-- An open question that is shown can be answered. -/
theorem answer_isSome {state : BannerState} {index : Nat} {op : Op}
    {reasons : List String} (found : state.ops[index]? = some op)
    (asking : op.stage = .asking)
    (shown : state.slot = .lockout reasons index) (proceed : Bool) :
    (state.answer proceed).isSome := by
  simp [BannerState.answer, shown, found, asking]

/-! ### Every run -/

theorem nothingLost_of_responsesFit {state : BannerState}
    (reached : guardBanner.ReachableUnder ResponsesFit state) :
    NothingLost state :=
  reached.invariant
    (fun state start => by
      obtain ⟨_, none, unreported⟩ := start
      exact ⟨by simp [none], by simp [unreported]⟩)
    (fun _ _ _ lost fits stepped => lost.next fits stepped)

/-- Where every response fits, the banner loses nothing: each open question is
shown, the user can answer it, nothing else takes it away, and it is not asked
again; and the latest change that was reported is shown until a response says
that it is resolved. -/
theorem banner_loses_nothing {state : BannerState}
    (reached : guardBanner.ReachableUnder ResponsesFit state) :
    NothingLost state ∧
      ∀ (index : Nat) op, state.ops[index]? = some op →
        (op.stage = .asking →
          ∀ proceed, (guardBanner.next state (.answer proceed)).isSome) ∧
        ∀ action after, guardBanner.next state action = some after →
          ∃ later, after.ops[index]? = some later ∧
            op.Follows action later := by
  have lost := nothingLost_of_responsesFit reached
  refine ⟨lost, fun index op found => ⟨fun asking proceed => ?_,
    fun action after stepped => next_follows stepped found⟩⟩
  obtain ⟨reasons, shown⟩ := lost.asked index op found asking
  exact answer_isSome found asking shown proceed

/-! ## Two calls -/

instance (slot : GuardState) (id : Nat) : Decidable (slot.Shows id) :=
  match slot with
  | .pending change _ _ =>
      decidable_of_iff (change.id = id)
        ⟨fun same => ⟨_, _, _, rfl, same⟩, fun shows => shows.pending⟩
  | .idle | .lockout _ _ | .reverted _ | .revertFailed _ _ =>
      .isFalse (by rintro ⟨_, _, _, shows, _⟩; cases shows)

instance (slot : GuardState) (reported : Option Nat) (request : Request)
    (response : Response) : Decidable (Fits slot reported request response) := by
  unfold Fits
  split
  case h_3 => split <;> infer_instance
  all_goals infer_instance

instance (state : BannerState) (action : Action) :
    Decidable (ResponsesFit state action) := by
  unfold ResponsesFit
  split
  case h_1 index =>
    have (op : Op) : Decidable (match op.stage with
        | .answered response =>
            Fits state.slot state.reported op.request response
        | _ => True) := by
      split <;> infer_instance
    infer_instance
  all_goals infer_instance

def idleBanner : BannerState where
  backend := ⟨none, false, none, 0⟩
  slot := .idle
  ops := []
  reported := none

theorem initial_idleBanner : guardBanner.Initial idleBanner :=
  ⟨rfl, rfl, rfl⟩

def reasons : List String := ["Management access from eth0 would be cut off."]

/-- A change is applied over the lockout check, seen by a sync and confirmed;
then the next call is asked about. -/
def guardedActions : List Action :=
  [.call "Firewall", .serve 0 true reasons 0, .deliver 0, .answer true,
    .serve 0 true reasons 0, .serve 0 true [] 0, .deliver 0,
    .sync, .serve 1 true [] 0, .deliver 1,
    .clickConfirm, .serve 2 true [] 0, .serve 2 true [] 0, .deliver 2,
    .call "NAT", .serve 3 true reasons 0, .deliver 3]

def guardedBanner : Option BannerState :=
  guardBanner.run idleBanner guardedActions

theorem guardedBanner_taken : guardedBanner.isSome = true := by
  decide +kernel

theorem guardedBanner_loses_nothing :
    NothingLost (guardedBanner.get guardedBanner_taken) :=
  (banner_loses_nothing <|
    .run (.initial initial_idleBanner) _ (by decide +kernel)
      (Option.some_get _).symm).1

/-- The second question replaces the first. -/
def twoCalls : Option BannerState :=
  guardBanner.run idleBanner
    [.call "Firewall", .call "NAT", .serve 0 true reasons 0,
      .serve 1 true reasons 0, .deliver 0, .deliver 1]

theorem twoCalls_taken : twoCalls.isSome = true := by
  decide +kernel

theorem question_replaced :
    ∃ state, guardBanner.Reachable state ∧ ¬ NothingLost state := by
  refine ⟨twoCalls.get twoCalls_taken, ?_, fun lost => ?_⟩
  · exact reachable_of_run initial_idleBanner _ (Option.some_get _).symm
  · have first : (twoCalls.get twoCalls_taken).ops[0]? =
        some ⟨.apply "Firewall" false, .asking⟩ := by
      decide +kernel
    obtain ⟨_, shown⟩ := lost.asked 0 _ first rfl
    have second : (twoCalls.get twoCalls_taken).slot = .lockout reasons 1 := by
      decide +kernel
    cases second.symm.trans shown

end QuartzFire.Guard.Banner
