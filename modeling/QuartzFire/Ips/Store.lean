import QuartzFire.Foundation.TransitionSystem
import QuartzFire.Ips.Settings

/-!
# The settings store

`PUT settings` and `POST update` each load the document, change one part of it
and write all of it back through one temporary file.  Handlers run side by
side; loading, writing the temporary file and renaming it are steps of their
own.
-/

namespace QuartzFire.Ips

open TransitionSystem

/-- What is at the path of the settings or of the temporary file. -/
inductive SettingsFile where
  | absent
  /-- Not a document that can be parsed. -/
  | garbled
  | document (settings : IpsSettings)
  deriving DecidableEq

/-- `load_settings` -/
def loadSettings : SettingsFile → Option IpsSettings
  | .absent => some .default
  | .garbled => none
  | .document settings => some settings

inductive Request where
  | putSettings (desired : IpsSettings)
  | requestUpdate
  deriving DecidableEq

/-- The document a request stores, given the one it loaded. -/
def Request.serve (loaded : IpsSettings) : Request → IpsSettings
  | .putSettings desired => { desired with updateSeq := loaded.updateSeq }
  | .requestUpdate =>
      { loaded with updateSeq := (loaded.updateSeq + 1) % 2 ^ 64 }

/-- Whether the update server of a request is acceptable. -/
def Request.accepted : Request → Bool
  | .putSettings desired => desired.updateUrl.all fun url =>
      "https://".toList.isPrefixOf url.toList ||
        "http://".toList.isPrefixOf url.toList
  | .requestUpdate => true

/-- Where a handler stands.  With it goes what had been stored when its request
began. -/
inductive Handler where
  | loading (request : Request) (before : List IpsSettings)
  | writing (request : Request) (before : List IpsSettings)
      (loaded : IpsSettings)
  | renaming (request : Request) (before : List IpsSettings)
      (loaded : IpsSettings)
  | finished
  deriving DecidableEq

structure StoreState where
  file : SettingsFile
  /-- `.ips.json.tmp` -/
  temp : SettingsFile
  handlers : List Handler
  /-- Every document stored so far, the latest first. -/
  stored : List IpsSettings
  /-- The successful update requests: what had been stored when each began, and
  the number it left. -/
  updates : List (List IpsSettings × Nat)
  /-- The settings of the completed `PUT` that stored last. -/
  lastPut : Option IpsSettings

inductive StoreAction where
  | arrive (request : Request)
  | load (handler : Nat)
  /-- The temporary file after the write: the document, or what is left of it
  when the write fails. -/
  | write (handler : Nat) (failed : Option SettingsFile)
  | rename (handler : Nat) (succeeds : Bool)
  deriving DecidableEq

namespace StoreState

def put (state : StoreState) (index : Nat) (handler : Handler) : StoreState :=
  { state with handlers := state.handlers.set index handler }

def arrive (state : StoreState) (request : Request) : StoreState :=
  { state with handlers := state.handlers ++
      [if request.accepted then .loading request state.stored else .finished] }

/-- A rename that succeeds: what the temporary file holds is stored. -/
def activate (state : StoreState) (request : Request)
    (before : List IpsSettings) : StoreState :=
  match state.temp with
  | .document settings =>
      { state with
        file := state.temp
        temp := .absent
        stored := settings :: state.stored
        updates := match request with
          | .putSettings _ => state.updates
          | .requestUpdate => (before, settings.updateSeq) :: state.updates
        lastPut := match request with
          | .putSettings desired => some desired
          | .requestUpdate => state.lastPut }
  | _ => { state with file := state.temp, temp := .absent }

def next (state : StoreState) : StoreAction → Option StoreState
  | .arrive request => some (state.arrive request)
  | .load index =>
      match state.handlers[index]? with
      | some (.loading request before) =>
          some (state.put index (match loadSettings state.file with
            | some loaded => .writing request before loaded
            | none => .finished))
      | _ => none
  | .write index failed =>
      match state.handlers[index]? with
      | some (.writing request before loaded) =>
          match failed with
          | none => some ({ state with
              temp := .document (request.serve loaded) }.put index
                (.renaming request before loaded))
          | some left => some ({ state with temp := left }.put index .finished)
      | _ => none
  | .rename index succeeds =>
      match state.handlers[index]? with
      | some (.renaming request before _) =>
          if succeeds then
            -- there is nothing to rename once another handler has renamed it
            if state.temp = .absent then none
            else some ((state.activate request before).put index .finished)
          else some (state.put index .finished)
      | _ => none

/-- Nothing has been handled yet. -/
structure Starts (state : StoreState) : Prop where
  handlers : state.handlers = []
  stored : state.stored = match state.file with
    | .document settings => [settings]
    | _ => []
  updates : state.updates = []
  lastPut : state.lastPut = none

end StoreState

def settingsStore : TransitionSystem StoreState StoreAction where
  Initial := StoreState.Starts
  next := StoreState.next

/-! ## What requests may rely on -/

/-- No update is lost: numbers never decrease, an update request raises the
number above all it found, and the rest is as the last `PUT` left it. -/
structure UpdatesKept (state : StoreState) : Prop where
  ordered : state.stored.Pairwise fun later earlier =>
    earlier.updateSeq ≤ later.updateSeq
  raised : ∀ update ∈ state.updates, ∀ settings ∈ update.1,
    settings.updateSeq < update.2
  kept : ∀ desired ∈ state.lastPut, ∃ settings,
    state.file = .document settings ∧ settings.SameBut desired

/-- What a request writes back as it was loaded is still so in the document that
is stored now. -/
def Request.Current (loaded now : IpsSettings) : Request → Prop
  | .putSettings _ => now.updateSeq = loaded.updateSeq
  | .requestUpdate => now.SameBut loaded ∧
      now.updateSeq ≤ loaded.updateSeq + 1 ∧ loaded.updateSeq + 1 < 2 ^ 64

/-- A document is renamed into place while the temporary file is as its handler
wrote it and what the handler wrote back unchanged has not changed. -/
def RenamesCurrent (state : StoreState) : StoreAction → Prop
  | .rename index true => ∀ request before loaded,
      state.handlers[index]? = some (.renaming request before loaded) →
      state.temp = .document (request.serve loaded) ∧
        ∃ now, loadSettings state.file = some now ∧
          request.Current loaded now
  | _ => True

instance (loaded now : IpsSettings) :
    (request : Request) → Decidable (request.Current loaded now)
  | .putSettings _ => decEq now.updateSeq loaded.updateSeq
  | .requestUpdate => inferInstanceAs (Decidable (_ ∧ _ ∧ _))

instance (state : StoreState) :
    (action : StoreAction) → Decidable (RenamesCurrent state action)
  | .rename index true =>
      match held : state.handlers[index]? with
      | some (.renaming request before loaded) =>
          decidable_of_iff (state.temp = .document (request.serve loaded) ∧
              ∃ now ∈ loadSettings state.file, request.Current loaded now) <| by
            simp [RenamesCurrent, held]
      | some (.loading _ _) | some (.writing _ _ _) | some .finished | none =>
          .isTrue (by simp [RenamesCurrent, held])
  | .rename _ false | .arrive _ | .load _ | .write _ _ => .isTrue trivial

/-- What a handler knows of the documents stored. -/
def Handler.Informed (stored : List IpsSettings) : Handler → Prop
  | .loading _ before => before ⊆ stored
  | .writing _ before loaded | .renaming _ before loaded =>
      ∀ settings ∈ before, settings.updateSeq ≤ loaded.updateSeq
  | .finished => True

theorem Handler.Informed.mono {stored later : List IpsSettings}
    {handler : Handler} (informed : handler.Informed stored)
    (grows : stored ⊆ later) : handler.Informed later := by
  cases handler with
  | loading _ _ => exact List.Subset.trans informed grows
  | _ => exact informed

/-- What holds while documents are renamed current. -/
structure Sound (state : StoreState) : Prop extends UpdatesKept state where
  file : match state.file with
    | .document settings => ∃ older, state.stored = settings :: older
    | _ => state.stored = []
  informed : ∀ handler ∈ state.handlers, handler.Informed state.stored

namespace Sound

variable {state : StoreState} (sound : Sound state)
include sound

/-- The document that is loaded has the largest number. -/
theorem le_loaded {loaded : IpsSettings}
    (loads : loadSettings state.file = some loaded) :
    ∀ settings ∈ state.stored, settings.updateSeq ≤ loaded.updateSeq := by
  have file := sound.file
  intro settings member
  cases held : state.file with
  | absent =>
      rw [held] at file
      simp [file] at member
  | garbled =>
      rw [held] at loads
      cases loads
  | document current =>
      rw [held] at file loads
      cases loads
      obtain ⟨older, same⟩ := file
      have ordered := sound.ordered
      rw [same] at member ordered
      rcases List.mem_cons.mp member with rfl | inOlder
      · exact Nat.le_refl _
      · exact List.rel_of_pairwise_cons ordered inOlder

theorem informed_at {index : Nat} {handler : Handler}
    (held : state.handlers[index]? = some handler) :
    handler.Informed state.stored :=
  sound.informed handler (List.mem_of_getElem? held)

/-- A handler that goes on changes nothing but where it stands. -/
theorem put (index : Nat) {handler : Handler}
    (informed : handler.Informed state.stored) :
    Sound (state.put index handler) where
  ordered := sound.ordered
  raised := sound.raised
  kept := sound.kept
  file := sound.file
  informed other member := by
    rcases List.mem_or_eq_of_mem_set member with before | rfl
    · exact sound.informed other before
    · exact informed

theorem withTemp (temp : SettingsFile) : Sound { state with temp := temp } where
  ordered := sound.ordered
  raised := sound.raised
  kept := sound.kept
  file := sound.file
  informed := sound.informed

theorem arrive (request : Request) : Sound (state.arrive request) where
  ordered := sound.ordered
  raised := sound.raised
  kept := sound.kept
  file := sound.file
  informed other member := by
    rcases List.mem_append.mp member with before | new
    · exact sound.informed other before
    · rw [List.mem_singleton.mp new]
      split
      · exact List.Subset.refl _
      · trivial

theorem load {index : Nat} {request : Request} {before : List IpsSettings}
    (held : state.handlers[index]? = some (.loading request before)) :
    Sound (state.put index (match loadSettings state.file with
      | some loaded => .writing request before loaded
      | none => .finished)) := by
  have seen : before ⊆ state.stored := sound.informed_at held
  apply sound.put
  cases loads : loadSettings state.file with
  | none => trivial
  | some loaded =>
      exact fun settings member => sound.le_loaded loads settings (seen member)

/-- A current document is stored above all before it. -/
theorem activate {index : Nat} {request : Request}
    {before : List IpsSettings} {loaded : IpsSettings}
    (held : state.handlers[index]? = some (.renaming request before loaded))
    (current : RenamesCurrent state (.rename index true)) :
    Sound (state.activate request before) := by
  obtain ⟨temp, now, loads, current⟩ := current request before loaded held
  have seen : ∀ settings ∈ before,
      settings.updateSeq ≤ loaded.updateSeq := sound.informed_at held
  have largest := sound.le_loaded loads
  have stored : now.updateSeq ≤ (request.serve loaded).updateSeq := by
    cases request with
    | putSettings desired => exact Nat.le_of_eq current
    | requestUpdate =>
        obtain ⟨_, most, fits⟩ := current
        rw [Request.serve, Nat.mod_eq_of_lt fits]
        exact most
  simp only [StoreState.activate, temp]
  refine ⟨⟨?_, ?_, ?_⟩, ⟨state.stored, rfl⟩, ?_⟩
  · exact sound.ordered.cons fun settings member =>
      Nat.le_trans (largest settings member) stored
  · cases request with
    | putSettings desired => exact sound.raised
    | requestUpdate =>
        have raised : ∀ settings ∈ before,
            settings.updateSeq < (loaded.updateSeq + 1) % 2 ^ 64 := by
          intro settings member
          rw [Nat.mod_eq_of_lt current.2.2]
          exact Nat.lt_succ_of_le (seen settings member)
        exact List.forall_mem_cons.mpr ⟨raised, sound.raised⟩
  · cases request with
    | putSettings desired =>
        rintro _ ⟨⟩
        exact ⟨_, rfl, IpsSettings.sameBut_seq desired _⟩
    | requestUpdate =>
        intro desired last
        obtain ⟨settings, file, same⟩ := sound.kept desired last
        rw [file] at loads
        cases loads
        refine ⟨_, rfl, ?_⟩
        have unchanged : loaded.SameBut now := by
          have same := current.1
          rw [IpsSettings.SameBut] at same ⊢
          rw [same]
        exact (IpsSettings.sameBut_seq loaded _).trans (unchanged.trans same)
  · exact fun other member => (sound.informed other member).mono
      (List.subset_cons_self _ _)

/-- A step of which a rename is current keeps what holds. -/
theorem next {action : StoreAction} {after : StoreState}
    (current : RenamesCurrent state action)
    (stepped : state.next action = some after) : Sound after := by
  cases action with
  | arrive request =>
      cases stepped
      exact sound.arrive request
  | load index =>
      simp only [StoreState.next] at stepped
      split at stepped
      · cases stepped
        exact sound.load ‹_›
      · cases stepped
  | write index failed =>
      simp only [StoreState.next] at stepped
      split at stepped
      · rename_i request before loaded held
        split at stepped
        · cases stepped
          have informed : ∀ settings ∈ before,
              settings.updateSeq ≤ loaded.updateSeq := sound.informed_at held
          exact (sound.withTemp _).put index informed
        · cases stepped
          exact (sound.withTemp _).put index trivial
      · cases stepped
  | rename index succeeds =>
      simp only [StoreState.next] at stepped
      split at stepped
      · rename_i request before loaded held
        split_ifs at stepped with takes gone
        · cases stepped
          subst takes
          exact (sound.activate held current).put index trivial
        · cases stepped
          exact sound.put index trivial
      · cases stepped

end Sound

theorem StoreState.Starts.sound {state : StoreState} (starts : state.Starts) :
    Sound state where
  ordered := by
    rw [starts.stored]
    split
    · exact List.pairwise_singleton _ _
    · exact List.Pairwise.nil
  raised := by simp [starts.updates]
  kept := by simp [starts.lastPut]
  file := by
    rw [starts.stored]
    cases state.file with
    | document settings => exact ⟨[], rfl⟩
    | _ => rfl
  informed := by simp [starts.handlers]

/-- In every run that renames current documents no update is lost. -/
theorem updatesKept_of_renamesCurrent {state : StoreState}
    (reached : settingsStore.ReachableUnder RenamesCurrent state) :
    UpdatesKept state := by
  have sound : Sound state := by
    refine reached.invariant (fun _ => StoreState.Starts.sound) ?_
    intro state action after sound current stepped
    exact sound.next current stepped
  exact sound.toUpdatesKept

/-! ## Two requests side by side -/

/-- A box that was never set up. -/
def unsetStore : StoreState where
  file := .absent
  temp := .absent
  handlers := []
  stored := []
  updates := []
  lastPut := none

theorem starts_unsetStore : unsetStore.Starts :=
  ⟨rfl, rfl, rfl, rfl⟩

/-- The engine switched on. -/
def enabledSettings : IpsSettings :=
  { IpsSettings.default with enabled := true }

/-- One request after the other. -/
def serialActions : List StoreAction :=
  [.arrive (.putSettings enabledSettings), .load 0, .write 0 none,
    .rename 0 true, .arrive .requestUpdate, .load 1, .write 1 none,
    .rename 1 true]

def serialStore : Option StoreState :=
  settingsStore.run unsetStore serialActions

theorem serialStore_taken : serialStore.isSome = true := by decide +kernel

theorem serialStore_updatesKept :
    UpdatesKept (serialStore.get serialStore_taken) :=
  updatesKept_of_renamesCurrent <|
    .run (.initial starts_unsetStore) serialActions (by decide +kernel)
      (Option.some_get _).symm

/-- The engine is switched on while an update request has loaded the document
and not stored it yet. -/
def overlappingActions : List StoreAction :=
  [.arrive .requestUpdate, .load 0, .arrive (.putSettings enabledSettings),
    .load 1, .write 1 none, .rename 1 true, .write 0 none, .rename 0 true]

def overlappingStore : Option StoreState :=
  settingsStore.run unsetStore overlappingActions

theorem overlappingStore_taken : overlappingStore.isSome = true := by
  decide +kernel

theorem overlapping_requests_lose_settings :
    ∃ state, settingsStore.Reachable state ∧ ¬ UpdatesKept state := by
  refine ⟨overlappingStore.get overlappingStore_taken, ?_, fun kept => ?_⟩
  · exact reachable_of_run starts_unsetStore overlappingActions
      (Option.some_get _).symm
  · obtain ⟨settings, file, same⟩ :=
      kept.kept enabledSettings (by decide +kernel)
    have stored : (overlappingStore.get overlappingStore_taken).file =
        .document { IpsSettings.default with updateSeq := 1 } := by
      decide +kernel
    rw [stored] at file
    cases file
    revert same
    decide +kernel

end QuartzFire.Ips
