import QuartzFire.Foundation.TransitionSystem
import Mathlib.Data.List.Basic

/-!
# The commit-confirm guard as a transition system

`apply`, `restore`, `rollback`, `confirm`, `revert`, the expiry timer and the
proxied `/config-file` save are threads split at their awaits.  A VyOS call
takes effect in one step of its own; the code around it runs in the steps
before and after.  `Config` is the type of configurations: a command list is
the edit it makes, and a config file is the configuration it loads.

A configuration is carried together with the guarded changes it contains, so
that "the boot config contains an unconfirmed change" can be said of a state.
-/

namespace QuartzFire.Guard

/-- A request, by its position in arrival order.  It is also the id its
pending change gets: the code draws eight random bytes, taken never to
repeat. -/
abbrev RequestId := Nat

/-- A configuration and the guarded changes it contains. -/
structure Document (Config : Type) where
  content : Config
  changes : List RequestId

/-- A file under `guard_dir` and the request it was written for, `none` for a
leftover of an earlier process. -/
structure GuardFile (Config : Type) where
  document : Document Config
  owner : Option RequestId

/-- What a guarded request commits: a `/configure` command list, or a full
config text loaded from `guard-load.boot`. -/
inductive Payload (Config : Type) where
  | configure (edit : Config → Config)
  | load (text : Config)

/-- What a request makes of the running config it reads between its check and
its snapshot, `none` standing for a failed read.  `apply` looks for a lockout,
`restore` grafts the WebUI's own access into the upload. -/
abbrev Prepare (Config : Type) := Option Config → Option (Payload Config)

/-- `apply`: the lockout analysis refuses or lets the commands through; an
unreadable config lets them through. -/
def applyPrepare (edit : Config → Config) (lockout : Config → Bool) :
    Prepare Config
  | some running => if lockout running then none else some (.configure edit)
  | none => some (.configure edit)

/-- `restore`: an upload carrying the WebUI's key is loaded as it is, any other
needs the running config to graft the key from. -/
def restorePrepare (content : Config) (hasKey : Bool)
    (preserve : Config → Option Config) : Prepare Config
  | running =>
      if hasKey then some (.load content)
      else (running.bind preserve).map .load

/-- `rollback`: the archived text is loaded as it is. -/
def rollbackPrepare (text : Config) : Prepare Config :=
  fun _ => some (.load text)

/-- Where a guarded request stands; each constructor names the step it takes
next. -/
inductive Progress (Config : Type) where
  /-- `rollback` reads the revision out of the commit archive. -/
  | fetching (revision : Nat)
  /-- `is_pending` is asked. -/
  | checking (prepare : Prepare Config)
  /-- The running config is read for the lockout check or the graft. -/
  | preparing (prepare : Prepare Config)
  /-- The stale snapshot file is removed. -/
  | clearing (payload : Payload Config)
  /-- `config-file save` writes the snapshot file. -/
  | snapshotting (payload : Payload Config)
  /-- The snapshot's metadata is checked and `guard-load.boot` written. -/
  | staging (payload : Payload Config)
  /-- The change is committed. -/
  | committing (payload : Payload Config)
  /-- `begin_pending` registers the change and arms its timer. -/
  | arming (payload : Payload Config)

inductive Thread (Config : Type) where
  | guarded (progress : Progress Config)
  | confirming (id : RequestId)
  /-- `confirm` owns the change and has its boot save in flight. -/
  | savingBoot (id : RequestId)
  | reverting (id : RequestId)
  | expiring (id : RequestId)
  /-- `revert_pending` has its load of the snapshot in flight. -/
  | loadingSnapshot (id : RequestId)
  /-- `revert_pending` records how the load ended. -/
  | recording (loaded : Bool)
  | proxyChecking
  | proxyForwarding
  | finished

structure State (Config : Type) where
  running : Document Config
  boot : Document Config
  /-- `guard-snapshot.boot` -/
  snapshot : Option (GuardFile Config)
  /-- `guard-load.boot` -/
  loadFile : Option (Config × RequestId)
  /-- Commit archive, newest first. -/
  archive : List Config
  /-- Id of the change in the pending slot. -/
  pending : Option RequestId
  reverting : Bool
  threads : List (Thread Config)
  /-- Changes whose own confirm request took them out of the slot. -/
  confirmed : List RequestId
  /-- The running config each change was committed on top of. -/
  base : RequestId → Option (Document Config)

inductive Action (Config : Type) where
  /-- A new request, at its first step. -/
  | arrive (thread : Thread Config)
  /-- The next step of a thread; `ok` says how the VyOS call in it ends. -/
  | advance (thread : Nat) (ok : Bool)

namespace State

variable {Config : Type}

/-- `Guard::is_pending` -/
def isPending (state : State Config) : Bool :=
  state.pending.isSome || state.reverting

def put (state : State Config) (index : Nat) (thread : Thread Config) :
    State Config :=
  { state with threads := state.threads.set index thread }

/-- A commit made by the VyOS API: the running config is replaced and archived. -/
def commit (state : State Config) (document : Document Config) :
    State Config :=
  { state with
    running := document
    archive := document.content :: state.archive }

/-- The commit of a guarded change, remembering what it was made on top of. -/
def commitChange (state : State Config) (id : RequestId)
    (document : Document Config) : State Config :=
  { state.commit document with
    base := Function.update state.base id (some state.running) }

end State

variable {Config : Type}

/-- `apply`, `restore` and `rollback` -/
def guardedStep (state : State Config) (id : RequestId) (ok : Bool) :
    Progress Config → State Config
  | .fetching revision =>
      match ok, state.archive[revision]? with
      | true, some text =>
          state.put id (.guarded (.checking (rollbackPrepare text)))
      | _, _ => state.put id .finished
  | .checking prepare =>
      if state.isPending then state.put id .finished
      else state.put id (.guarded (.preparing prepare))
  | .preparing prepare =>
      match prepare (if ok then some state.running.content else none) with
      | some payload => state.put id (.guarded (.clearing payload))
      | none => state.put id .finished
  | .clearing payload =>
      { state with snapshot := none }.put id (.guarded (.snapshotting payload))
  | .snapshotting payload =>
      if ok then
        { state with snapshot := some ⟨state.running, some id⟩ }.put id
          (.guarded (.staging payload))
      else state.put id .finished
  | .staging payload =>
      match state.snapshot, payload with
      | none, _ => state.put id .finished
      | some _, .configure edit =>
          state.put id (.guarded (.committing (.configure edit)))
      | some _, .load text =>
          { state with loadFile := some (text, id) }.put id
            (.guarded (.committing (.load text)))
  | .committing (.configure edit) =>
      if ok then
        (state.commitChange id
          ⟨edit state.running.content, id :: state.running.changes⟩).put id
          (.guarded (.arming (.configure edit)))
      else state.put id .finished
  | .committing (.load text) =>
      match ok, state.loadFile with
      | true, some (found, writer) =>
          (state.commitChange id ⟨found, [writer]⟩).put id
            (.guarded (.arming (.load text)))
      | _, _ => { state with loadFile := none }.put id .finished
  | .arming payload =>
      { state with
        pending := some id
        loadFile := match payload with
          | .configure _ => state.loadFile
          | .load _ => none
        threads := state.threads.set id .finished ++ [.expiring id] }

/-- `expire` and `revert` up to the load of the snapshot. -/
def detachStep (state : State Config) (index : Nat) (id : RequestId) :
    State Config :=
  if state.pending = some id then
    { state with pending := none, reverting := true }.put index
      (.loadingSnapshot id)
  else state.put index .finished

/-- One step of one thread, `none` when it has none left. -/
def threadStep (state : State Config) (index : Nat) (ok : Bool) :
    Thread Config → Option (State Config)
  | .guarded progress => some (guardedStep state index ok progress)
  | .confirming id =>
      if state.pending = some id then
        some ({ state with
          pending := none
          snapshot := none
          confirmed := id :: state.confirmed }.put index (.savingBoot id))
      else some (state.put index .finished)
  | .savingBoot _ =>
      if ok then some ({ state with boot := state.running }.put index .finished)
      else some (state.put index .finished)
  | .reverting id => some (detachStep state index id)
  | .expiring id => some (detachStep state index id)
  | .loadingSnapshot _ =>
      match ok, state.snapshot with
      | true, some file =>
          some ((state.commit file.document).put index (.recording true))
      | _, _ => some (state.put index (.recording false))
  | .recording loaded =>
      some ({ state with
        reverting := false
        snapshot := if loaded then none else state.snapshot }.put index .finished)
  | .proxyChecking =>
      if state.isPending then some (state.put index .finished)
      else some (state.put index .proxyForwarding)
  | .proxyForwarding =>
      if ok then some ({ state with boot := state.running }.put index .finished)
      else some (state.put index .finished)
  | .finished => none

/-- The first step of a request; the expiry timer is armed by `begin_pending`
and never arrives from outside. -/
def Thread.arrives : Thread Config → Bool
  | .guarded (.fetching _) | .guarded (.checking _) => true
  | .confirming _ | .reverting _ | .proxyChecking => true
  | _ => false

def next (state : State Config) : Action Config → Option (State Config)
  | .arrive thread =>
      if thread.arrives then
        some { state with threads := state.threads ++ [thread] }
      else none
  | .advance index ok =>
      (state.threads[index]?).bind (threadStep state index ok)

/-- A started backend: no request yet, nothing guarded in either config, and
possibly a snapshot file left over by an earlier process. -/
structure Starts (state : State Config) : Prop where
  running : state.running.changes = []
  boot : state.boot.changes = []
  snapshot : ∀ file ∈ state.snapshot,
    file.owner = none ∧ file.document.changes = []
  pending : state.pending = none
  reverting : state.reverting = false
  threads : state.threads = []

/-- The guard with everything its clients, its timers and the VyOS API may do. -/
def guard (Config : Type) :
    TransitionSystem (State Config) (Action Config) where
  Initial := Starts
  next := next

/-- The freshly started state over one configuration. -/
def State.start (config : Config) : State Config where
  running := ⟨config, []⟩
  boot := ⟨config, []⟩
  snapshot := none
  loadFile := none
  archive := [config]
  pending := none
  reverting := false
  threads := []
  confirmed := []
  base := fun _ => none

theorem starts_start (config : Config) : Starts (State.start config) :=
  ⟨rfl, rfl, by simp [State.start], rfl, rfl, rfl⟩

/-- The step of a thread leaves every other thread where it was. -/
theorem getElem?_set_of_present {threads : List (Thread Config)} {index : Nat}
    {old new : Thread Config} (present : threads[index]? = some old)
    (other : Nat) :
    (threads.set index new)[other]? =
      if other = index then some new else threads[other]? := by
  have bound : index < threads.length :=
    (List.getElem?_eq_some_iff.mp present).1
  rw [List.getElem?_set]
  by_cases same : index = other
  · subst same
    simp [bound]
  · rw [if_neg same, if_neg (Ne.symm same)]

end QuartzFire.Guard
