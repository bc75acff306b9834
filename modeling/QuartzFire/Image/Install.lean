import QuartzFire.Foundation.TransitionSystem
import QuartzFire.Image.Staging

/-!
# Image installs

Adding an image claims the only job and leaves the rest to a worker: it
downloads the image or takes a path, compares the digest if one was given and
asks VyOS to install what is at the path.  Uploads and their cleanups know
nothing of the worker.
-/

namespace QuartzFire.Image

open TransitionSystem

/-! ## The job -/

inductive Phase where
  | starting
  | downloading
  | verifying
  | installing
  | done
  | failed
  deriving DecidableEq

def Phase.isRunning (phase : Phase) : Bool :=
  phase ≠ .done && phase ≠ .failed

/-- Why a job failed. -/
inductive Failure where
  | unreachable
  | creating
  | interrupted
  | tooLarge
  | writing
  | empty
  | mismatch (want got : Text)
  | unreadable
  | install
  deriving DecidableEq

structure ImageJob where
  /-- The request that claimed it; the ids of the code are taken never to
  repeat. -/
  id : Nat
  phase : Phase
  downloadedBytes : Nat
  totalBytes : Option Nat
  error : Option Failure
  deriving DecidableEq

/-- What a worker writes to the job. -/
inductive JobUpdate where
  | phase (phase : Phase)
  | total (bytes : Option Nat)
  | downloaded (bytes : Nat)
  | done
  | fail (failure : Failure)
  deriving DecidableEq

def ImageJob.apply (job : ImageJob) : JobUpdate → ImageJob
  | .phase phase => { job with phase := phase }
  | .total bytes => { job with totalBytes := bytes }
  | .downloaded bytes => { job with downloadedBytes := bytes }
  | .done => { job with phase := .done }
  | .fail failure => { job with phase := .failed, error := some failure }

/-! ## The request -/

/-- The field `sha256` of a request. -/
inductive DigestField where
  | absent
  | text (digest : Text)
  | other
  deriving DecidableEq

structure AddRequest where
  /-- The field `url` where it is a text. -/
  url : Option Text
  sha256 : DigestField
  deriving DecidableEq

def isHexDigit (char : Char) : Bool :=
  char.isDigit || ('a' ≤ char && char ≤ 'f') || ('A' ≤ char && char ≤ 'F')

def normalizeSha256 (text : Text) : Option Text :=
  let trimmed := trim text
  if trimmed.length = 64 && trimmed.all isHexDigit then
    some (trimmed.map Char.toLower)
  else none

/-- The digest to compare with, or none where the field is refused. -/
def AddRequest.want (request : AddRequest) : Option (Option Text) :=
  match request.sha256 with
  | .absent => some none
  | .text digest => (normalizeSha256 digest).map some
  | .other => none

/-! ## The worker -/

structure Worker where
  url : Text
  want : Option Text
  deriving DecidableEq

def Worker.isRemote (worker : Worker) : Bool :=
  "http://".toList.isPrefixOf worker.url ||
    "https://".toList.isPrefixOf worker.url

/-- What was compared with a digest and what was handed to `add system image`
then. -/
structure Install where
  want : Option Text
  compared : Option Bytes
  handed : Option Bytes
  deriving DecidableEq

inductive WorkerStep where
  | starting
  | requesting
  | sizing (total : Option Nat)
  | clearing
  | creating
  | fetching (inode written lastReported : Nat)
  | reporting (inode written : Nat)
  | measured (written : Nat)
  /-- The download is removed after a failure. -/
  | discarding (failure : Failure)
  | failing (failure : Failure)
  /-- The image is at its path. -/
  | staged
  | opening
  | hashing (handle : Handle) (read : Bytes)
  /-- With the bytes whose digest was compared. -/
  | installing (compared : Option Bytes)
  | calling (compared : Option Bytes)
  | awaiting
  /-- The download is removed after the install. -/
  | clearingUp (failure : Option Failure)
  | finishing (failure : Option Failure)
  deriving DecidableEq

/-- What a step of the worker does. -/
structure Outcome where
  files : Files
  update : Option JobUpdate := none
  install : Option Install := none
  /-- None once the worker is through. -/
  next : Option WorkerStep

section Worker

variable (locate : Text → Place) (digest : Bytes → Text)

/-- Where `local_path` leads. -/
def Worker.place (worker : Worker) : Place :=
  if worker.isRemote then .downloaded else locate worker.url

/-- `sha256_file` reads this much at a time. -/
def readSize : Nat := 1024 * 1024

def reportEvery : Nat := 4 * 1024 * 1024

/-- A mismatch or an unreadable image; a download is removed first. -/
def Worker.reject (worker : Worker) (failure : Failure) : WorkerStep :=
  if worker.isRemote then .discarding failure else .failing failure

/-- A chunk of the download arrives. -/
def receive (files : Files) (inode written lastReported : Nat)
    (bytes : Bytes) : Outcome :=
  let total := written + bytes.length
  if maxIsoBytes < total then
    { files, next := some (.discarding .tooLarge) }
  else
    { files := files.writeDownload inode written bytes
      next := some (if reportEvery ≤ total - lastReported then
        .reporting inode total else .fetching inode total lastReported) }

/-- One round of the loop in `sha256_file` and the comparison behind it. -/
def hashMore (files : Files) (worker : Worker) (handle : Handle)
    (read : Bytes) : Outcome :=
  let content := (files.contents handle).getD []
  let more := (content.drop read.length).take readSize
  if more ≠ [] then { files, next := some (.hashing handle (read ++ more)) }
  else if worker.want = some (digest read) then
    { files, next := some (.installing (some read)) }
  else
    { files
      next := some (worker.reject
        (.mismatch (worker.want.getD []) (digest read))) }

/-- `run_install` -/
def workerStep (files : Files) (worker : Worker) :
    WorkerStep → Event → Option Outcome
  | .starting, .succeeds =>
      if worker.isRemote then
        some {
          files, update := some (.phase .downloading)
          next := some .requesting }
      else some { files, next := some .staged }
  | .requesting, .size total => some { files, next := some (.sizing total) }
  | .requesting, .fails =>
      some { files, next := some (.discarding .unreachable) }
  | .sizing total, .succeeds =>
      some { files, update := some (.total total), next := some .clearing }
  | .clearing, .succeeds =>
      some { files := files.removeDownload, next := some .creating }
  | .clearing, .fails => some { files, next := some .creating }
  | .creating, .succeeds =>
      some {
        files := files.createDownload.1
        next := some (.fetching files.createDownload.2 0 0) }
  | .creating, .fails => some { files, next := some (.discarding .creating) }
  | .fetching inode written lastReported, .chunk bytes =>
      some (receive files inode written lastReported bytes)
  | .fetching inode written _, .torn bytes =>
      some {
        files := files.writeDownload inode written bytes
        next := some (.discarding .writing) }
  | .fetching _ _ _, .fails =>
      some { files, next := some (.discarding .interrupted) }
  | .reporting inode written, .succeeds =>
      some {
        files, update := some (.downloaded written)
        next := some (.fetching inode written written) }
  | .fetching _ written _, .ended =>
      some { files, next := some (.measured written) }
  | .measured written, .succeeds =>
      some {
        files, update := some (.downloaded written)
        next := some (if written = 0 then .discarding .empty else .staged) }
  | .discarding failure, .succeeds =>
      some { files := files.removeDownload, next := some (.failing failure) }
  | .discarding failure, .fails =>
      some { files, next := some (.failing failure) }
  | .failing failure, .succeeds =>
      some { files, update := some (.fail failure), next := none }
  | .staged, .succeeds =>
      match worker.want with
      | some _ =>
          some {
            files, update := some (.phase .verifying), next := some .opening }
      | none => some { files, next := some (.installing none) }
  | .opening, .succeeds =>
      match files.openAt (worker.place locate) with
      | some handle => some { files, next := some (.hashing handle []) }
      | none => some { files, next := some (worker.reject .unreadable) }
  | .opening, .fails =>
      some { files, next := some (worker.reject .unreadable) }
  | .hashing handle read, .succeeds =>
      some (hashMore digest files worker handle read)
  | .hashing _ _, .fails =>
      some { files, next := some (worker.reject .unreadable) }
  | .installing compared, .succeeds =>
      some {
        files, update := some (.phase .installing)
        next := some (.calling compared) }
  | .calling compared, .succeeds =>
      some {
        files, next := some .awaiting
        install := some ⟨worker.want, compared,
          (files.openAt (worker.place locate)).bind files.contents⟩ }
  | .awaiting, .succeeds =>
      some {
        files, next := some (if worker.isRemote then .clearingUp none
          else .finishing none) }
  | .calling _, .fails
  | .awaiting, .fails =>
      some {
        files, next := some (if worker.isRemote then .clearingUp (some .install)
          else .finishing (some .install)) }
  | .clearingUp failure, .succeeds =>
      some { files := files.removeDownload, next := some (.finishing failure) }
  | .clearingUp failure, .fails =>
      some { files, next := some (.finishing failure) }
  | .finishing none, .succeeds =>
      some { files, update := some .done, next := none }
  | .finishing (some failure), .succeeds =>
      some { files, update := some (.fail failure), next := none }
  | _, _ => none

end Worker

/-! ## The handlers together -/

inductive Thread where
  | uploading (step : UploadStep)
  | cleaning
  | adding (request : AddRequest)
  | working (worker : Worker) (step : WorkerStep)
  | polling
  | finished
  deriving DecidableEq

structure ImageState where
  files : Files
  job : Option ImageJob
  threads : List Thread
  installs : List Install
  /-- Each write to a job: whose job it was and who wrote. -/
  writes : List (Nat × Nat)

inductive ImageAction where
  | arrive (thread : Thread)
  | advance (thread : Nat) (event : Event)
  deriving DecidableEq

namespace ImageState

def put (state : ImageState) (index : Nat) (thread : Thread) : ImageState :=
  { state with threads := state.threads.set index thread }

/-- `op` claims the job unless another one is running. -/
def claim (state : ImageState) (index : Nat) (request : AddRequest) :
    ImageState :=
  match request.url, request.want with
  | some url, some want =>
      if trim url = [] then state.put index .finished
      else if state.job.any fun job => job.phase.isRunning then
        state.put index .finished
      else
        { state with
          job := some ⟨index, .starting, 0, none, none⟩
          writes := (index, index) :: state.writes }.put index
            (.working ⟨trim url, want⟩ .starting)
  | _, _ => state.put index .finished

/-- The worker of a request goes on. -/
def work (state : ImageState) (index : Nat) (worker : Worker)
    (outcome : Outcome) : ImageState :=
  { state with
    files := outcome.files
    job := match outcome.update with
      | some update => state.job.map (ImageJob.apply · update)
      | none => state.job
    writes := match outcome.update, state.job with
      | some _, some job => (job.id, index) :: state.writes
      | _, _ => state.writes
    installs := outcome.install.toList ++ state.installs }.put index
      (match outcome.next with
        | some step => .working worker step
        | none => .finished)

end ImageState

/-- What a request begins with. -/
def Thread.arrives : Thread → Bool
  | .uploading .removing | .cleaning | .adding _ | .polling => true
  | _ => false

section System

variable (locate : Text → Place) (digest : Bytes → Text)

def threadStep (state : ImageState) (index : Nat) (event : Event) :
    Thread → Option ImageState
  | .uploading step =>
      (uploadStep state.files step event).map fun after =>
        { state with files := after.1 }.put index (.uploading after.2)
  | .cleaning =>
      match event with
      | .succeeds =>
          some ({ state with files := state.files.removeStaged }.put index
            .finished)
      | .fails => some (state.put index .finished)
      | _ => none
  | .adding request => some (state.claim index request)
  | .working worker step =>
      (workerStep locate digest state.files worker step event).map
        (state.work index worker)
  | .polling => some (state.put index .finished)
  | .finished => none

def imageInstalls : TransitionSystem ImageState ImageAction where
  Initial state := state.job = none ∧ state.threads = [] ∧
    state.installs = [] ∧ state.writes = []
  next state
    | .arrive thread =>
        if thread.arrives then
          some { state with threads := state.threads ++ [thread] }
        else none
    | .advance index event =>
        state.threads[index]?.bind (threadStep locate digest state index event)

/-! ## What is installed -/

/-- One install at a time, every job written by its own worker, and only what
was compared is installed where a digest was given. -/
structure Trustworthy (state : ImageState) : Prop where
  single : ∀ (first second : Nat) worker other,
    state.threads[first]? = some (Thread.working worker .awaiting) →
      state.threads[second]? = some (Thread.working other .awaiting) →
        first = second
  own : ∀ write ∈ state.writes, write.1 = write.2
  compared : ∀ install ∈ state.installs, ∀ want ∈ install.want,
    ∀ content ∈ install.handed,
      install.compared = some content ∧ digest content = want

/-- From opening the image to the call that installs it. -/
def WorkerStep.isVerifying : WorkerStep → Bool
  | .hashing _ _ | .installing _ | .calling _ => true
  | _ => false

/-- A worker is verifying the uploaded image. -/
def Thread.Verifying : Thread → Prop
  | .working worker step => worker.place locate = .staged ∧
      worker.want.isSome = true ∧ step.isVerifying = true
  | _ => False

instance : (thread : Thread) → Decidable (thread.Verifying locate)
  | .working _ _ => inferInstanceAs (Decidable (_ ∧ _ ∧ _))
  | .uploading _ | .cleaning | .adding _ | .polling | .finished =>
      .isFalse id

/-- The step of an upload writes to the file that has the name now. -/
def UploadTouches (files : Files) : UploadStep → Event → Prop
  | .creating, .succeeds => True
  | .writing inode written, .chunk bytes =>
      written + bytes.length ≤ maxIsoBytes ∧ files.staged = some inode
  | .writing inode _, .torn _ => files.staged = some inode
  | _, _ => False

instance (files : Files) : (step : UploadStep) → (event : Event) →
    Decidable (UploadTouches files step event)
  | .creating, .succeeds => .isTrue trivial
  | .writing _ _, .chunk _ => inferInstanceAs (Decidable (_ ∧ _))
  | .writing inode _, .torn _ => decEq files.staged (some inode)
  | .writing _ _, .succeeds | .writing _ _, .fails | .writing _ _, .size _
  | .writing _ _, .ended => .isFalse id
  | .creating, .fails | .creating, .size _ | .creating, .chunk _
  | .creating, .torn _ | .creating, .ended => .isFalse id
  | .removing, _ | .discarding, _ | .finished, _ => .isFalse id

/-- No upload writes to `upload.iso` while a worker verifies it. -/
def Undisturbed (state : ImageState) : ImageAction → Prop
  | .arrive _ => True
  | .advance index event => ∀ step ∈ state.threads[index]?.bind fun
      | .uploading step => some step
      | _ => none,
    UploadTouches state.files step event →
      ∀ thread ∈ state.threads, ¬ thread.Verifying locate

instance (state : ImageState) :
    (action : ImageAction) → Decidable (Undisturbed locate state action)
  | .arrive _ => .isTrue trivial
  | .advance _ _ => inferInstanceAs (Decidable (∀ step ∈ _, _ → ∀ _ ∈ _, _))

end System

/-! ## What a worker does -/

section Worker

variable {locate : Text → Place} {digest : Bytes → Text}
  {files : Files} {worker : Worker} {step : WorkerStep} {event : Event}
  {outcome : Outcome}

/-- An update after which the job is still running. -/
def JobUpdate.isRunning : JobUpdate → Bool
  | .phase reached => reached.isRunning
  | .total _ | .downloaded _ => true
  | .done | .fail _ => false

theorem ImageJob.apply_running {job : ImageJob} {update : JobUpdate}
    (running : job.phase.isRunning = true)
    (stays : update.isRunning = true) :
    (job.apply update).phase.isRunning = true := by
  cases update <;> simp_all [ImageJob.apply, JobUpdate.isRunning]

theorem ImageJob.apply_id (job : ImageJob) (update : JobUpdate) :
    (job.apply update).id = job.id := by
  cases update <;> rfl

/-- While it goes on a worker leaves its job running, and what uploads write it
leaves alone. -/
theorem workerStep_spec
    (stepped : workerStep locate digest files worker step event =
      some outcome) :
    (outcome.next ≠ none →
        ∀ update ∈ outcome.update, update.isRunning = true) ∧
      outcome.files.uploads = files.uploads ∧
        outcome.files.staged = files.staged ∧
          outcome.files.others = files.others := by
  unfold workerStep at stepped
  split at stepped
  case h_7 =>
    cases stepped
    unfold Files.createDownload
    split <;> exact ⟨by simp, rfl, rfl, rfl⟩
  case h_9 =>
    cases stepped
    unfold receive
    dsimp only
    split <;> exact ⟨by simp, rfl, rfl, rfl⟩
  case h_21 =>
    cases stepped
    unfold hashMore
    dsimp only
    split_ifs <;> exact ⟨by simp, rfl, rfl, rfl⟩
  all_goals try split at stepped
  all_goals cases stepped
  all_goals
    exact ⟨by simp [JobUpdate.isRunning, Phase.isRunning], rfl, rfl, rfl⟩

/-- Only a call to VyOS installs. -/
theorem workerStep_install
    (stepped : workerStep locate digest files worker step event =
      some outcome) {install : Install}
    (installs : install ∈ outcome.install) :
    ∃ compared, step = .calling compared ∧
      install = ⟨worker.want, compared,
        (files.openAt (worker.place locate)).bind files.contents⟩ := by
  unfold workerStep at stepped
  split at stepped
  case h_24 =>
    cases stepped
    cases installs
    exact ⟨_, rfl, rfl⟩
  case h_9 =>
    cases stepped
    unfold receive at installs
    dsimp only at installs
    split at installs <;> cases installs
  case h_21 =>
    cases stepped
    unfold hashMore at installs
    dsimp only at installs
    split_ifs at installs <;> cases installs
  all_goals try split at stepped
  all_goals cases stepped
  all_goals cases installs

variable (locate digest) in
/-- What a verifying worker relies on, as long as its image is where it was. -/
def Trust (files : Files) (worker : Worker) : WorkerStep → Prop
  | .hashing handle read => worker.want.isSome = true →
      ∀ now ∈ files.openAt (worker.place locate),
        now = handle ∧ ∀ content ∈ files.contents now, read <+: content
  | .installing compared | .calling compared =>
      ∀ want ∈ worker.want, ∀ now ∈ files.openAt (worker.place locate),
        ∀ content ∈ files.contents now,
          compared = some content ∧ digest content = want
  | _ => True

theorem hashMore_trust {handle : Handle} {read : Bytes}
    (trust : Trust locate digest files worker (.hashing handle read)) :
    ∀ next ∈ (hashMore digest files worker handle read).next,
      Trust locate digest files worker next := by
  intro next member
  unfold hashMore at member
  dsimp only at member
  split_ifs at member with more same
  · cases member
    intro given now opened
    obtain ⟨rfl, reads⟩ := trust given now opened
    refine ⟨rfl, fun content held => ?_⟩
    obtain ⟨rest, rfl⟩ := reads content held
    rw [held, Option.getD_some, List.drop_left]
    exact (List.prefix_append_right_inj read).mpr (List.take_prefix _ _)
  · cases member
    intro want wanted now opened content held
    have given : worker.want.isSome = true :=
      Option.isSome_of_mem wanted
    obtain ⟨rfl, reads⟩ := trust given now opened
    obtain ⟨rest, rfl⟩ := reads content held
    have ended : rest = [] := by
      rw [ne_eq, not_not, held, Option.getD_some, List.drop_left,
        List.take_eq_nil_iff] at more
      exact more.resolve_left (by decide)
    subst ended
    rw [List.append_nil]
    cases same.symm.trans wanted
    exact ⟨rfl, rfl⟩
  · cases member
    unfold Worker.reject
    split <;> trivial

theorem workerStep_trust
    (stepped : workerStep locate digest files worker step event =
      some outcome)
    (trust : Trust locate digest files worker step) :
    ∀ next ∈ outcome.next, Trust locate digest outcome.files worker next := by
  intro next member
  unfold workerStep at stepped
  split at stepped
  case h_9 =>
    cases stepped
    unfold receive at member
    dsimp only at member
    split at member <;> cases member <;> try split
    all_goals trivial
  case h_18 =>
    -- Without a digest there is nothing to rely on.
    split at stepped <;> rename_i wanted <;> cases stepped <;> cases member
    · trivial
    · intro want given
      cases wanted.symm.trans given
  case h_19 =>
    split at stepped <;> rename_i opened <;> cases stepped <;> cases member
    · intro _ now again
      cases opened.symm.trans again
      exact ⟨rfl, fun content _ => List.nil_prefix⟩
    · unfold Worker.reject
      split <;> trivial
  case h_21 handle read =>
    cases stepped
    have kept : (hashMore digest files worker handle read).files = files := by
      unfold hashMore
      dsimp only
      split_ifs <;> rfl
    rw [kept]
    exact hashMore_trust trust next member
  case h_23 =>
    cases stepped
    cases member
    exact trust
  all_goals try split at stepped
  all_goals cases stepped
  all_goals cases member
  all_goals try unfold Worker.reject
  all_goals try split
  all_goals trivial

variable (locate) in
/-- What is at the worker's path stays as it is, unless its name goes. -/
def Keeps (worker : Worker) (files after : Files) : Prop :=
  ∀ now ∈ after.openAt (worker.place locate),
    now ∈ files.openAt (worker.place locate) ∧
      after.contents now = files.contents now

theorem Trust.keeps (trust : Trust locate digest files worker step)
    {after : Files} (keeps : Keeps locate worker files after) :
    Trust locate digest after worker step := by
  cases step with
  | hashing handle read =>
      intro given now opened
      obtain ⟨opened, same⟩ := keeps now opened
      rw [same]
      exact trust given now opened
  | installing compared | calling compared =>
      intro want wanted now opened
      obtain ⟨opened, same⟩ := keeps now opened
      rw [same]
      exact trust want wanted now opened
  | _ => trivial

/-- A worker that verifies nothing relies on nothing. -/
theorem trust_of_idle
    (idle : ¬ (worker.want.isSome = true ∧ step.isVerifying = true)) :
    Trust locate digest files worker step := by
  cases step with
  | hashing handle read => exact fun given => absurd ⟨given, rfl⟩ idle
  | installing compared | calling compared =>
      exact fun want wanted =>
        absurd ⟨Option.isSome_of_mem wanted, rfl⟩ idle
  | _ => trivial

theorem keeps_removeStaged :
    Keeps locate worker files files.removeStaged := by
  intro now opened
  rw [Files.openAt.eq_def] at opened
  split at opened
  · cases opened
  · rename_i place
    rw [place]
    exact ⟨opened, rfl⟩
  · rename_i place
    rw [place]
    exact ⟨opened, rfl⟩

theorem keeps_of_same {after : Files}
    (downloads : after.downloads = files.downloads ∧
      after.downloaded = files.downloaded ∧ after.others = files.others)
    (staged : worker.place locate = .staged →
      ∀ inode ∈ after.staged, inode ∈ files.staged ∧
        after.uploads[inode]? = files.uploads[inode]?) :
    Keeps locate worker files after := by
  obtain ⟨contents, name, others⟩ := downloads
  intro now opened
  cases place : worker.place locate with
  | staged =>
      rw [place] at opened
      obtain ⟨inode, linked, rfl⟩ := Option.map_eq_some_iff.mp opened
      obtain ⟨before, same⟩ := staged place inode linked
      exact ⟨Option.map_eq_some_iff.mpr ⟨inode, before, rfl⟩, same⟩
  | downloaded =>
      rw [place, Files.openAt, name] at opened
      obtain ⟨inode, linked, rfl⟩ := Option.map_eq_some_iff.mp opened
      refine ⟨opened, ?_⟩
      rw [Files.contents, Files.contents, contents]
  | outside path =>
      rw [place, Files.openAt, others] at opened
      obtain ⟨content, held, rfl⟩ := Option.map_eq_some_iff.mp opened
      refine ⟨opened, ?_⟩
      rw [Files.contents, Files.contents, others]

/-- A write to another file than the staged one. -/
theorem writeUpload_other {inode other offset : Nat} {chunk : Bytes}
    (apart : other ≠ inode) :
    (files.writeUpload inode offset chunk).uploads[other]? =
      files.uploads[other]? :=
  List.getElem?_modify_ne _ _ (Ne.symm apart)

theorem keeps_uploadStep {step next : UploadStep} {after : Files}
    (stepped : uploadStep files step event = some (after, next))
    (apart : worker.place locate = .staged →
      ¬ UploadTouches files step event) :
    Keeps locate worker files after := by
  refine keeps_of_same (uploadStep_downloads stepped) fun place inode linked => ?_
  have apart := apart place
  rw [uploadStep.eq_def] at stepped
  split at stepped
  case h_3 => exact absurd trivial apart
  case h_5 =>
    split_ifs at stepped with tooLarge
    · cases stepped
      exact ⟨linked, rfl⟩
    · cases stepped
      refine ⟨linked, writeUpload_other ?_⟩
      rintro rfl
      exact apart ⟨Nat.le_of_not_lt tooLarge, linked⟩
  case h_6 =>
    cases stepped
    refine ⟨linked, writeUpload_other ?_⟩
    rintro rfl
    exact apart linked
  all_goals cases stepped
  all_goals first | exact ⟨linked, rfl⟩ | cases linked

end Worker

/-! ## Every step -/

section Steps

variable {locate : Text → Place} {digest : Bytes → Text}
  {state : ImageState}

variable (locate digest) in
structure Sound (state : ImageState) : Prop where
  alive : ∀ (index : Nat) worker step,
    state.threads[index]? = some (Thread.working worker step) →
      ∃ job ∈ state.job, job.id = index ∧ job.phase.isRunning = true
  trusted : ∀ (index : Nat) worker step,
    state.threads[index]? = some (Thread.working worker step) →
      Trust locate digest state.files worker step
  own : ∀ write ∈ state.writes, write.1 = write.2
  compared : ∀ install ∈ state.installs, ∀ want ∈ install.want,
    ∀ content ∈ install.handed,
      install.compared = some content ∧ digest content = want

theorem getElem?_set_eq_some {threads : List Thread} {index other : Nat}
    {thread found : Thread}
    (held : (threads.set index thread)[other]? = some found) :
    other = index ∧ found = thread ∨
      other ≠ index ∧ threads[other]? = some found := by
  rw [List.getElem?_set] at held
  split_ifs at held with same inside
  · cases held
    exact .inl ⟨same.symm, rfl⟩
  · exact .inr ⟨Ne.symm same, held⟩

namespace Sound

/-- A thread goes on that is no worker before or after. -/
theorem put (sound : Sound locate digest state) (index : Nat)
    {thread : Thread} (idle : ∀ worker step, thread ≠ .working worker step) :
    Sound locate digest (state.put index thread) where
  alive other worker step held := by
    rcases getElem?_set_eq_some held with ⟨_, rfl⟩ | ⟨_, held⟩
    · exact absurd rfl (idle worker step)
    · exact sound.alive other worker step held
  trusted other worker step held := by
    rcases getElem?_set_eq_some held with ⟨_, rfl⟩ | ⟨_, held⟩
    · exact absurd rfl (idle worker step)
    · exact sound.trusted other worker step held
  own := sound.own
  compared := sound.compared

theorem withFiles (sound : Sound locate digest state) {files : Files}
    (keeps : ∀ (index : Nat) worker step,
      state.threads[index]? = some (Thread.working worker step) →
        Trust locate digest files worker step) :
    Sound locate digest { state with files := files } where
  alive := sound.alive
  trusted := keeps
  own := sound.own
  compared := sound.compared

theorem arrive (sound : Sound locate digest state) {thread : Thread}
    (arrives : thread.arrives = true) :
    Sound locate digest { state with threads := state.threads ++ [thread] } := by
  have before : ∀ (index : Nat) worker step,
      (state.threads ++ [thread])[index]? =
        some (Thread.working worker step) →
      state.threads[index]? = some (Thread.working worker step) := by
    intro index worker step held
    rw [List.getElem?_append] at held
    split_ifs at held with inside
    · exact held
    · rw [List.getElem?_singleton] at held
      split_ifs at held
      cases held
      cases arrives
  exact ⟨fun index worker step held => sound.alive index worker step
      (before index worker step held),
    fun index worker step held => sound.trusted index worker step
      (before index worker step held), sound.own, sound.compared⟩

/-- A claim finds no worker alive. -/
theorem claim (sound : Sound locate digest state) (index : Nat)
    (request : AddRequest) :
    Sound locate digest (state.claim index request) := by
  have refused : Sound locate digest (state.put index .finished) :=
    sound.put index (by simp)
  rw [ImageState.claim]
  split
  swap
  · exact refused
  rename_i url want _ _
  split_ifs with blank busy
  · exact refused
  · exact refused
  have none_alive : ∀ (other : Nat) worker step,
      state.threads[other]? ≠ some (Thread.working worker step) := by
    intro other worker step held
    obtain ⟨job, slot, _, running⟩ := sound.alive other worker step held
    rw [Option.mem_def.mp slot] at busy
    exact busy running
  refine ⟨?_, ?_, ?_, sound.compared⟩
  · intro other worker step held
    rcases getElem?_set_eq_some held with ⟨rfl, _⟩ | ⟨_, held⟩
    · exact ⟨_, rfl, rfl, rfl⟩
    · exact absurd held (none_alive other worker step)
  · intro other worker step held
    rcases getElem?_set_eq_some held with ⟨rfl, made⟩ | ⟨_, held⟩
    · cases made
      trivial
    · exact absurd held (none_alive other worker step)
  · intro write member
    rcases List.mem_cons.mp member with rfl | member
    · rfl
    · exact sound.own write member

/-- The worker of a job goes on, and no other is alive. -/
theorem work (sound : Sound locate digest state) {index : Nat}
    {worker : Worker} {step : WorkerStep} {event : Event} {outcome : Outcome}
    (held : state.threads[index]? = some (Thread.working worker step))
    (stepped : workerStep locate digest state.files worker step event =
      some outcome) :
    Sound locate digest (state.work index worker outcome) := by
  obtain ⟨job, slot, id, running⟩ := sound.alive index worker step held
  have trust := sound.trusted index worker step held
  obtain ⟨stays, _⟩ := workerStep_spec stepped
  have only : ∀ (other : Nat) worker step,
      state.threads[other]? = some (Thread.working worker step) →
        other = index := by
    intro other worker step held
    obtain ⟨same, again, theirs, _⟩ := sound.alive other worker step held
    cases (Option.mem_def.mp slot).symm.trans again
    exact theirs.symm.trans id
  rw [Option.mem_def] at slot
  refine ⟨?_, ?_, ?_, ?_⟩
  · intro other worker step held
    rcases getElem?_set_eq_some held with ⟨rfl, made⟩ | ⟨apart, held⟩
    · have goesOn : outcome.next ≠ none := by
        intro ended
        rw [ended] at made
        cases made
      simp only [ImageState.work, ImageState.put, slot, Option.map_some]
      cases updates : outcome.update with
      | none => exact ⟨job, rfl, id, running⟩
      | some update =>
          refine ⟨job.apply update, rfl, (job.apply_id update).trans id, ?_⟩
          exact ImageJob.apply_running running (stays goesOn update updates)
    · exact absurd (only other worker step held) apart
  · intro other worker step held
    rcases getElem?_set_eq_some held with ⟨rfl, made⟩ | ⟨apart, held⟩
    · split at made
      · cases made
        exact workerStep_trust stepped trust _ ‹_›
      · cases made
    · exact absurd (only other worker step held) apart
  · intro write member
    simp only [ImageState.work, ImageState.put, slot] at member
    cases updates : outcome.update with
    | none =>
        rw [updates] at member
        exact sound.own write member
    | some update =>
        simp only [updates] at member
        rcases List.mem_cons.mp member with rfl | member
        · exact id
        · exact sound.own write member
  · intro install member
    rcases List.mem_append.mp member with new | old
    · obtain ⟨compared, rfl, rfl⟩ :=
        workerStep_install stepped (Option.mem_toList.mp new)
      intro want wanted content handed
      obtain ⟨now, opened, held⟩ := Option.bind_eq_some_iff.mp handed
      exact trust want wanted now opened content held
    · exact sound.compared install old

/-- An undisturbed step keeps what holds. -/
theorem next (sound : Sound locate digest state) {action : ImageAction}
    {after : ImageState} (undisturbed : Undisturbed locate state action)
    (stepped : (imageInstalls locate digest).next state action = some after) :
    Sound locate digest after := by
  cases action with
  | arrive thread =>
      simp only [imageInstalls] at stepped
      split_ifs at stepped with arrives
      cases stepped
      exact sound.arrive arrives
  | advance index event =>
      obtain ⟨thread, held, stepped⟩ := Option.bind_eq_some_iff.mp stepped
      cases thread with
      | uploading step =>
          obtain ⟨⟨files, next⟩, uploaded, rfl⟩ :=
            Option.map_eq_some_iff.mp stepped
          refine (sound.withFiles ?_).put index (by simp)
          intro other worker verifying working
          have trust := sound.trusted other worker verifying working
          by_cases busy : worker.want.isSome = true ∧
              verifying.isVerifying = true
          · refine trust.keeps (keeps_uploadStep uploaded
              fun place touches => ?_)
            refine undisturbed step ?_ touches _
              (List.mem_of_getElem? working) ⟨place, busy⟩
            rw [held]
            rfl
          · exact trust_of_idle busy
      | cleaning =>
          cases event with
          | succeeds =>
              cases stepped
              refine (sound.withFiles ?_).put index (by simp)
              intro other worker verifying working
              exact (sound.trusted other worker verifying working).keeps
                keeps_removeStaged
          | fails =>
              cases stepped
              exact sound.put index (by simp)
          | _ => cases stepped
      | adding request =>
          cases stepped
          exact sound.claim index request
      | working worker step =>
          obtain ⟨outcome, worked, rfl⟩ := Option.map_eq_some_iff.mp stepped
          exact sound.work held worked
      | polling =>
          cases stepped
          exact sound.put index (by simp)
      | finished => cases stepped

end Sound

theorem sound_of_initial
    (initial : (imageInstalls locate digest).Initial state) :
    Sound locate digest state := by
  obtain ⟨_, threads, installs, writes⟩ := initial
  constructor
  · simp [threads]
  · simp [threads]
  · simp [writes]
  · simp [installs]

/-- What is installed is what was verified, in every run in which no upload
writes to the image under verification. -/
theorem trustworthy_of_undisturbed
    (reached : (imageInstalls locate digest).ReachableUnder
      (Undisturbed locate) state) :
    Trustworthy digest state := by
  have sound : Sound locate digest state := by
    refine reached.invariant (fun _ => sound_of_initial) ?_
    intro state action after sound undisturbed stepped
    exact sound.next undisturbed stepped
  refine ⟨?_, sound.own, sound.compared⟩
  intro first second worker other here there
  obtain ⟨job, slot, id, _⟩ := sound.alive first worker .awaiting here
  obtain ⟨same, again, theirs, _⟩ := sound.alive second other .awaiting there
  cases (Option.mem_def.mp slot).symm.trans again
  exact id.symm.trans theirs

end Steps

/-! ## Two uploads -/

/-- The paths of the two files under `/config/quartzfire`. -/
def guardPlace (path : Text) : Place :=
  if path = "/config/quartzfire/upload.iso".toList then .staged
  else if path = "/config/quartzfire/image-download.iso".toList then
    .downloaded
  else .outside path

/-- The digests of the images with the one byte 1 and with the one byte 2, and
of no image. -/
def sampleDigest (content : Bytes) : Text :=
  if content = [1] then
    "4bf5122f344554c53bde2ebb8cd2b7e3d1600ad631c385a5d7cce23c7785459a".toList
  else if content = [2] then
    "dbc1b4c900ffe48d575b5da5c638040125f65db0fe3e24494b76ea986457d986".toList
  else
    "e3b0c44298fc1c149afbf4c8996fb92427ae41e4649b934ca495991b7852b855".toList

def idleImages : ImageState where
  files := ⟨[], [], none, none, fun _ => none⟩
  job := none
  threads := []
  installs := []
  writes := []

theorem initial_idleImages :
    (imageInstalls guardPlace sampleDigest).Initial idleImages :=
  ⟨rfl, rfl, rfl, rfl⟩

/-- An upload of one byte by the thread with this number. -/
def uploadActions (index : Nat) (byte : UInt8) : List ImageAction :=
  [.arrive (.uploading .removing), .advance index .succeeds,
    .advance index .succeeds, .advance index (.chunk [byte]),
    .advance index .ended]

/-- The first byte is added with its digest and compared. -/
def verifyActions : List ImageAction :=
  [.arrive (.adding ⟨some "/config/quartzfire/upload.iso".toList,
      .text (sampleDigest [1])⟩), .advance 1 .succeeds, .advance 1 .succeeds,
    .advance 1 .succeeds, .advance 1 .succeeds, .advance 1 .succeeds,
    .advance 1 .succeeds]

def installActions : List ImageAction :=
  [.advance 1 .succeeds, .advance 1 .succeeds]

def undisturbedImages : Option ImageState :=
  (imageInstalls guardPlace sampleDigest).run idleImages
    (uploadActions 0 1 ++ verifyActions ++ installActions)

theorem undisturbedImages_taken : undisturbedImages.isSome = true := by
  decide +kernel

theorem undisturbedImages_trustworthy :
    Trustworthy sampleDigest
      (undisturbedImages.get undisturbedImages_taken) :=
  trustworthy_of_undisturbed <|
    .run (.initial initial_idleImages) _ (by decide +kernel)
      (Option.some_get _).symm

/-- A second upload comes between the comparison and the install. -/
def exchangedImages : Option ImageState :=
  (imageInstalls guardPlace sampleDigest).run idleImages
    (uploadActions 0 1 ++ verifyActions ++ uploadActions 2 2 ++ installActions)

theorem exchangedImages_taken : exchangedImages.isSome = true := by
  decide +kernel

theorem exchanged_image_installed :
    ∃ state, (imageInstalls guardPlace sampleDigest).Reachable state ∧
      ¬ Trustworthy sampleDigest state := by
  refine ⟨exchangedImages.get exchangedImages_taken, ?_, fun trusted => ?_⟩
  · exact reachable_of_run initial_idleImages _ (Option.some_get _).symm
  · have installed : ⟨some (sampleDigest [1]), some [1], some [2]⟩ ∈
        (exchangedImages.get exchangedImages_taken).installs := by
      decide +kernel
    have same := (trusted.compared _ installed _ rfl _ rfl).1
    revert same
    decide

end QuartzFire.Image
