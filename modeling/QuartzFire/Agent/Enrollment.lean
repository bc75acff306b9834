import QuartzFire.Foundation.TransitionSystem
import QuartzFire.Agent.Token

/-!
# The agent's commits, renewals and files

The owner of `system quartz-command` enrolls within the commit, the daemon
renews the certificate, and both leave their results in a handful of files that
are replaced one at a time.  A run of either is the list of steps it still has
to take, so that it can end between any two of them.
-/

namespace QuartzFire.Agent

/-! ## Files -/

inductive TrustPath where
  | webPki
  | pinnedCa
  deriving DecidableEq, Repr

structure ConfigSnapshot where
  gateway : Option String
  port : Nat
  caCertificatePem : Option String
  caCertificateName : Option String
  deriving DecidableEq

/-- `state.json` -/
structure EnrollmentState where
  enrolled : Bool
  deviceId : Option Nat
  orgId : Option String
  tokenGateway : Option String
  assignedGateway : Option String
  trustPath : Option TrustPath
  lastTokenSha256 : Option String
  enrolledAtUnix : Option Int
  certNotBeforeUnix : Option Int
  certNotAfterUnix : Option Int
  renewAfterUnix : Option Int
  deriving DecidableEq

def EnrollmentState.default : EnrollmentState :=
  ⟨false, none, none, none, none, none, none, none, none, none, none⟩

/-- The device key and the product UUID of the host it was made on. -/
structure Identity where
  key : Nat
  recordedHost : Option String
  deriving DecidableEq

/-- A fact that is missing on either side is no mismatch. -/
def Identity.mismatches (identity : Identity) (current : Option String) :
    Bool :=
  match identity.recordedHost, current with
  | some recorded, some current => recorded ≠ current
  | _, _ => false

structure Disk (Cert : Type) where
  identity : Option Identity
  /-- `client.crt` -/
  client : Option Cert
  /-- `ca-chain.crt` -/
  chain : Option (List Cert)
  /-- `pinned-ca.crt` -/
  pinned : Option Cert
  state : Option EnrollmentState
  snapshot : Option ConfigSnapshot

/-- A missing file is the default state. -/
def Disk.load {Cert : Type} (disk : Disk Cert) : EnrollmentState :=
  disk.state.getD .default

/-! ## Configuration -/

/-- `system quartz-command` -/
structure QuartzCommandConfig where
  gateway : Option String
  port : Nat
  caCertificate : Option String
  enrollTokenRaw : Option String
  deriving DecidableEq

/-- What the owner reads of a view of the configuration: its own tree and the
certificate bodies under `pki certificate`. -/
structure ConfigView where
  tree : QuartzCommandConfig
  pki : List (String × String)
  deriving DecidableEq

def pemLines (body : List Char) : List (List Char) :=
  (body.toChunks 64)

def resolvePkiCertificate (view : ConfigView) (name : String) :
    Option String :=
  (view.pki.find? fun entry => entry.1 = name).map fun entry =>
    let compact := entry.2.toList.filter fun char => !isWhitespace char
    String.ofList ("-----BEGIN CERTIFICATE-----\n".toList ++
      (pemLines compact).flatMap (fun line => line ++ ['\n']) ++
      "-----END CERTIFICATE-----\n".toList)

inductive CommitAction where
  | settingsOnly
  | alreadyEnrolled
  | enroll
  deriving DecidableEq, Repr

/-- What a commit does, with the token it found. -/
def decide (sha256 : String → String) (config : QuartzCommandConfig)
    (state : EnrollmentState) :
    Except TokenError (CommitAction × Option EnrollToken) :=
  match config.enrollTokenRaw with
  | none => .ok (.settingsOnly, none)
  | some raw =>
      match parseToken sha256 raw with
      | .error error => .error error
      | .ok token =>
          if state.enrolled ∧ state.lastTokenSha256 = some token.sha256Hex then
            .ok (.alreadyEnrolled, some token)
          else .ok (.enroll, some token)

inductive ScrubOp where
  | deleteEnrollToken
  | setGateway (host : List Char)
  | setPort (port : List Char)

def scrubOps (config : QuartzCommandConfig) (state : EnrollmentState) :
    List ScrubOp :=
  let token := if config.enrollTokenRaw.isSome then [.deleteEnrollToken] else []
  let gateway := if state.enrolled then state.tokenGateway else none
  match gateway.bind fun gateway => rsplitOnce ':' gateway.toList with
  | none => token
  | some (host, port) =>
      token ++
        (if config.gateway ≠ some (String.ofList host) then [.setGateway host]
          else []) ++
        (if (toString config.port).toList ≠ port then [.setPort port] else [])

/-- Quotes are dropped from what the scrub's script sets. -/
def ScrubOp.apply (config : QuartzCommandConfig) :
    ScrubOp → QuartzCommandConfig
  | .deleteEnrollToken => { config with enrollTokenRaw := none }
  | .setGateway host => { config with
      gateway := some (String.ofList (host.filter fun char => char ≠ '\'')) }
  | .setPort port => { config with
      port := (parsePort (port.filter fun char => char ≠ '\'')).getD 443 }

/-! ## Steps -/

/-- What the controller's part of an enrollment leaves: over which CA it was
reached when that was pinned, and its last answer. -/
structure EnrollReply (Cert : Type) where
  pinned : Option Cert
  orgId : String
  clientCert : Option Cert
  caChain : List Cert
  assignedGateway : String

structure RenewReply (Cert : Type) where
  clientCert : Option Cert
  caChain : List Cert
  notAfterUnix : Int
  renewAfterUnix : Int

inductive Step (Cert : Type) where
  | saveSnapshot (snapshot : ConfigSnapshot)
  | loadIdentity
  | enroll (token : EnrollToken)
  | writeClient (cert : Cert)
  | writeChain (chain : List Cert)
  | writePinned (cert : Cert)
  | removePinned
  | saveState (state : EnrollmentState)
  /-- The validity is read off the renewed certificate, then the state held
  since the daemon started is saved with it. -/
  | saveRenewed (held : EnrollmentState) (cert : Cert)
      (reply : RenewReply Cert)
  | bumpTrigger
  | restartDaemon

/-- The files that make up an enrollment's credentials. -/
structure Material (Cert : Type) where
  client : Option Cert
  chain : Option (List Cert)
  pinned : Option Cert
  trustPath : Option TrustPath
  tokenGateway : Option String
  assignedGateway : Option String
  deriving DecidableEq

def Material.blank {Cert : Type} : Material Cert :=
  ⟨none, none, none, none, none, none⟩

def Disk.material {Cert : Type} (disk : Disk Cert) : Material Cert :=
  { client := disk.client
    chain := disk.chain
    pinned := disk.pinned
    trustPath := disk.load.trustPath
    tokenGateway := disk.load.tokenGateway
    assignedGateway := disk.load.assignedGateway }

/-- A commit with the view it commits, or a renewal. -/
inductive Errand where
  | commit (view : ConfigView) (savesBoot : Bool)
  | renewal
  deriving DecidableEq

structure Process (Cert : Type) where
  errand : Errand
  steps : List (Step Cert)
  /-- The commit carries a token this identity has consumed. -/
  replay : Bool
  /-- The commit has presented its token. -/
  presents : Bool
  /-- What was on disk when it began, and what it is about to put there. -/
  before : Material Cert
  target : Option (Material Cert)

structure Presentation where
  key : Nat
  token : EnrollToken
  again : Bool

structure CommitResult where
  replay : Bool
  presented : Bool
  succeeded : Bool

structure World (Cert : Type) where
  disk : Disk Cert
  active : ConfigView
  boot : ConfigView
  /-- The state the daemon read when it started. -/
  daemon : Option EnrollmentState
  running : Option (Process Cert)
  /-- Tokens enrolled with, by device key, newest first. -/
  consumed : List (Nat × EnrollToken)
  presented : List Presentation
  results : List CommitResult
  /-- The material of every successful enrollment and renewal. -/
  generations : List (Material Cert)
  /-- What failed renewals found and left. -/
  failedRenewals : List (Material Cert × Material Cert)

/-- What a step meets outside the agent. -/
structure Surroundings (Cert : Type) where
  key : Nat
  host : Option String
  /-- `none` is any failure up to the end of the conversation. -/
  reply : Option (EnrollReply Cert)
  removes : Bool
  restarts : Bool
  now : Int

inductive Action (Cert : Type) where
  /-- Any view: a change, a rollback, an older configuration. -/
  | commit (view : ConfigView)
  | scrub
  | saveBoot
  | reboot
  | renew (reply : RenewReply Cert) (pinnedReads : Bool)
  | advance (met : Surroundings Cert)
  /-- The next step returns an error. -/
  | fail
  | crash (daemonDies : Bool)
  | startDaemon
  /-- `identity regenerate` -/
  | regenerate (key : Nat) (host : Option String)

/-- The digest, and what parsing a certificate yields. -/
structure Setup (Cert : Type) where
  sha256 : String → String
  validity : Cert → Option (Int × Int)

/-- The 2/3-of-lifetime renewal point. -/
def renewAfter (notBefore notAfter : Int) : Int :=
  notBefore + ((notAfter - notBefore) * 2).tdiv 3

namespace World

variable {Cert : Type}

/-- What a commit that returns has to tell. -/
def reports (process : Process Cert) (succeeded : Bool) : List CommitResult :=
  match process.errand with
  | .commit _ _ => [⟨process.replay, process.presents, succeeded⟩]
  | .renewal => []

/-- The process returns with an error. -/
def returnsError (world : World Cert) (process : Process Cert) : World Cert :=
  { world with
    running := none
    results := reports process false ++ world.results
    failedRenewals :=
      (match process.errand with
        | .commit _ _ => []
        | .renewal => [(process.before, world.disk.material)]) ++
      world.failedRenewals }

def returnsOk (world : World Cert) (process : Process Cert) : World Cert :=
  { world with
    running := none
    active := match process.errand with
      | .commit view _ => view
      | .renewal => world.active
    boot := match process.errand with
      | .commit view true => view
      | _ => world.boot
    results := reports process true ++ world.results }

/-- The current identity has consumed the token. -/
def Consumed (world : World Cert) (token : EnrollToken) : Prop :=
  ∃ identity ∈ world.disk.identity, (identity.key, token) ∈ world.consumed

instance (world : World Cert) (token : EnrollToken) :
    Decidable (world.Consumed token) :=
  inferInstanceAs (Decidable (∃ _ ∈ _, _))

end World

namespace Setup

variable {Cert : Type} (setup : Setup Cert)

def parsed (tree : QuartzCommandConfig) : Option EnrollToken :=
  tree.enrollTokenRaw.bind fun raw => (parseToken setup.sha256 raw).toOption

/-- The token a view carries is one the current identity has consumed. -/
def Replays (world : World Cert) (view : ConfigView) : Prop :=
  ∃ token ∈ setup.parsed view.tree, world.Consumed token

instance (world : World Cert) (view : ConfigView) :
    Decidable (setup.Replays world view) :=
  inferInstanceAs (Decidable (∃ _ ∈ _, _))

/-- The certificate a view refers to; `none` when it refers to a missing
one. -/
def caPem (view : ConfigView) : Option (Option String) :=
  match view.tree.caCertificate with
  | none => some none
  | some name => (resolvePkiCertificate view name).map some

/-- The steps of a commit, once its certificate and its token are read. -/
def commitSteps (view : ConfigView) (pem : Option String) :
    CommitAction × Option EnrollToken → List (Step Cert)
  | (action, token) =>
      let snapshot : ConfigSnapshot :=
        { gateway := view.tree.gateway
          port := view.tree.port
          caCertificatePem := pem
          caCertificateName := view.tree.caCertificate }
      .saveSnapshot snapshot :: match action, token with
        | .enroll, some token =>
            [.loadIdentity, .enroll token, .bumpTrigger, .restartDaemon]
        | .alreadyEnrolled, _ => [.bumpTrigger, .restartDaemon]
        | _, _ => [.restartDaemon]

/-- `commit_inner` up to its first side effect. -/
def begins (world : World Cert) (view : ConfigView) (savesBoot : Bool) :
    World Cert :=
  let replay := Decidable.decide (setup.Replays world view)
  let process (steps : List (Step Cert)) : Process Cert :=
    ⟨.commit view savesBoot, steps, replay, false, world.disk.material, none⟩
  match caPem view, decide setup.sha256 view.tree world.disk.load with
  | some pem, .ok decided =>
      { world with running := some (process (commitSteps view pem decided)) }
  | _, _ => world.returnsError (process [])

/-- What a successful enrollment goes on to write. -/
def enrolledState (identity : Identity) (token : EnrollToken)
    (reply : EnrollReply Cert) (validity : Int × Int) (now : Int) :
    EnrollmentState :=
  { enrolled := true
    deviceId := some identity.key
    orgId := some reply.orgId
    tokenGateway := some token.gateway
    assignedGateway :=
      if reply.assignedGateway = "" then none else some reply.assignedGateway
    trustPath := some (if reply.pinned.isSome then .pinnedCa else .webPki)
    lastTokenSha256 := some token.sha256Hex
    enrolledAtUnix := some now
    certNotBeforeUnix := some validity.1
    certNotAfterUnix := some validity.2
    renewAfterUnix := some (renewAfter validity.1 validity.2) }

/-- The material of a successful enrollment. -/
def enrolledMaterial (token : EnrollToken) (reply : EnrollReply Cert)
    (cert : Cert) : Material Cert :=
  { client := some cert
    chain := some reply.caChain
    pinned := reply.pinned
    trustPath := some (if reply.pinned.isSome then .pinnedCa else .webPki)
    tokenGateway := some token.gateway
    assignedGateway :=
      if reply.assignedGateway = "" then none else some reply.assignedGateway }

/-- The material of a successful renewal: the trust anchor and the gateways
stay those of the enrollment. -/
def renewedMaterial (disk : Disk Cert) (reply : RenewReply Cert)
    (cert : Cert) : Material Cert :=
  { disk.material with
    client := some cert
    chain := some reply.caChain }

def pinStep : Option Cert → Step Cert
  | some cert => .writePinned cert
  | none => .removePinned

/-- `save_certificates` -/
def saveCertificates (client : Cert) (chain : List Cert)
    (pinned : Option Cert) : List (Step Cert) :=
  [.writeClient client, .writeChain chain, pinStep pinned]

/-- The state a renewal saves over the one the daemon holds. -/
def renewedState (held : EnrollmentState) (reply : RenewReply Cert)
    (validity : Int × Int) : EnrollmentState :=
  { held with
    certNotBeforeUnix := some validity.1
    certNotAfterUnix :=
      some (if reply.notAfterUnix > 0 then reply.notAfterUnix else validity.2)
    renewAfterUnix :=
      some (if reply.renewAfterUnix > 0 then reply.renewAfterUnix
        else renewAfter validity.1 validity.2) }

/-- The conversation with the controller; its answer is checked before
anything is written. -/
def enrolls (world : World Cert) (process : Process Cert)
    (identity : Identity) (token : EnrollToken) (rest : List (Step Cert))
    (met : Surroundings Cert) : World Cert :=
  let presented := { world with
    presented := ⟨identity.key, token,
      Decidable.decide (world.Consumed token)⟩ :: world.presented }
  let process := { process with presents := true }
  match met.reply with
  | none => presented.returnsError process
  | some reply =>
      match reply.clientCert with
      | none => presented.returnsError process
      | some cert =>
          match setup.validity cert with
          | none => presented.returnsError process
          | some validity =>
              let state := enrolledState identity token reply validity met.now
              { presented with
                consumed := (identity.key, token) :: presented.consumed
                generations :=
                  enrolledMaterial token reply cert :: presented.generations
                running := some { process with
                  target := some (enrolledMaterial token reply cert)
                  steps := saveCertificates cert reply.caChain reply.pinned ++
                    .saveState state :: rest } }

/-- What a step leaves on disk when it succeeds. -/
def leaves (met : Surroundings Cert) (disk : Disk Cert) : Step Cert → Disk Cert
  | .saveSnapshot snapshot => { disk with snapshot := some snapshot }
  | .loadIdentity => { disk with
      identity := some (disk.identity.getD ⟨met.key, met.host⟩) }
  | .writeClient cert => { disk with client := some cert }
  | .writeChain chain => { disk with chain := some chain }
  | .writePinned cert => { disk with pinned := some cert }
  | .removePinned => if met.removes then { disk with pinned := none } else disk
  | .saveState state => { disk with state := some state }
  | .saveRenewed held cert reply =>
      match setup.validity cert with
      | some validity =>
          { disk with state := some (renewedState held reply validity) }
      | none => disk
  | .enroll _ | .bumpTrigger | .restartDaemon => disk

/-- A step that looks at what it finds and returns an error. -/
def refuses (met : Surroundings Cert) (disk : Disk Cert) : Step Cert → Bool
  | .loadIdentity =>
      disk.identity.any fun identity => identity.mismatches met.host
  | .saveRenewed _ cert _ => (setup.validity cert).isNone
  | _ => false

/-- The state the daemon holds after a step. -/
def holds (met : Surroundings Cert) (disk : Disk Cert)
    (daemon : Option EnrollmentState) : Step Cert → Option EnrollmentState
  | .restartDaemon =>
      if met.restarts then
        if disk.load.enrolled then some disk.load else none
      else daemon
  | .saveRenewed held cert reply =>
      some (((setup.validity cert).map (renewedState held reply)).getD held)
  | _ => daemon

/-- A generated key is no earlier one. -/
def fresh (world : World Cert) (key : Nat) : Bool :=
  !world.consumed.any fun used => used.1 = key

/-- The next step of the running process. -/
def advance (world : World Cert) (process : Process Cert)
    (met : Surroundings Cert) : Option (World Cert) :=
  match process.steps with
  | [] => some (world.returnsOk process)
  | .enroll token :: rest =>
      world.disk.identity.map fun identity =>
        setup.enrolls world process identity token rest met
  | step :: rest =>
      if world.disk.identity.isNone && !fresh world met.key then none
      else if setup.refuses met world.disk step then
        some (world.returnsError process)
      else some { world with
        disk := setup.leaves met world.disk step
        daemon := setup.holds met world.disk world.daemon step
        running := some { process with steps := rest } }

/-- Whether the source lets a step's failure end the process. -/
def mayFail : List (Step Cert) → Bool
  | [] | .removePinned :: _ | .restartDaemon :: _ => false
  | _ => true

/-- A renewal after the controller's answer. -/
def renews (world : World Cert) (held : EnrollmentState)
    (reply : RenewReply Cert) (pinnedReads : Bool) : World Cert :=
  let process (steps : List (Step Cert)) (target : Option (Material Cert)) :
      Process Cert :=
    ⟨.renewal, steps, false, false, world.disk.material, target⟩
  match reply.clientCert with
  | none => world.returnsError (process [] none)
  | some cert =>
      let pinned := if pinnedReads then world.disk.pinned else none
      let target := renewedMaterial world.disk reply cert
      { world with
        generations := if (setup.validity cert).isSome then
          target :: world.generations else world.generations
        running := some (process
          (saveCertificates cert reply.caChain pinned ++
            [.saveRenewed held cert reply]) (some target)) }

def next (world : World Cert) : Action Cert → Option (World Cert)
  | .commit view =>
      if world.running.isSome then none
      else some (setup.begins world view false)
  | .scrub =>
      if world.running.isSome then none
      else match scrubOps world.active.tree world.disk.load with
        | [] => some world
        | ops => some (setup.begins world { world.active with
            tree := ops.foldl ScrubOp.apply world.active.tree } true)
  | .saveBoot => some { world with boot := world.active }
  | .reboot =>
      some (setup.begins { world with running := none, daemon := none }
        world.boot false)
  | .renew reply pinnedReads =>
      if world.running.isSome then none
      else world.daemon.map fun held =>
        setup.renews world held reply pinnedReads
  | .advance met =>
      world.running.bind fun process => setup.advance world process met
  | .fail =>
      world.running.bind fun process =>
        if mayFail process.steps then some (world.returnsError process)
        else none
  | .crash daemonDies =>
      world.running.map fun process => { world with
        running := none
        daemon := match process.errand with
          | .renewal => none
          | .commit _ _ => if daemonDies then none else world.daemon }
  | .startDaemon =>
      if world.running.isSome then none
      else some { world with
        daemon := if world.disk.load.enrolled then some world.disk.load
          else none }
  | .regenerate key host =>
      if world.running.isSome || !fresh world key then none
      else some { world with
        daemon := none
        disk := { world.disk with
          identity := some ⟨key, host⟩
          client := none
          chain := none
          pinned := none
          state := none } }

/-- A device before its first commit. -/
structure Starts (world : World Cert) : Prop where
  client : world.disk.client = none
  chain : world.disk.chain = none
  pinned : world.disk.pinned = none
  state : world.disk.state = none
  daemon : world.daemon = none
  running : world.running = none
  consumed : world.consumed = []
  presented : world.presented = []
  results : world.results = []
  generations : world.generations = []
  failedRenewals : world.failedRenewals = []

def system : TransitionSystem (World Cert) (Action Cert) where
  Initial := Starts
  next := setup.next

end Setup

/-! ## A small device -/

section Traces

/-- Certificates are their last second; only those of a positive one parse. -/
def toySetup : Setup Nat where
  sha256 := fun raw => raw
  validity := fun cert => if cert = 0 then none else some (0, cert)

def tokenText (id : String) : String :=
  "QC1|gw.example:443|org|" ++ id ++ ".secret|sha256:" ++
    "aa00000000000000000000000000000000000000000000000000000000000bb1"

def viewWith (token : Option String) : ConfigView :=
  ⟨⟨none, 443, none, token⟩, []⟩

def newDevice : World Nat where
  disk := ⟨none, none, none, none, none, none⟩
  active := viewWith none
  boot := viewWith none
  daemon := none
  running := none
  consumed := []
  presented := []
  results := []
  generations := []
  failedRenewals := []

theorem starts_newDevice : Setup.Starts newDevice where
  client := rfl
  chain := rfl
  pinned := rfl
  state := rfl
  daemon := rfl
  running := rfl
  consumed := rfl
  presented := rfl
  results := rfl
  generations := rfl
  failedRenewals := rfl

/-- Everything succeeds, and the controller is reached over a pinned CA. -/
def goodDay : Surroundings Nat where
  key := 1
  host := none
  reply := some ⟨some 7, "org", some 100, [8], ""⟩
  removes := true
  restarts := true
  now := 0

def enrollTrace (token : String) : List (Action Nat) :=
  .commit (viewWith (some token)) :: List.replicate 10 (.advance goodDay)

def renewTrace (cert : Nat) : List (Action Nat) :=
  .renew ⟨some cert, [8], 0, 0⟩ true :: List.replicate 5 (.advance goodDay)

end Traces

end QuartzFire.Agent
