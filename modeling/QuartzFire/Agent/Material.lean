import QuartzFire.Agent.Enrollment

/-!
# One generation of credentials

The files of an enrollment are replaced one after another, so a run that ends in
between leaves files of two generations.  It cannot where the device was not
enrolled, or where only one of the files changes.
-/

namespace QuartzFire.Agent

variable {Cert : Type} {setup : Setup Cert} {world after : World Cert}

namespace Material

/-- All files are the generation's; before the state says that the device is
enrolled, some may still be missing. -/
def From (material generation : Material Cert) : Prop :=
  material = generation ∨
    (material.trustPath = none ∧ material.tokenGateway = none ∧
      material.assignedGateway = none) ∧
    (material.client = none ∨ material.client = generation.client) ∧
    (material.chain = none ∨ material.chain = generation.chain) ∧
    (material.pinned = none ∨ material.pinned = generation.pinned)

/-- At most one of the files differs. -/
def Adjacent (material other : Material Cert) : Prop :=
  other = { material with client := other.client } ∨
  other = { material with chain := other.chain } ∨
  other = { material with pinned := other.pinned } ∨
  other = { material with
    trustPath := other.trustPath
    tokenGateway := other.tokenGateway
    assignedGateway := other.assignedGateway }

end Material

namespace Setup

/-- What is on disk is nothing, or comes from one successful enrollment or
renewal. -/
def Known (world : World Cert) (material : Material Cert) : Prop :=
  material = .blank ∨
    ∃ generation ∈ world.generations, material.From generation

/-- At every point the files are of one generation and the stored certificate
parses; a renewal that failed has replaced nothing. -/
structure OneGeneration (setup : Setup Cert) (world : World Cert) : Prop where
  material : Known world world.disk.material
  parses : ∀ cert ∈ world.disk.client, (setup.validity cert).isSome = true
  renewals : ∀ failed ∈ world.failedRenewals, failed.2 = failed.1

/-- The daemon holds the trust path and the gateways that are on disk. -/
def Holds (held : EnrollmentState) (disk : Disk Cert) : Prop :=
  held.trustPath = disk.load.trustPath ∧
    held.tokenGateway = disk.load.tokenGateway ∧
    held.assignedGateway = disk.load.assignedGateway

/-- An enrollment that succeeds finds no files or changes one of them only, and
a pinned CA that is no longer used is removed. -/
def ChangesOne (setup : Setup Cert) (world : World Cert)
    (met : Surroundings Cert) : Step Cert → Prop
  | .enroll token =>
      ∀ reply ∈ met.reply, ∀ cert ∈ reply.clientCert,
        (setup.validity cert).isSome = true →
          world.disk.material = .blank ∨
            world.disk.material.Adjacent (enrolledMaterial token reply cert)
  | .removePinned => met.removes = true ∨ world.disk.pinned = none
  | _ => True

/-- Nothing is replaced by halves: besides enrollments, a renewal changes only
the certificate or only the chain, with a certificate that parses, the pinned
CA read back and the state on disk still the one the daemon holds; and it
returns no error once it has changed something. -/
def OneFile (setup : Setup Cert) (world : World Cert) : Action Cert → Prop
  | .advance met =>
      ∀ process ∈ world.running, ∀ step ∈ process.steps.head?,
        setup.ChangesOne world met step
  | .renew reply pinnedReads =>
      ∀ held ∈ world.daemon, ∀ cert ∈ reply.clientCert,
        (setup.validity cert).isSome = true ∧
          world.disk.material.Adjacent
            (renewedMaterial world.disk reply cert) ∧
          (pinnedReads = true ∨ world.disk.pinned = none) ∧
          Holds held world.disk
  | .fail =>
      ∀ process ∈ world.running, process.errand = .renewal →
        world.disk.material = process.before
  | _ => True

/-! ## The material along the steps that are left -/

/-- What a step that succeeds makes of the material. -/
def replaces (step : Step Cert) (material : Material Cert) : Material Cert :=
  match step with
  | .writeClient cert => { material with client := some cert }
  | .writeChain chain => { material with chain := some chain }
  | .writePinned cert => { material with pinned := some cert }
  | .removePinned => { material with pinned := none }
  | .saveState state => { material with
      trustPath := state.trustPath
      tokenGateway := state.tokenGateway
      assignedGateway := state.assignedGateway }
  | .saveRenewed held _ _ => { material with
      trustPath := held.trustPath
      tokenGateway := held.tokenGateway
      assignedGateway := held.assignedGateway }
  | .saveSnapshot _ | .loadIdentity | .enroll _ | .bumpTrigger
  | .restartDaemon => material

theorem leaves_material {met : Surroundings Cert} {disk : Disk Cert}
    {step : Step Cert} (accepted : setup.refuses met disk step = false)
    (removes : step = .removePinned → met.removes = true ∨ disk.pinned = none) :
    (setup.leaves met disk step).material = replaces step disk.material := by
  cases step with
  | removePinned =>
      rcases removes rfl with removed | missing
      · simp [leaves, replaces, Disk.material, Disk.load, removed]
      · simp only [leaves, replaces]
        split
        · rfl
        · simp [Disk.material, missing]
  | saveRenewed held cert reply =>
      cases valid : setup.validity cert with
      | none => simp [refuses, valid] at accepted
      | some validity =>
          simp [leaves, replaces, valid, Disk.material, Disk.load, renewedState]
  | saveSnapshot | loadIdentity | enroll | writeClient | writeChain
  | writePinned | saveState | bumpTrigger | restartDaemon => rfl

/-- Whichever steps succeed, what is left is what was there or of the new
generation. -/
def Covered (before target : Material Cert) (material : Material Cert)
    (steps : List (Step Cert)) : Prop :=
  ∀ done, done <+: steps →
    let left := done.foldl (fun material step => replaces step material) material
    left = before ∨ left.From target

theorem Covered.now {before target material : Material Cert}
    {steps : List (Step Cert)} (covered : Covered before target material steps) :
    material = before ∨ material.From target :=
  covered [] (List.nil_prefix)

theorem Covered.tail {before target material : Material Cert}
    {step : Step Cert} {rest : List (Step Cert)}
    (covered : Covered before target material (step :: rest)) :
    Covered before target (replaces step material) rest := by
  intro done start
  exact covered (step :: done) (List.cons_prefix_cons.mpr ⟨rfl, start⟩)

theorem Covered.cons {before target material : Material Cert}
    {step : Step Cert} {rest : List (Step Cert)}
    (now : material = before ∨ material.From target)
    (later : Covered before target (replaces step material) rest) :
    Covered before target material (step :: rest) := by
  intro done start
  rcases List.prefix_cons_iff.mp start with rfl | ⟨others, rfl, within⟩
  · exact now
  · exact later others within

/-- Steps that replace no file of the material. -/
theorem Covered.idle {before target material : Material Cert}
    {steps : List (Step Cert)}
    (now : material = before ∨ material.From target)
    (idle : ∀ step ∈ steps, ∀ material : Material Cert,
      replaces step material = material) :
    Covered before target material steps := by
  induction steps with
  | nil =>
      intro done start
      rw [List.prefix_nil.mp start]
      exact now
  | cons step rest ih =>
      refine .cons now ?_
      rw [idle step List.mem_cons_self]
      exact ih fun other member => idle other (List.mem_cons_of_mem _ member)

/-- The files between the first and the last write, one after another. -/
theorem between_writes {before target : Material Cert}
    (narrow : before = .blank ∨ before.Adjacent target) :
    ({ before with client := target.client } = before ∨
        Material.From { before with client := target.client } target) ∧
      ({ before with client := target.client, chain := target.chain } =
          before ∨
        Material.From
          { before with client := target.client, chain := target.chain }
          target) ∧
      ({ before with
          client := target.client
          chain := target.chain
          pinned := target.pinned } = before ∨
        Material.From
          { before with
            client := target.client
            chain := target.chain
            pinned := target.pinned } target) := by
  obtain ⟨client, chain, pinned, trustPath, tokenGateway, assigned⟩ := before
  obtain ⟨client', chain', pinned', trustPath', tokenGateway', assigned'⟩ :=
    target
  rcases narrow with blank | first | second | third | last
  · simp only [Material.blank, Material.mk.injEq] at blank
    simp [Material.From, blank]
  · simp only [Material.mk.injEq, true_and] at first
    simp [Material.From, first]
  · simp only [Material.mk.injEq, true_and] at second
    simp [Material.From, second]
  · simp only [Material.mk.injEq, true_and] at third
    simp [Material.From, third]
  · simp only [Material.mk.injEq, and_true] at last
    simp [last]

theorem Covered.writes {before target : Material Cert} {cert : Cert}
    {chain : List Cert} {last : Step Cert} {rest : List (Step Cert)}
    (narrow : before = .blank ∨ before.Adjacent target)
    (client_eq : target.client = some cert)
    (chain_eq : target.chain = some chain)
    (last_eq : replaces last
      { before with
        client := target.client
        chain := target.chain
        pinned := target.pinned } = target)
    (idle : ∀ step ∈ rest, ∀ material : Material Cert,
      replaces step material = material) :
    Covered before target before
      (saveCertificates cert chain target.pinned ++ last :: rest) := by
  obtain ⟨first, second, third⟩ := between_writes narrow
  have pins : ∀ material : Material Cert,
      replaces (pinStep target.pinned) material =
        { material with pinned := target.pinned } := by
    cases target.pinned <;> simp [pinStep, replaces]
  refine .cons (.inl rfl) (.cons ?_ (.cons ?_ (.cons ?_ ?_)))
  · simp only [replaces, ← client_eq]
    exact first
  · simp only [replaces, ← client_eq, ← chain_eq]
    exact second
  · simp only [pins]
    simp only [replaces, ← client_eq, ← chain_eq]
    exact third
  · simp only [pins]
    simp only [replaces.eq_1, replaces.eq_2, ← client_eq, ← chain_eq]
    rw [last_eq]
    exact .idle (.inr (.inl rfl)) idle

/-! ## What every step keeps -/

theorem Known.mono {material : Material Cert}
    (grown : world.generations ⊆ after.generations)
    (known : Known world material) : Known after material :=
  known.imp_right fun ⟨generation, member, same⟩ =>
    ⟨generation, grown member, same⟩

/-- The certificate, if there is one, parses. -/
def Parses (setup : Setup Cert) (material : Material Cert) : Prop :=
  ∀ cert ∈ material.client, (setup.validity cert).isSome = true

theorem Parses.to_disk {before target material : Material Cert}
    (before_parses : setup.Parses before) (target_parses : setup.Parses target)
    (now : material = before ∨ material.From target) :
    setup.Parses material := by
  rcases now with rfl | rfl | ⟨_, client, _⟩
  · exact before_parses
  · exact target_parses
  · rcases client with none | same
    · intro cert member
      simp [none] at member
    · intro cert member
      exact target_parses cert (same ▸ member)

def asks : Step Cert → Bool
  | .enroll _ => true
  | _ => false

structure Pending (setup : Setup Cert) (world : World Cert)
    (process : Process Cert) : Prop where
  before : Known world process.before
  parses : setup.Parses process.before
  /-- Nothing is replaced before the controller has answered. -/
  asking : process.target = none →
    world.disk.material = process.before ∧
      ∀ step ∈ process.steps, ∀ material : Material Cert,
        replaces step material = material
  /-- One question is asked and answered once. -/
  once : process.steps.countP asks + (if process.target.isSome then 1 else 0) ≤ 1
  answered : ∀ target ∈ process.target,
    target ∈ world.generations ∧ setup.Parses target ∧
      Covered process.before target world.disk.material process.steps
  renewal : process.errand = .renewal → ∀ step ∈ process.steps,
    (∀ token, step ≠ .enroll token) ∧
      ∀ met disk, setup.refuses met disk step = false

structure Settled (setup : Setup Cert) (world : World Cert) : Prop where
  oneGeneration : setup.OneGeneration world
  pending : ∀ process ∈ world.running, setup.Pending world process

namespace Settled

theorem start (starts : Setup.Starts world) : setup.Settled world := by
  refine ⟨⟨.inl ?_, ?_, ?_⟩, ?_⟩
  · simp [Disk.material, Disk.load, starts.client, starts.chain, starts.pinned,
      starts.state, Material.blank, EnrollmentState.default]
  · simp [starts.client]
  · simp [starts.failedRenewals]
  · simp [starts.running]

/-- Nothing on disk and nothing recorded has changed. -/
theorem idle (settled : setup.Settled world)
    (disk : after.disk.material = world.disk.material)
    (generations : after.generations = world.generations)
    (failed : ∀ failed ∈ after.failedRenewals,
      failed ∈ world.failedRenewals ∨ failed.2 = failed.1)
    (running : after.running = none) : setup.Settled after := by
  have client : after.disk.client = world.disk.client :=
    congrArg Material.client disk
  refine ⟨⟨?_, ?_, ?_⟩, ?_⟩
  · rw [disk]
    exact settled.oneGeneration.material.mono (generations ▸ List.Subset.refl _)
  · rw [client]
    exact settled.oneGeneration.parses
  · intro pair member
    exact (failed pair member).elim (settled.oneGeneration.renewals pair) id
  · simp [running]

theorem begins (settled : setup.Settled world) (view : ConfigView)
    (savesBoot : Bool) : setup.Settled (setup.begins world view savesBoot) := by
  obtain ⟨material, parses, renewals⟩ := settled.oneGeneration
  unfold Setup.begins
  dsimp only
  split
  · rename_i pem decided _ _
    refine ⟨⟨material, parses, renewals⟩, ?_⟩
    intro process member
    cases member
    obtain ⟨action, token⟩ := decided
    refine ⟨material, parses, fun _ => ⟨rfl, ?_⟩, ?_, by simp, by simp⟩
    · cases action <;> cases token <;> simp [commitSteps, replaces]
    · cases action <;> cases token <;>
        simp [commitSteps, asks, List.countP_cons]
  · exact settled.idle rfl rfl (fun _ member => .inl member) rfl

theorem renews (settled : setup.Settled world) {held : EnrollmentState}
    {reply : RenewReply Cert} {pinnedReads : Bool}
    (narrow : ∀ cert ∈ reply.clientCert,
      (setup.validity cert).isSome = true ∧
        world.disk.material.Adjacent (renewedMaterial world.disk reply cert) ∧
        (pinnedReads = true ∨ world.disk.pinned = none) ∧
        Holds held world.disk) :
    setup.Settled (setup.renews world held reply pinnedReads) := by
  obtain ⟨material, parses, renewals⟩ := settled.oneGeneration
  unfold Setup.renews
  dsimp only
  split
  · refine settled.idle rfl rfl ?_ rfl
    intro failed member
    rcases List.mem_cons.mp member with rfl | before
    · exact .inr rfl
    · exact .inl before
  · rename_i cert answered
    obtain ⟨valid, adjacent, pinned, trust, token, assigned⟩ :=
      narrow cert answered
    have kept : (if pinnedReads = true then world.disk.pinned else none) =
        (renewedMaterial world.disk reply cert).pinned := by
      rcases pinned with reads | missing
      · rw [if_pos reads]
        rfl
      · rw [missing, ite_self]
        exact missing.symm
    rw [if_pos valid, kept]
    refine ⟨⟨material.mono (List.subset_cons_self _ _), parses, renewals⟩, ?_⟩
    intro process member
    cases member
    refine ⟨material.mono (List.subset_cons_self _ _), parses, by simp, ?_, ?_,
      ?_⟩
    · cases (renewedMaterial world.disk reply cert).pinned <;>
        simp [saveCertificates, pinStep, asks]
    · intro target same
      cases same
      refine ⟨List.mem_cons_self, ?_, ?_⟩
      · intro other same
        cases same
        exact valid
      · refine .writes (.inr adjacent) rfl rfl ?_ (by simp)
        simp [replaces, renewedMaterial, trust, token, assigned,
          Disk.material]
    · intro _ step member
      have pins : ∀ cert : Option Cert,
          (∀ token, pinStep cert ≠ .enroll token) ∧
            ∀ met disk, setup.refuses met disk (pinStep cert) = false := by
        intro cert
        cases cert <;> simp [pinStep, refuses]
      simp only [saveCertificates, List.cons_append, List.nil_append,
        List.mem_cons, List.not_mem_nil, or_false] at member
      rcases member with rfl | rfl | rfl | rfl
      · simp [refuses]
      · simp [refuses]
      · exact pins _
      · refine ⟨by simp, fun met disk => ?_⟩
        rw [refuses, Option.isNone_eq_false_iff]
        exact valid

/-- A process that returns an error after it changed nothing. -/
theorem returnsError (settled : setup.Settled world) {process : Process Cert}
    (unchanged : process.errand = .renewal →
      world.disk.material = process.before) :
    setup.Settled (world.returnsError process) := by
  refine settled.idle rfl rfl ?_ rfl
  intro failed member
  rcases List.mem_append.mp member with now | before
  · cases errand : process.errand with
    | commit view savesBoot => simp [errand] at now
    | renewal =>
        simp only [errand, List.mem_singleton] at now
        subst now
        exact .inr (unchanged errand)
  · exact .inl before

theorem enrolls (settled : setup.Settled world) {process : Process Cert}
    (pending : setup.Pending world process) {identity : Identity}
    {token : EnrollToken} {rest : List (Step Cert)} {met : Surroundings Cert}
    (steps : process.steps = .enroll token :: rest)
    (narrow : ∀ reply ∈ met.reply, ∀ cert ∈ reply.clientCert,
      (setup.validity cert).isSome = true →
        world.disk.material = .blank ∨
          world.disk.material.Adjacent (enrolledMaterial token reply cert)) :
    setup.Settled (setup.enrolls world process identity token rest met) := by
  obtain ⟨material, parses, renewals⟩ := settled.oneGeneration
  have commit : process.errand ≠ .renewal := fun renewal =>
    (pending.renewal renewal (.enroll token) (by simp [steps])).1 token rfl
  have once := pending.once
  rw [steps, List.countP_cons_of_pos (by rfl)] at once
  have asking : process.target = none := by
    cases target : process.target with
    | none => rfl
    | some answered => simp [target] at once
  have idle : ∀ step ∈ rest, ∀ material : Material Cert,
      replaces step material = material := fun step member =>
    (pending.asking asking).2 step (by simp [steps, member])
  have presented : ∀ again, setup.Settled { world with
      presented := ⟨identity.key, token, again⟩ :: world.presented } :=
    fun _ => ⟨⟨material, parses, renewals⟩, fun other member =>
      have pending := settled.pending other member
      ⟨pending.before, pending.parses, pending.asking, pending.once,
        pending.answered, pending.renewal⟩⟩
  unfold Setup.enrolls
  dsimp only
  split
  · exact (presented _).returnsError fun renewal => absurd renewal commit
  rename_i reply answered
  split
  · exact (presented _).returnsError fun renewal => absurd renewal commit
  rename_i cert issued
  split
  · exact (presented _).returnsError fun renewal => absurd renewal commit
  rename_i validity valid
  have grown := List.subset_cons_self (enrolledMaterial token reply cert)
    world.generations
  refine ⟨⟨material.mono grown, parses, renewals⟩, ?_⟩
  intro other member
  cases member
  refine ⟨pending.before.mono grown, pending.parses, by simp, ?_, ?_,
    fun renewal => absurd renewal commit⟩
  · have none_left : rest.countP asks = 0 := by omega
    cases reply.pinned <;>
      simp [saveCertificates, pinStep, asks, none_left]
  intro target same
  cases same
  refine ⟨List.mem_cons_self, ?_, ?_⟩
  · intro other same
    cases same
    simp [valid]
  · have narrow := narrow reply answered cert issued (by simp [valid])
    rw [(pending.asking asking).1] at narrow
    dsimp only
    rw [(pending.asking asking).1]
    exact .writes narrow rfl rfl rfl idle

theorem advance (settled : setup.Settled world) {process : Process Cert}
    {met : Surroundings Cert} (running : world.running = some process)
    (narrow : ∀ step ∈ process.steps.head?, setup.ChangesOne world met step)
    (stepped : setup.advance world process met = some after) :
    setup.Settled after := by
  have pending := settled.pending process running
  obtain ⟨material, parses, renewals⟩ := settled.oneGeneration
  unfold Setup.advance at stepped
  split at stepped
  · cases stepped
    exact settled.idle rfl rfl (fun _ member => .inl member) rfl
  · rename_i token rest steps
    obtain ⟨identity, _, same⟩ := Option.map_eq_some_iff.mp stepped
    subst same
    exact settled.enrolls pending steps (narrow (.enroll token) (by simp [steps]))
  · rename_i step rest ordinary steps
    split at stepped
    · cases stepped
    split at stepped
    · rename_i refused
      cases stepped
      refine settled.returnsError fun renewal => ?_
      have accepted := (pending.renewal renewal step (by simp [steps])).2 met
        world.disk
      simp [accepted] at refused
    · rename_i accepted
      cases stepped
      have replaced : (setup.leaves met world.disk step).material =
          replaces step world.disk.material :=
        leaves_material (by simpa using accepted) fun removes =>
          have narrow := narrow step (by simp [steps])
          by rwa [removes] at narrow
      have now : (setup.leaves met world.disk step).material = process.before ∨
          ∃ target ∈ process.target,
            (setup.leaves met world.disk step).material.From target := by
        rw [replaced]
        cases target : process.target with
        | none =>
            obtain ⟨same, idle⟩ := pending.asking target
            rw [idle step (by simp [steps])]
            exact .inl same
        | some target' =>
            obtain ⟨_, _, covered⟩ := pending.answered target' target
            rw [steps] at covered
            exact covered.tail.now.imp_right fun same => ⟨target', rfl, same⟩
      refine ⟨⟨?_, ?_, renewals⟩, ?_⟩
      · rcases now with same | ⟨target, answered, same⟩
        · exact same ▸ pending.before
        · exact .inr ⟨target, (pending.answered target answered).1, same⟩
      · rcases now with same | ⟨target, answered, same⟩
        · exact Parses.to_disk pending.parses pending.parses (.inl same)
        · exact Parses.to_disk pending.parses
            (pending.answered target answered).2.1 (.inr same)
      · intro other member
        cases member
        have once := pending.once
        rw [steps, List.countP_cons] at once
        refine ⟨pending.before, pending.parses, fun asking => ⟨?_, ?_⟩,
          by dsimp only; omega, ?_, ?_⟩
        · obtain ⟨same, idle⟩ := pending.asking asking
          exact (replaced.trans (idle step (by simp [steps]) _)).trans same
        · exact fun other later =>
            (pending.asking asking).2 other (by simp [steps, later])
        · intro target answered
          obtain ⟨successful, valid, covered⟩ :=
            pending.answered target answered
          rw [steps] at covered
          exact ⟨successful, valid, replaced ▸ covered.tail⟩
        · exact fun renewal other later =>
            pending.renewal renewal other (by simp [steps, later])

theorem step (settled : setup.Settled world) {action : Action Cert}
    (narrow : setup.OneFile world action)
    (stepped : setup.next world action = some after) :
    setup.Settled after := by
  obtain ⟨material, parses, renewals⟩ := settled.oneGeneration
  cases action with
  | commit view =>
      obtain ⟨_, same⟩ := Option.ite_none_left_eq_some.mp stepped
      cases same
      exact settled.begins view false
  | scrub =>
      obtain ⟨_, same⟩ := Option.ite_none_left_eq_some.mp stepped
      split at same
      · cases same
        exact settled
      · cases same
        exact settled.begins _ true
  | saveBoot =>
      cases stepped
      exact ⟨⟨material, parses, renewals⟩, fun process member =>
        have pending := settled.pending process member
        ⟨pending.before, pending.parses, pending.asking, pending.once,
          pending.answered, pending.renewal⟩⟩
  | reboot =>
      cases stepped
      have down : setup.Settled
          { world with running := none, daemon := none } :=
        settled.idle rfl rfl (fun _ member => .inl member) rfl
      exact down.begins world.boot false
  | renew reply pinnedReads =>
      obtain ⟨_, same⟩ := Option.ite_none_left_eq_some.mp stepped
      obtain ⟨held, daemon, same⟩ := Option.map_eq_some_iff.mp same
      subst same
      exact settled.renews (narrow held daemon)
  | advance met =>
      obtain ⟨process, running, stepped⟩ := Option.bind_eq_some_iff.mp stepped
      exact settled.advance running (narrow process running) stepped
  | fail =>
      obtain ⟨process, running, stepped⟩ := Option.bind_eq_some_iff.mp stepped
      obtain ⟨_, same⟩ := Option.ite_none_right_eq_some.mp stepped
      cases same
      exact settled.returnsError (narrow process running)
  | crash daemonDies =>
      obtain ⟨process, running, same⟩ := Option.map_eq_some_iff.mp stepped
      subst same
      exact settled.idle rfl rfl (fun _ member => .inl member) rfl
  | startDaemon =>
      obtain ⟨idle, same⟩ := Option.ite_none_left_eq_some.mp stepped
      cases same
      exact settled.idle rfl rfl (fun _ member => .inl member)
        (by simpa using idle)
  | regenerate key host =>
      obtain ⟨idle, same⟩ := Option.ite_none_left_eq_some.mp stepped
      cases same
      refine ⟨⟨.inl rfl, by simp, renewals⟩, ?_⟩
      intro process member
      simp_all

end Settled

/-- Every point of a run that replaces nothing by halves. -/
theorem oneGeneration_of_oneFile
    (reached : setup.system.ReachableUnder setup.OneFile world) :
    setup.OneGeneration world := by
  have settled : setup.Settled world := by
    apply reached.invariant
    · exact fun _ starts => .start starts
    · exact fun _ _ _ settled narrow stepped => settled.step narrow stepped
  exact settled.oneGeneration

end Setup

/-! ## A renewal that is answered with garbage -/

section Traces

/-- Enrolled, then renewed with another certificate only. -/
def renewedTrace : List (Action Nat) :=
  enrollTrace (tokenText "one") ++ renewTrace 200

instance (material generation : Material Nat) :
    Decidable (material.From generation) := by
  unfold Material.From
  infer_instance

instance (material other : Material Nat) :
    Decidable (material.Adjacent other) := by
  unfold Material.Adjacent
  infer_instance

instance (held : EnrollmentState) (disk : Disk Nat) :
    Decidable (Setup.Holds held disk) := by
  unfold Setup.Holds
  infer_instance

instance (world : World Nat) (met : Surroundings Nat) (step : Step Nat) :
    Decidable (toySetup.ChangesOne world met step) := by
  unfold Setup.ChangesOne
  split <;> infer_instance

instance (world : World Nat) (action : Action Nat) :
    Decidable (toySetup.OneFile world action) := by
  unfold Setup.OneFile
  split <;> infer_instance

theorem renewedTrace_oneGeneration :
    ∃ world, toySetup.system.run newDevice renewedTrace = some world ∧
      world.disk.client = some 200 ∧ world.generations.length = 2 ∧
      toySetup.OneGeneration world := by
  have replayed : (toySetup.system.run newDevice renewedTrace).map
      (fun world => (world.disk.client, world.generations.length)) =
        some (some 200, 2) := by decide +kernel
  obtain ⟨world, replay, observed⟩ := Option.map_eq_some_iff.mp replayed
  obtain ⟨client, generations⟩ := Prod.mk.inj observed
  have reached : toySetup.system.ReachableUnder toySetup.OneFile world :=
    TransitionSystem.ReachableUnder.run (.initial starts_newDevice)
      renewedTrace (by decide +kernel) replay
  exact ⟨world, replay, client, generations,
    Setup.oneGeneration_of_oneFile reached⟩

/-- The renewed certificate does not parse, which shows only when the files are
written. -/
def garbageTrace : List (Action Nat) :=
  enrollTrace (tokenText "one") ++ (renewTrace 0).dropLast

theorem garbage_renewal_replaces_certificate :
    ∃ world, toySetup.system.Reachable world ∧
      (∃ failed ∈ world.failedRenewals,
        failed.1.client = some 100 ∧ failed.2.client = some 0) ∧
      world.disk.client = some 0 ∧ ¬ toySetup.OneGeneration world := by
  have replayed : (toySetup.system.run newDevice garbageTrace).map
      (fun world => (world.disk.client, world.failedRenewals.map fun failed =>
        (failed.1.client, failed.2.client))) =
      some (some 0, [(some 100, some 0)]) := by decide +kernel
  obtain ⟨world, replay, observed⟩ := Option.map_eq_some_iff.mp replayed
  obtain ⟨client, failures⟩ := Prod.mk.inj observed
  obtain ⟨failed, listed, same⟩ := List.map_eq_singleton_iff.mp failures
  refine ⟨world, TransitionSystem.reachable_of_run starts_newDevice
    garbageTrace replay, ⟨failed, by simp [listed], Prod.mk.inj same⟩, client,
    ?_⟩
  intro oneGeneration
  have parses := oneGeneration.parses 0 client
  exact absurd parses (by decide)

end Traces

end QuartzFire.Agent
