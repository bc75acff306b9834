import QuartzFire.Agent.Enrollment

/-!
# Enrollment tokens that come back

A consumed token is known again by one remembered digest.  It is enough where
only the last token of an identity comes back, and where the record of an
enrollment is always written once the controller has answered.
-/

namespace QuartzFire.Agent

variable {Cert : Type} {setup : Setup Cert} {world after : World Cert}

namespace World

/-- The last token the current identity has enrolled with. -/
def lastConsumed (world : World Cert) : Option EnrollToken :=
  world.disk.identity.bind fun identity =>
    (world.consumed.find? fun used => used.1 = identity.key).map Prod.snd

/-- The state on disk remembers it. -/
def Remembers (world : World Cert) : Prop :=
  ∀ token ∈ world.lastConsumed,
    world.disk.load.enrolled = true ∧
      world.disk.load.lastTokenSha256 = some token.sha256Hex

/-- No consumed token was presented again, and a commit that carries one
succeeds without presenting it. -/
structure TokensOnce (world : World Cert) : Prop where
  presented : ∀ presentation ∈ world.presented, presentation.again = false
  replays : ∀ result ∈ world.results, result.replay = true →
    result.presented = false ∧ result.succeeded = true

end World

def Step.recordsEnrollment : Step Cert → Bool
  | .saveState _ => true
  | _ => false

namespace Setup

/-- A consumed token in the view is the last one of the identity, and the
certificate the view refers to is there. -/
def CarriesLast (setup : Setup Cert) (world : World Cert) (view : ConfigView) :
    Prop :=
  ∀ token ∈ setup.parsed view.tree, world.Consumed token →
    world.lastConsumed = some token ∧ (caPem view).isSome = true

/-- No enrollment of the running process is still to be recorded. -/
def Recorded (world : World Cert) : Prop :=
  ∀ process ∈ world.running, ∀ step ∈ process.steps,
    step.recordsEnrollment = false

/-- Only the last token of an identity comes back; nothing ends a process whose
enrollment is not recorded yet, a commit that carries a consumed token meets
no error, and a renewal holds the remembered digest. -/
def LastTokenKept (setup : Setup Cert) (world : World Cert) :
    Action Cert → Prop
  | .commit view => setup.CarriesLast world view
  | .reboot => setup.CarriesLast world world.boot ∧ Recorded world
  | .fail =>
      Recorded world ∧ ∀ process ∈ world.running, process.replay = false
  | .crash _ => Recorded world
  | .renew _ _ =>
      ∀ held ∈ world.daemon,
        held.enrolled = world.disk.load.enrolled ∧
          held.lastTokenSha256 = world.disk.load.lastTokenSha256
  | _ => True

/-! ## Decisions -/

theorem decide_of_parsed {tree : QuartzCommandConfig} {token : EnrollToken}
    (parsed : setup.parsed tree = some token) (state : EnrollmentState) :
    decide setup.sha256 tree state =
      if state.enrolled ∧ state.lastTokenSha256 = some token.sha256Hex then
        .ok (.alreadyEnrolled, some token)
      else .ok (.enroll, some token) := by
  obtain ⟨raw, present, valid⟩ := Option.bind_eq_some_iff.mp parsed
  have accepted : parseToken setup.sha256 raw = .ok token := by
    cases result : parseToken setup.sha256 raw with
    | error error => simp [result, Except.toOption] at valid
    | ok other =>
        rw [result] at valid
        cases valid
        rfl
  simp [decide, present, accepted]

theorem decide_of_unparsed {tree : QuartzCommandConfig}
    (unparsed : setup.parsed tree = none) {state : EnrollmentState}
    {decided : CommitAction × Option EnrollToken}
    (decision : decide setup.sha256 tree state = .ok decided) :
    decided = (.settingsOnly, none) := by
  unfold Agent.decide at decision
  cases present : tree.enrollTokenRaw with
  | none =>
      rw [present] at decision
      cases decision
      rfl
  | some raw =>
      cases result : parseToken setup.sha256 raw with
      | error error => simp [present, result] at decision
      | ok token => simp [parsed, present, result, Except.toOption] at unparsed

theorem parsed_scrubbed (world : World Cert) :
    setup.parsed ((scrubOps world.active.tree world.disk.load).foldl
      ScrubOp.apply world.active.tree) = none := by
  suffices dropped : ((scrubOps world.active.tree world.disk.load).foldl
      ScrubOp.apply world.active.tree).enrollTokenRaw = none by
    simp [parsed, dropped]
  have stays : ∀ (ops : List ScrubOp) (tree : QuartzCommandConfig),
      tree.enrollTokenRaw = none →
        (ops.foldl ScrubOp.apply tree).enrollTokenRaw = none := by
    intro ops
    induction ops with
    | nil => exact fun _ missing => missing
    | cons op ops ih =>
        intro tree missing
        apply ih
        cases op <;> simp [ScrubOp.apply, missing]
  cases present : world.active.tree.enrollTokenRaw with
  | none => exact stays _ _ present
  | some raw =>
      have first : ∃ rest, scrubOps world.active.tree world.disk.load =
          .deleteEnrollToken :: rest := by
        simp only [scrubOps, present, Option.isSome_some, if_true]
        split
        · exact ⟨_, rfl⟩
        · exact ⟨_, rfl⟩
      obtain ⟨rest, ops⟩ := first
      rw [ops]
      exact stays rest _ rfl

/-! ## What a process still has to do -/

/-- Leaves the identity and the state as they are and never refuses. -/
def plain : Step Cert → Bool
  | .loadIdentity | .enroll _ | .saveState _ | .saveRenewed _ _ _ => false
  | _ => true

/-- The steps left of a process, by what they have to do with the record. -/
inductive Stage (world : World Cert) : List (Step Cert) → Prop where
  | rests {steps : List (Step Cert)}
      (plain : ∀ step ∈ steps, plain step = true)
      (remembers : world.Remembers) : Stage world steps
  | asks {front rest : List (Step Cert)} {token : EnrollToken}
      (front_plain : ∀ step ∈ front, plain step = true ∨ step = .loadIdentity)
      (rest_plain : ∀ step ∈ rest, plain step = true)
      (unused : ¬ world.Consumed token)
      (remembers : world.Remembers) :
      Stage world (front ++ .enroll token :: rest)
  | records {front rest : List (Step Cert)} {state : EnrollmentState}
      (front_plain : ∀ step ∈ front, plain step = true)
      (rest_plain : ∀ step ∈ rest, plain step = true)
      (recorded : ∀ token ∈ world.lastConsumed, state.enrolled = true ∧
        state.lastTokenSha256 = some token.sha256Hex) :
      Stage world (front ++ .saveState state :: rest)
  | renews {front : List (Step Cert)} {held : EnrollmentState} {cert : Cert}
      {reply : RenewReply Cert}
      (front_plain : ∀ step ∈ front, plain step = true)
      (enrolled : held.enrolled = world.disk.load.enrolled)
      (digest : held.lastTokenSha256 = world.disk.load.lastTokenSha256)
      (remembers : world.Remembers) :
      Stage world (front ++ [.saveRenewed held cert reply])

/-- The identity, the state and the consumed tokens are the same. -/
structure SameRecord (world after : World Cert) : Prop where
  identity : after.disk.identity = world.disk.identity
  state : after.disk.state = world.disk.state
  consumed : after.consumed = world.consumed

namespace SameRecord

theorem lastConsumed (same : SameRecord world after) :
    after.lastConsumed = world.lastConsumed := by
  simp only [World.lastConsumed, same.identity, same.consumed]

theorem load (same : SameRecord world after) :
    after.disk.load = world.disk.load := by
  simp only [Disk.load, same.state]

theorem consumes (same : SameRecord world after) (token : EnrollToken) :
    after.Consumed token ↔ world.Consumed token := by
  simp only [World.Consumed, same.identity, same.consumed]

theorem remembers (same : SameRecord world after)
    (remembers : world.Remembers) : after.Remembers := by
  intro token last
  rw [same.load]
  exact remembers token (same.lastConsumed ▸ last)

theorem stage (same : SameRecord world after) {steps : List (Step Cert)}
    (stage : Stage world steps) : Stage after steps := by
  cases stage with
  | rests plain remembers => exact .rests plain (same.remembers remembers)
  | asks front rest unused remembers =>
      exact .asks front rest (fun used => unused ((same.consumes _).mp used))
        (same.remembers remembers)
  | records front rest recorded =>
      exact .records front rest fun token last =>
        recorded token (same.lastConsumed ▸ last)
  | renews front enrolled digest remembers =>
      exact .renews front (same.load ▸ enrolled) (same.load ▸ digest)
        (same.remembers remembers)

end SameRecord

theorem leaves_plain {met : Surroundings Cert} {disk : Disk Cert}
    {step : Step Cert} (plain : plain step = true) :
    (setup.leaves met disk step).identity = disk.identity ∧
      (setup.leaves met disk step).state = disk.state := by
  cases step with
  | loadIdentity | enroll | saveState | saveRenewed => cases plain
  | removePinned =>
      simp only [leaves]
      split <;> exact ⟨rfl, rfl⟩
  | saveSnapshot | writeClient | writeChain | writePinned | bumpTrigger
  | restartDaemon => exact ⟨rfl, rfl⟩

theorem refuses_plain {met : Surroundings Cert} {disk : Disk Cert}
    {step : Step Cert} (plain : plain step = true) :
    setup.refuses met disk step = false := by
  cases step <;> first | rfl | cases plain

/-- A token that is consumed is so by an identity that has a last one. -/
theorem not_consumed_of_fresh {identity : Identity} {token : EnrollToken}
    (present : world.disk.identity = some identity)
    (unused : fresh world identity.key = true) : ¬ world.Consumed token := by
  rintro ⟨other, same, listed⟩
  cases present.symm.trans same
  have clash := List.any_eq_false.mp (Bool.not_eq_true' _ ▸ unused) _ listed
  simp at clash

theorem lastConsumed_of_fresh {identity : Identity}
    (present : world.disk.identity = some identity)
    (unused : fresh world identity.key = true) :
    world.lastConsumed = none := by
  have clash := List.any_eq_false.mp (Bool.not_eq_true' _ ▸ unused)
  simp only [World.lastConsumed, present, Option.bind_some,
    Option.map_eq_none_iff, List.find?_eq_none]
  exact clash

structure Kept (setup : Setup Cert) (world : World Cert) : Prop where
  tokens : world.TokensOnce
  idle : world.running = none → world.Remembers
  stage : ∀ process ∈ world.running, Stage world process.steps
  replay : ∀ process ∈ world.running, process.replay = true →
    process.presents = false ∧ ∀ step ∈ process.steps, plain step = true

namespace Kept

theorem start (starts : Setup.Starts world) : setup.Kept world := by
  refine ⟨⟨?_, ?_⟩, fun _ => ?_, ?_, ?_⟩
  · simp [starts.presented]
  · simp [starts.results]
  · simp [World.Remembers, World.lastConsumed, starts.consumed]
  · simp [starts.running]
  · simp [starts.running]

/-- No process is left. -/
theorem finish (tokens : after.TokensOnce) (remembers : after.Remembers)
    (running : after.running = none) : setup.Kept after :=
  ⟨tokens, fun _ => remembers, by simp [running], by simp [running]⟩

theorem tokens_returnsError {process : Process Cert}
    (tokens : world.TokensOnce) (fine : process.replay = false) :
    (world.returnsError process).TokensOnce := by
  refine ⟨tokens.presented, ?_⟩
  intro result member replay
  rcases List.mem_append.mp member with new | old
  · cases errand : process.errand <;> simp_all [World.reports]
  · exact tokens.replays result old replay

theorem tokens_returnsOk {process : Process Cert}
    (tokens : world.TokensOnce)
    (fine : process.replay = true → process.presents = false) :
    (world.returnsOk process).TokensOnce := by
  refine ⟨tokens.presented, ?_⟩
  intro result member replay
  rcases List.mem_append.mp member with new | old
  · cases errand : process.errand <;> simp_all [World.reports]
  · exact tokens.replays result old replay

/-- A process begins with the record on disk. -/
theorem begins (tokens : world.TokensOnce) (remembers : world.Remembers)
    {view : ConfigView} (carries : setup.CarriesLast world view)
    (savesBoot : Bool) : setup.Kept (setup.begins world view savesBoot) := by
  have unreplayed (missing : setup.parsed view.tree = none ∨
      caPem view = none) : ¬ setup.Replays world view := by
    rintro ⟨token, carried, used⟩
    rcases missing with unparsed | lost
    · rw [unparsed] at carried
      cases carried
    · simpa [lost] using (carries token carried used).2
  have fails (process : Process Cert) (fine : process.replay = false) :
      setup.Kept (world.returnsError process) :=
    .finish (tokens_returnsError tokens fine) remembers rfl
  have goes (steps : List (Step Cert)) (replay : Bool)
      (stage : Stage world steps)
      (easy : replay = true → ∀ step ∈ steps, plain step = true) :
      setup.Kept { world with running := some ⟨.commit view savesBoot, steps,
        replay, false, world.disk.material, none⟩ } := by
    have same : SameRecord world { world with
        running := some ⟨.commit view savesBoot, steps, replay, false,
          world.disk.material, none⟩ } := ⟨rfl, rfl, rfl⟩
    refine ⟨⟨tokens.presented, tokens.replays⟩, fun ended => ?_, ?_, ?_⟩
    · cases ended
    · rintro process ⟨⟩
      exact same.stage stage
    · rintro process ⟨⟩ replayed
      exact ⟨rfl, easy replayed⟩
  unfold Setup.begins
  dsimp only
  cases carried : setup.parsed view.tree with
  | none =>
      have fresh := unreplayed (.inl carried)
      split
      · rename_i pem decided _ decision
        cases decide_of_unparsed carried decision
        exact goes _ _ (.rests (by simp [commitSteps, plain]) remembers)
          (fun _ => by simp [commitSteps, plain])
      · exact fails _ (by simpa using fresh)
  | some token =>
      rw [decide_of_parsed carried]
      cases present : caPem view with
      | none => exact fails _ (by simpa using unreplayed (.inr present))
      | some pem =>
          by_cases known : world.disk.load.enrolled = true ∧
              world.disk.load.lastTokenSha256 = some token.sha256Hex
          · simp only [known, and_self, if_true]
            exact goes _ _ (.rests (by simp [commitSteps, plain]) remembers)
              (fun _ => by simp [commitSteps, plain])
          · simp only [known, if_false]
            have unused : ¬ world.Consumed token := fun used =>
              known (remembers token (carries token carried used).1)
            have fresh : ¬ setup.Replays world view := by
              rintro ⟨other, same, used⟩
              cases carried.symm.trans same
              exact unused used
            have asks : Stage world
                (commitSteps view pem (.enroll, some token) :
                  List (Step Cert)) := by
              show Stage world ([.saveSnapshot _, .loadIdentity] ++
                .enroll token :: [.bumpTrigger, .restartDaemon])
              exact .asks (by simp [plain]) (by simp [plain]) unused remembers
            exact goes _ _ asks (by simp [fresh])

/-- A step that is not the conversation itself. -/
theorem advance_cons {process : Process Cert} {step : Step Cert}
    {rest : List (Step Cert)} {met : Surroundings Cert}
    (steps : process.steps = step :: rest)
    (silent : ∀ token, step ≠ .enroll token) :
    setup.advance world process met =
      if world.disk.identity.isNone && !fresh world met.key then none
      else if setup.refuses met world.disk step then
        some (world.returnsError process)
      else some { world with
        disk := setup.leaves met world.disk step
        daemon := setup.holds met world.disk world.daemon step
        running := some { process with steps := rest } } := by
  unfold Setup.advance
  rw [steps]
  cases step with
  | enroll token => exact absurd rfl (silent token)
  | saveSnapshot | loadIdentity | writeClient | writeChain | writePinned
  | removePinned | saveState | saveRenewed | bumpTrigger | restartDaemon => rfl

/-- The steps that are left once one of them has succeeded. -/
theorem went {process : Process Cert} {step : Step Cert}
    {rest : List (Step Cert)} {met : Surroundings Cert} (kept : setup.Kept world)
    (running : world.running = some process)
    (steps : process.steps = step :: rest)
    (stage : Stage { world with
      disk := setup.leaves met world.disk step
      daemon := setup.holds met world.disk world.daemon step
      running := some { process with steps := rest } } rest) :
    setup.Kept { world with
      disk := setup.leaves met world.disk step
      daemon := setup.holds met world.disk world.daemon step
      running := some { process with steps := rest } } := by
  refine ⟨⟨kept.tokens.presented, kept.tokens.replays⟩, fun ended => ?_, ?_, ?_⟩
  · cases ended
  · rintro other ⟨⟩
    exact stage
  · rintro other ⟨⟩ replay
    obtain ⟨silent, easy⟩ := kept.replay process running replay
    exact ⟨silent, fun later member => easy later (by simp [steps, member])⟩

theorem went_plain {process : Process Cert} {step : Step Cert}
    {rest : List (Step Cert)} {met : Surroundings Cert} (kept : setup.Kept world)
    (running : world.running = some process)
    (steps : process.steps = step :: rest) (easy : plain step = true)
    (stage : Stage world rest)
    (stepped : setup.advance world process met = some after) :
    setup.Kept after := by
  rw [advance_cons steps (by rintro token rfl; cases easy),
    refuses_plain easy] at stepped
  obtain ⟨_, same⟩ := Option.ite_none_left_eq_some.mp stepped
  cases same
  refine went kept running steps
    (SameRecord.stage (?_ : SameRecord world _) stage)
  exact ⟨(leaves_plain easy).1, (leaves_plain easy).2, rfl⟩

/-- The identity is there or made now; what is asked later is still unused. -/
theorem went_loadIdentity {process : Process Cert} {token : EnrollToken}
    {front rest : List (Step Cert)} {met : Surroundings Cert}
    (kept : setup.Kept world) (running : world.running = some process)
    (steps : process.steps = .loadIdentity :: (front ++ .enroll token :: rest))
    (front_plain : ∀ step ∈ front, plain step = true ∨ step = .loadIdentity)
    (rest_plain : ∀ step ∈ rest, plain step = true)
    (unused : ¬ world.Consumed token) (remembers : world.Remembers)
    (stepped : setup.advance world process met = some after) :
    setup.Kept after := by
  have fine : process.replay = false := by
    by_contra replay
    have easy := (kept.replay process running (by simpa using replay)).2
      .loadIdentity (by simp [steps])
    cases easy
  rw [advance_cons steps (by simp)] at stepped
  obtain ⟨available, same⟩ := Option.ite_none_left_eq_some.mp stepped
  split at same
  · cases same
    exact .finish (tokens_returnsError kept.tokens fine) remembers rfl
  · cases same
    refine went kept running steps ?_
    cases present : world.disk.identity with
    | some identity =>
        refine SameRecord.stage (?_ : SameRecord world _)
          (.asks front_plain rest_plain unused remembers)
        exact ⟨by simp [leaves, present], rfl, rfl⟩
    | none =>
        have new : fresh world met.key = true := by
          simpa [present] using available
        have made : (setup.leaves met world.disk .loadIdentity).identity =
            some ⟨met.key, met.host⟩ := by simp [leaves, present]
        refine .asks front_plain rest_plain (not_consumed_of_fresh made new) ?_
        intro last member
        rw [lastConsumed_of_fresh made new] at member
        cases member

/-- The conversation about a token that is not consumed. -/
theorem enrolls {process : Process Cert} {identity : Identity}
    {token : EnrollToken} {rest : List (Step Cert)} {met : Surroundings Cert}
    (kept : setup.Kept world) (fine : process.replay = false)
    (present : world.disk.identity = some identity)
    (rest_plain : ∀ step ∈ rest, plain step = true)
    (unused : ¬ world.Consumed token) (remembers : world.Remembers) :
    setup.Kept (setup.enrolls world process identity token rest met) := by
  have presented : ∀ presentation ∈ (⟨identity.key, token,
      Decidable.decide (world.Consumed token)⟩ : Presentation) ::
        world.presented, presentation.again = false := by
    intro presentation member
    rcases List.mem_cons.mp member with rfl | old
    · simp [unused]
    · exact kept.tokens.presented presentation old
  have tokens : World.TokensOnce { world with
      presented := ⟨identity.key, token,
        Decidable.decide (world.Consumed token)⟩ :: world.presented } :=
    ⟨presented, kept.tokens.replays⟩
  have fails : setup.Kept (World.returnsError { world with
      presented := ⟨identity.key, token,
        Decidable.decide (world.Consumed token)⟩ :: world.presented }
      { process with presents := true }) :=
    .finish (tokens_returnsError tokens fine) remembers rfl
  unfold Setup.enrolls
  dsimp only
  split
  · exact fails
  · split
    · exact fails
    · split
      · exact fails
      · rename_i reply _ _ cert _ _ validity _
        refine ⟨⟨presented, kept.tokens.replays⟩, fun ended => ?_, ?_, ?_⟩
        · cases ended
        · rintro other ⟨⟩
          refine .records ?_ rest_plain ?_
          · cases reply.pinned <;> simp [saveCertificates, pinStep, plain]
          · intro last member
            simp only [World.lastConsumed, present, Option.bind_some,
              decide_true, List.find?_cons_of_pos, Option.map_some,
              Option.mem_some_iff] at member
            subst member
            exact ⟨rfl, rfl⟩
        · rintro other ⟨⟩ replay
          exact absurd (fine.symm.trans replay) (by simp)

theorem advance {process : Process Cert} {met : Surroundings Cert}
    (kept : setup.Kept world) (running : world.running = some process)
    (stepped : setup.advance world process met = some after) :
    setup.Kept after := by
  have fine (step : Step Cert) (member : step ∈ process.steps)
      (hard : plain step = false) : process.replay = false := by
    by_contra replay
    have easy := (kept.replay process running (by simpa using replay)).2 step
      member
    exact absurd (hard.symm.trans easy) (by simp)
  generalize steps : process.steps = left at *
  cases steps ▸ kept.stage process running with
  | rests easy remembers =>
      cases left with
      | nil =>
          simp only [Setup.advance, steps, Option.some.injEq] at stepped
          cases stepped
          exact .finish (tokens_returnsOk kept.tokens fun replay =>
            (kept.replay process running replay).1) remembers rfl
      | cons step rest =>
          exact went_plain kept running steps (easy step (by simp))
            (.rests (fun other member => easy other (by simp [member]))
              remembers) stepped
  | @asks front rest token front_plain rest_plain unused remembers =>
      cases front with
      | nil =>
          simp only [Setup.advance, steps, List.nil_append] at stepped
          obtain ⟨identity, present, same⟩ := Option.map_eq_some_iff.mp stepped
          subst same
          exact kept.enrolls (fine (.enroll token) (by simp) rfl)
            present rest_plain unused remembers
      | cons step front =>
          have later : ∀ step ∈ front,
              plain step = true ∨ step = .loadIdentity :=
            fun other member => front_plain other (by simp [member])
          rcases front_plain step (by simp) with easy | rfl
          · exact went_plain kept running steps easy
              (.asks later rest_plain unused remembers) stepped
          · exact went_loadIdentity kept running steps later rest_plain unused
              remembers stepped
  | @records front rest state front_plain rest_plain recorded =>
      cases front with
      | nil =>
          rw [advance_cons steps (by simp)] at stepped
          obtain ⟨_, same⟩ := Option.ite_none_left_eq_some.mp stepped
          cases same
          exact went kept running steps (.rests rest_plain recorded)
      | cons step front =>
          exact went_plain kept running steps (front_plain step (by simp))
            (.records (fun other member => front_plain other (by simp [member]))
              rest_plain recorded) stepped
  | @renews front held cert reply front_plain enrolled digest remembers =>
      cases front with
      | nil =>
          rw [advance_cons steps (by simp)] at stepped
          obtain ⟨_, same⟩ := Option.ite_none_left_eq_some.mp stepped
          cases valid : setup.validity cert with
          | none =>
              simp only [refuses, valid, Option.isNone_none, if_true,
                Option.some.injEq] at same
              cases same
              exact .finish (tokens_returnsError kept.tokens
                (fine (.saveRenewed held cert reply) (by simp) rfl))
                remembers rfl
          | some validity =>
              simp only [refuses, valid, Option.isNone_some, Bool.false_eq_true,
                if_false, Option.some.injEq] at same
              cases same
              refine went kept running steps (.rests (by simp) ?_)
              intro last member
              simp only [World.lastConsumed, leaves, valid] at member
              obtain ⟨is_enrolled, remembered⟩ := remembers last member
              simp only [leaves, valid, Disk.load, Option.getD_some,
                renewedState]
              exact ⟨enrolled.trans is_enrolled, digest.trans remembered⟩
      | cons step front =>
          exact went_plain kept running steps (front_plain step (by simp))
            (.renews (fun other member => front_plain other (by simp [member]))
              enrolled digest remembers) stepped

theorem renews (kept : setup.Kept world) (idle : world.running = none)
    {held : EnrollmentState} {reply : RenewReply Cert} {pinnedReads : Bool}
    (enrolled : held.enrolled = world.disk.load.enrolled)
    (digest : held.lastTokenSha256 = world.disk.load.lastTokenSha256) :
    setup.Kept (setup.renews world held reply pinnedReads) := by
  have remembers := kept.idle idle
  unfold Setup.renews
  dsimp only
  split
  · exact .finish (tokens_returnsError kept.tokens rfl) remembers rfl
  · rename_i cert _
    refine ⟨⟨kept.tokens.presented, kept.tokens.replays⟩, fun ended => ?_, ?_,
      ?_⟩
    · cases ended
    · rintro process ⟨⟩
      refine .renews ?_ enrolled digest remembers
      cases (if pinnedReads then world.disk.pinned else none) <;>
        simp [saveCertificates, pinStep, plain]
    · rintro process ⟨⟩ replay
      cases replay

/-- Whatever the running process was about to do, the record is there. -/
theorem remembers (kept : setup.Kept world) (recorded : Recorded world) :
    world.Remembers := by
  cases running : world.running with
  | none => exact kept.idle running
  | some process =>
      have unsaved := recorded process running
      have stage := kept.stage process running
      generalize process.steps = left at unsaved stage
      cases stage with
      | rests _ remembers => exact remembers
      | asks _ _ _ remembers => exact remembers
      | renews _ _ _ remembers => exact remembers
      | @records front rest state _ _ _ =>
          have saved := unsaved (.saveState state) (by simp)
          cases saved

theorem step (kept : setup.Kept world) {action : Action Cert}
    (last : setup.LastTokenKept world action)
    (stepped : setup.next world action = some after) : setup.Kept after := by
  cases action with
  | commit view =>
      obtain ⟨idle, same⟩ := Option.ite_none_left_eq_some.mp stepped
      cases same
      exact .begins kept.tokens (kept.idle (by simpa using idle)) last false
  | scrub =>
      obtain ⟨idle, same⟩ := Option.ite_none_left_eq_some.mp stepped
      split at same
      · cases same
        exact kept
      · cases same
        refine .begins kept.tokens (kept.idle (by simpa using idle)) ?_ true
        intro token carried
        rw [parsed_scrubbed] at carried
        cases carried
  | saveBoot =>
      cases stepped
      have same : SameRecord world { world with boot := world.active } :=
        ⟨rfl, rfl, rfl⟩
      exact ⟨⟨kept.tokens.presented, kept.tokens.replays⟩, kept.idle,
        fun process running => same.stage (kept.stage process running),
        kept.replay⟩
  | reboot =>
      cases stepped
      have tokens : World.TokensOnce
          { world with running := none, daemon := none } :=
        ⟨kept.tokens.presented, kept.tokens.replays⟩
      exact .begins tokens (kept.remembers last.2) last.1 false
  | renew reply pinnedReads =>
      obtain ⟨idle, same⟩ := Option.ite_none_left_eq_some.mp stepped
      obtain ⟨held, daemon, same⟩ := Option.map_eq_some_iff.mp same
      subst same
      obtain ⟨enrolled, digest⟩ := last held daemon
      exact kept.renews (by simpa using idle) enrolled digest
  | advance met =>
      obtain ⟨process, running, stepped⟩ := Option.bind_eq_some_iff.mp stepped
      exact kept.advance running stepped
  | fail =>
      obtain ⟨process, running, stepped⟩ := Option.bind_eq_some_iff.mp stepped
      obtain ⟨_, same⟩ := Option.ite_none_right_eq_some.mp stepped
      cases same
      exact .finish (tokens_returnsError kept.tokens (last.2 process running))
        (kept.remembers last.1) rfl
  | crash daemonDies =>
      obtain ⟨process, running, same⟩ := Option.map_eq_some_iff.mp stepped
      subst same
      exact .finish ⟨kept.tokens.presented, kept.tokens.replays⟩
        (kept.remembers last) rfl
  | startDaemon =>
      obtain ⟨idle, same⟩ := Option.ite_none_left_eq_some.mp stepped
      cases same
      have none_left : world.running = none := by simpa using idle
      exact .finish ⟨kept.tokens.presented, kept.tokens.replays⟩
        (kept.idle none_left) none_left
  | regenerate key host =>
      obtain ⟨available, same⟩ := Option.ite_none_left_eq_some.mp stepped
      cases same
      simp only [Bool.or_eq_true, not_or, Bool.not_eq_true, Bool.not_eq_false',
        Option.isSome_eq_false_iff, Option.isNone_iff_eq_none] at available
      have unused : ∀ (other : World Cert) (token : EnrollToken),
          token ∈ other.lastConsumed → other.consumed = world.consumed →
            other.disk.identity = some ⟨key, host⟩ → False := by
        intro other token member consumed present
        have none_used := lastConsumed_of_fresh present
          (by simpa only [fresh, consumed] using available.2)
        rw [none_used] at member
        cases member
      exact .finish ⟨kept.tokens.presented, kept.tokens.replays⟩
        (fun token member => (unused _ token member rfl rfl).elim) available.1

end Kept

/-- Every point of a run in which only an identity's last token comes back. -/
theorem tokensOnce_of_lastTokenKept
    (reached : setup.system.ReachableUnder setup.LastTokenKept world) :
    world.TokensOnce := by
  have kept : setup.Kept world := by
    apply reached.invariant
    · exact fun _ starts => .start starts
    · exact fun _ _ _ kept last stepped => kept.step last stepped
  exact kept.tokens

end Setup

/-! ## A token of an older configuration -/

section Traces

/-- The boot configuration still carries the consumed token. -/
def rebootTrace : List (Action Nat) :=
  enrollTrace (tokenText "one") ++ [.saveBoot, .reboot] ++
    List.replicate 4 (.advance goodDay) ++ [.scrub] ++
    List.replicate 3 (.advance goodDay)

instance (world : World Nat) (view : ConfigView) :
    Decidable (toySetup.CarriesLast world view) := by
  unfold Setup.CarriesLast
  infer_instance

instance (world : World Nat) : Decidable (Setup.Recorded world) := by
  unfold Setup.Recorded
  infer_instance

instance (world : World Nat) : (action : Action Nat) →
    Decidable (toySetup.LastTokenKept world action)
  | .commit view => inferInstanceAs (Decidable (toySetup.CarriesLast world view))
  | .reboot => inferInstanceAs (Decidable (_ ∧ Setup.Recorded world))
  | .fail => inferInstanceAs (Decidable (Setup.Recorded world ∧ _))
  | .crash _ => inferInstanceAs (Decidable (Setup.Recorded world))
  | .renew _ _ => inferInstanceAs (Decidable (∀ _ ∈ world.daemon, _))
  | .scrub | .saveBoot | .advance _ | .startDaemon | .regenerate _ _ =>
      .isTrue trivial

theorem rebootTrace_tokensOnce :
    ∃ world, toySetup.system.run newDevice rebootTrace = some world ∧
      world.presented.length = 1 ∧
      world.results.map CommitResult.replay = [false, true, false] ∧
      world.TokensOnce := by
  have replayed : (toySetup.system.run newDevice rebootTrace).map
      (fun world => (world.presented.length,
        world.results.map CommitResult.replay)) =
        some (1, [false, true, false]) := by decide +kernel
  obtain ⟨world, replay, observed⟩ := Option.map_eq_some_iff.mp replayed
  obtain ⟨one, results⟩ := Prod.mk.inj observed
  have reached :
      toySetup.system.ReachableUnder toySetup.LastTokenKept world :=
    TransitionSystem.ReachableUnder.run (.initial starts_newDevice)
      rebootTrace (by decide +kernel) replay
  exact ⟨world, replay, one, results,
    Setup.tokensOnce_of_lastTokenKept reached⟩

/-- Two enrollments, then the configuration of the first one. -/
def rollbackTrace : List (Action Nat) :=
  enrollTrace (tokenText "one") ++ enrollTrace (tokenText "two") ++
    .commit (viewWith (some (tokenText "one"))) ::
      List.replicate 3 (.advance goodDay)

theorem rollback_presents_again :
    ∃ world, toySetup.system.Reachable world ∧
      (∃ presentation ∈ world.presented, presentation.again = true) ∧
      ¬ world.TokensOnce := by
  have replayed : (toySetup.system.run newDevice rollbackTrace).map
      (fun world => world.presented.map Presentation.again) =
        some [true, false, false] := by decide +kernel
  obtain ⟨world, replay, observed⟩ := Option.map_eq_some_iff.mp replayed
  have listed : true ∈ world.presented.map Presentation.again := by
    simp [observed]
  obtain ⟨presentation, member, again⟩ := List.mem_map.mp listed
  refine ⟨world, TransitionSystem.reachable_of_run starts_newDevice
    rollbackTrace replay, ⟨presentation, member, again⟩, ?_⟩
  intro once
  exact absurd ((once.presented presentation member).symm.trans again) (by simp)

end Traces

end QuartzFire.Agent
