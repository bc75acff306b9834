import QuartzFire.Foundation.TransitionSystem
import QuartzFire.AppControl.Nftables
import QuartzFire.AppControl.Policy

/-!
# Reloading the policy under traffic

A load compiles the file, replaces the bindings chain and only then stores the
policy the workers look ids up in.  A queued packet carries nothing but the id
its rule wrote, so it matters which table is stored when the packet is decided.
-/

namespace QuartzFire.AppControl

/-- A daemon without its policy. -/
structure ReloadSetup (Engine Flow Payload Key : Type) where
  classifier : Classifier Engine Flow Payload
  layout : Layout
  budgets : Budgets
  parse : Payload → Option (Parsed Key)
  length : Payload → Nat
  isTcpUdp : Payload → Bool
  isIpv4 : String → Option Bool
  catalog : Catalog
  /-- The packets the rules rendered for a match hold of. -/
  matching : MatchSpec → Payload → Bool
  layout_valid : layout.Valid

namespace ReloadSetup

variable {Engine Flow Payload Key : Type}

/-- The worker while `policy` is stored. -/
def worker (setup : ReloadSetup Engine Flow Payload Key) (policy : Policy) :
    WorkerSetup Engine Flow Payload Key where
  classifier := setup.classifier
  layout := setup.layout
  budgets := setup.budgets
  policy := policy.compiled setup.matching
  parse := setup.parse
  length := setup.length

end ReloadSetup

/-- A queued packet, with the binding whose rule queued it. -/
structure QueuedPacket (Payload : Type) where
  payload : Payload
  mark : Mark
  rules : Policy
  binding : PolicyBinding
  /-- How often the rules had been replaced. -/
  epoch : Nat

/-- A final decision, with where its packet and its table came from. -/
structure Decided (Key : Type) where
  rules : Policy
  binding : PolicyBinding
  table : Policy
  event : Event Key
  blocked : Bool

/-- The decision is the one of the action the binding names, looked up in the
policy whose rules wrote the id. -/
structure Decided.ByBinding {Key : Type} (decided : Decided Key) : Prop where
  table : decided.table = decided.rules
  action : ∃ action ∈ decided.rules.actions,
    action.name = decided.binding.actionName ∧
    decided.event.actionName = action.name ∧
    decided.event.blockMode = action.blockMode ∧
    decided.event.defaultApplied = action.isDefault decided.event.appId ∧
    decided.event.block = (action.verdict decided.event.appId == .block) ∧
    decided.blocked = decided.event.block

structure ReloadWorld (Engine Flow Payload Key Worker : Type) where
  /-- Loads the manager has counted. -/
  generation : Nat
  /-- The policy the bindings chain is rendered from. -/
  rules : Policy
  epoch : Nat
  /-- The policy the workers read. -/
  policy : Policy
  /-- A policy whose bindings are installed and which is not stored yet. -/
  awaiting : Option Policy
  queue : Worker → List (QueuedPacket Payload)
  core : Worker → WorkerCore Engine Flow Key
  decisions : List (Decided Key)

inductive ReloadAction (Payload Worker : Type) where
  /-- The watcher loads a file; `installed` is whether nft took the rules. -/
  | reload (file : PolicyFile) (installed : Bool)
  | store
  /-- A packet reaches the `forward` hook; its flow is `worker`'s. -/
  | arrive (worker : Worker) (payload : Payload) (ctMark packetMark : Mark)
  | handle (worker : Worker) (now nowMs : Nat)

section System

variable {Engine Flow Payload Key Worker : Type}
  [DecidableEq Key] [DecidableEq Worker]

namespace ReloadSetup

variable (setup : ReloadSetup Engine Flow Payload Key)

/-- The binding whose rule queues a packet. -/
def queuedBy (policy : Policy) (payload : Payload) : Option PolicyBinding :=
  policy.bindings.find? fun binding => setup.matching binding.matchSpec payload

def next (world : ReloadWorld Engine Flow Payload Key Worker) :
    ReloadAction Payload Worker →
      Option (ReloadWorld Engine Flow Payload Key Worker)
  | .reload file installed =>
      if world.awaiting.isSome then none
      else match Policy.compile setup.isIpv4 file setup.catalog setup.layout
          (world.generation + 1) with
        | .error _ => some world
        | .ok policy =>
            if installed then some { world with
              generation := world.generation + 1
              rules := policy
              epoch := world.epoch + 1
              awaiting := some policy }
            else some { world with generation := world.generation + 1 }
  | .store =>
      world.awaiting.map fun policy =>
        { world with policy := policy, awaiting := none }
  | .arrive worker payload ctMark packetMark =>
      match forwardChain setup.layout
          (world.rules.compiled setup.matching).bindings setup.isTcpUdp ctMark
          packetMark payload, setup.queuedBy world.rules payload with
      | .queue mark, some binding => some { world with
          queue := Function.update world.queue worker
            (world.queue worker ++
              [⟨payload, mark, world.rules, binding, world.epoch⟩]) }
      | _, _ => some world
  | .handle worker now nowMs =>
      match world.queue worker with
      | [] => none
      | packet :: rest =>
          let handled := (setup.worker world.policy).handlePacket
            (world.core worker) packet.mark packet.payload now nowMs
          some { world with
            queue := Function.update world.queue worker rest
            core := Function.update world.core worker handled.2
            decisions := match handled.1.setMark, handled.2.events with
              | some _, event :: _ =>
                  ⟨packet.rules, packet.binding, world.policy, event,
                    handled.1.blocked⟩ :: world.decisions
              | _, _ => world.decisions }

/-- A started daemon: the rules are those of the policy it runs on, the empty
one or a loaded one. -/
structure Starts (world : ReloadWorld Engine Flow Payload Key Worker) :
    Prop where
  loaded : world.policy = .empty ∨
    ∃ file generation, Policy.compile setup.isIpv4 file setup.catalog
      setup.layout generation = .ok world.policy
  rules : world.rules = world.policy
  awaiting : world.awaiting = none
  queue : ∀ worker, world.queue worker = []
  decisions : world.decisions = []

def system : TransitionSystem (ReloadWorld Engine Flow Payload Key Worker)
    (ReloadAction Payload Worker) where
  Initial := setup.Starts
  next := setup.next

/-- The two halves of a reload meet no packet of the other side: between them
no packet of the new rules is decided, and a policy is stored once the packets
of the old rules are gone. -/
def Separated (world : ReloadWorld Engine Flow Payload Key Worker) :
    ReloadAction Payload Worker → Prop
  | .handle worker now nowMs =>
      world.awaiting.isSome = true →
        ∀ packet ∈ (world.queue worker).head?,
          (setup.worker world.policy).concludes (world.core worker)
              packet.payload now nowMs = true →
            packet.epoch ≠ world.epoch
  | .store =>
      ∀ worker, ∀ packet ∈ world.queue worker, packet.epoch = world.epoch
  | _ => True

end ReloadSetup

end System

/-! ## What one packet carries -/

section Packets

variable {Engine Flow Payload Key : Type} [DecidableEq Key]

omit [DecidableEq Key] in
theorem decide_of_action {policy : CompiledPolicy Payload} {actionId : Nat}
    {action : CompiledAction} (found : policy.action actionId = some action)
    (result : ClassifyResult) (isTcp : Bool) :
    decide policy actionId result isTcp =
      { block := action.verdict result.appId == .block
        actionName := action.name
        blockMode := action.blockMode
        defaultApplied := action.isDefault result.appId
        reset := action.verdict result.appId == .block &&
          action.blockMode == .reset && isTcp } := by
  simp only [decide, found]

/-- A concluded packet leaves its event first in the list, and both its event
and its outcome are those of one decision by the table. -/
theorem WorkerSetup.handlePacket_decides
    (setup : WorkerSetup Engine Flow Payload Key)
    (core : WorkerCore Engine Flow Key) (pktMark : Mark) (payload : Payload)
    (now nowMs : Nat) :
    (setup.handlePacket core pktMark payload now nowMs).1.setMark = none ∨
      setup.concludes core payload now nowMs = true ∧
      ∃ event rest result isTcp,
        (setup.handlePacket core pktMark payload now nowMs).2.events =
          event :: rest ∧
        event.appId = result.appId ∧
        ∀ decision, decision = decide setup.policy
            (setup.layout.decode pktMark).actionId result isTcp →
          event.block = decision.block ∧
          event.actionName = decision.actionName ∧
          event.blockMode = decision.blockMode ∧
          event.defaultApplied = decision.defaultApplied ∧
          (setup.handlePacket core pktMark payload now nowMs).1.blocked =
            decision.block := by
  unfold handlePacket concludes
  cases setup.parse payload with
  | none => exact .inl rfl
  | some parsed =>
      dsimp only
      cases setup.feed core parsed.key payload now nowMs with
      | none => exact .inl rfl
      | some fed =>
          obtain ⟨result, state, after⟩ := fed
          dsimp only
          cases result.isFinal with
          | false => exact .inl rfl
          | true =>
              refine .inr ⟨rfl, _, _, result, parsed.isTcp, rfl, rfl, ?_⟩
              rintro decision rfl
              exact ⟨rfl, rfl, rfl, rfl, rfl⟩

namespace ReloadSetup

variable (setup : ReloadSetup Engine Flow Payload Key)

omit [DecidableEq Key] in
/-- The chain queues a packet under the id of the binding that queued it. -/
theorem forwardChain_queue {policy : Policy} {ctMark packetMark mark : Mark}
    {payload : Payload}
    (queued : forwardChain setup.layout
      (policy.compiled setup.matching).bindings setup.isTcpUdp ctMark packetMark
      payload = .queue mark) :
    ∃ binding, setup.queuedBy policy payload = some binding ∧
      mark = (setup.layout.encodeAction binding.actionId).apply packetMark := by
  have fromBindings : ∀ bindings : List PolicyBinding,
      bindingsChain setup.layout packetMark payload
          (bindings.map fun binding => ⟨binding.bindingId, binding.actionId,
            setup.matching binding.matchSpec⟩) = .queue mark →
      packetMark &&& setup.layout.classifiedMask = 0#32 ∧
      ∃ binding, bindings.find? (fun binding =>
          setup.matching binding.matchSpec payload) = some binding ∧
        mark =
          (setup.layout.encodeAction binding.actionId).apply packetMark := by
    intro bindings queued
    induction bindings with
    | nil => cases queued
    | cons binding rest ih =>
        rw [List.map_cons, bindingsChain] at queued
        split at queued
        · rename_i hit
          cases queued
          exact ⟨hit.1, binding, List.find?_cons_of_pos hit.2, rfl⟩
        · rename_i miss
          obtain ⟨fresh, other, found, written⟩ := ih queued
          have skipped : ¬ setup.matching binding.matchSpec payload = true :=
            fun hit => miss ⟨fresh, hit⟩
          exact ⟨fresh, other, by simpa [skipped] using found, written⟩
  unfold forwardChain at queued
  split at queued
  · cases queued
  split at queued
  · cases queued
  split at queued
  · exact (fromBindings policy.bindings queued).2
  · cases queued

end ReloadSetup

end Packets

/-! ## Runs -/

section Runs

variable {Engine Flow Payload Key Worker : Type}
  [DecidableEq Key] [DecidableEq Worker]
  {setup : ReloadSetup Engine Flow Payload Key}
  {world after : ReloadWorld Engine Flow Payload Key Worker}

namespace ReloadSetup

/-- A queued packet carries the id of its binding, and the rules that queued
it are the installed ones or, during a reload, those of the stored policy. -/
structure Carries (setup : ReloadSetup Engine Flow Payload Key)
    (world : ReloadWorld Engine Flow Payload Key Worker)
    (packet : QueuedPacket Payload) : Prop where
  binding : packet.binding ∈ packet.rules.bindings
  actionId : (setup.layout.decode packet.mark).actionId =
    packet.binding.actionId
  wellFormed : packet.rules.WellFormed setup.layout
  current : packet.epoch = world.epoch → packet.rules = world.rules
  former : packet.epoch ≠ world.epoch →
    world.awaiting.isSome = true ∧ packet.rules = world.policy
  epoch_le : packet.epoch ≤ world.epoch

structure Sound (setup : ReloadSetup Engine Flow Payload Key)
    (world : ReloadWorld Engine Flow Payload Key Worker) : Prop where
  rules : world.rules.WellFormed setup.layout
  settled : world.awaiting = none → world.rules = world.policy
  installed : ∀ policy ∈ world.awaiting, policy = world.rules
  queue : ∀ worker, ∀ packet ∈ world.queue worker,
    setup.Carries world packet
  decisions : ∀ decided ∈ world.decisions, decided.ByBinding

namespace Sound

omit [DecidableEq Key] [DecidableEq Worker] in
theorem start (starts : setup.Starts world) : setup.Sound world := by
  have wellFormed : world.policy.WellFormed setup.layout := by
    rcases starts.loaded with empty | ⟨file, generation, compiles⟩
    · rw [empty]
      exact Policy.wellFormed_empty _
    · exact (Policy.compile_wellFormed _ compiles).1
  refine ⟨?_, fun _ => starts.rules, ?_, ?_, ?_⟩
  · rw [starts.rules]
    exact wellFormed
  · simp [starts.awaiting]
  · simp [starts.queue]
  · simp [starts.decisions]

omit [DecidableEq Key] [DecidableEq Worker] in
theorem reload (sound : setup.Sound world) {file : PolicyFile}
    {policy : Policy} (idle : world.awaiting = none)
    (compiles : Policy.compile setup.isIpv4 file setup.catalog setup.layout
      (world.generation + 1) = .ok policy) :
    setup.Sound { world with
      generation := world.generation + 1
      rules := policy
      epoch := world.epoch + 1
      awaiting := some policy } := by
  refine ⟨(Policy.compile_wellFormed _ compiles).1, ?_, ?_, ?_,
    sound.decisions⟩
  · exact fun none => absurd none (Option.some_ne_none policy)
  · exact fun other member => (Option.some.inj member).symm
  · intro worker packet member
    have before := sound.queue worker packet member
    have old : packet.rules = world.policy := by
      by_cases current : packet.epoch = world.epoch
      · exact (before.current current).trans (sound.settled idle)
      · exact (before.former current).2
    have epoch_le := before.epoch_le
    refine ⟨before.binding, before.actionId, before.wellFormed, ?_, ?_, ?_⟩
    · exact fun current => absurd current (Nat.ne_of_lt
        (Nat.lt_succ_of_le epoch_le))
    · exact fun _ => ⟨rfl, old⟩
    · exact Nat.le_succ_of_le epoch_le

omit [DecidableEq Key] [DecidableEq Worker] in
theorem store (sound : setup.Sound world) {policy : Policy}
    (awaiting : world.awaiting = some policy)
    (drained : ∀ worker, ∀ packet ∈ world.queue worker,
      packet.epoch = world.epoch) :
    setup.Sound { world with policy := policy, awaiting := none } := by
  refine ⟨sound.rules, ?_, ?_, ?_, sound.decisions⟩
  · exact fun _ => (sound.installed policy awaiting).symm
  · exact fun other member => absurd member (Option.not_mem_none other)
  · intro worker packet member
    have before := sound.queue worker packet member
    exact ⟨before.binding, before.actionId, before.wellFormed, before.current,
      fun former => absurd (drained worker packet member) former,
      before.epoch_le⟩

omit [DecidableEq Key] in
theorem arrive (sound : setup.Sound world) {worker : Worker}
    {payload : Payload} {ctMark packetMark mark : Mark}
    {binding : PolicyBinding}
    (queued : forwardChain setup.layout
      (world.rules.compiled setup.matching).bindings setup.isTcpUdp ctMark
      packetMark payload = .queue mark)
    (found : setup.queuedBy world.rules payload = some binding) :
    setup.Sound { world with
      queue := Function.update world.queue worker
        (world.queue worker ++
          [⟨payload, mark, world.rules, binding, world.epoch⟩]) } := by
  refine ⟨sound.rules, sound.settled, sound.installed, ?_, sound.decisions⟩
  have bound : binding ∈ world.rules.bindings :=
    List.mem_of_find?_eq_some found
  have carried : setup.Carries world
      ⟨payload, mark, world.rules, binding, world.epoch⟩ := by
    obtain ⟨other, same, written⟩ := setup.forwardChain_queue queued
    obtain rfl := Option.some.inj (found.symm.trans same)
    refine ⟨bound, ?_, sound.rules, fun _ => rfl, fun changed =>
      absurd rfl changed, Nat.le_refl _⟩
    rw [written]
    exact decode_encodeAction_actionId setup.layout_valid
      (sound.rules.actionId_le binding bound) packetMark
  have kept : ∀ packet, setup.Carries world packet → setup.Carries { world with
      queue := Function.update world.queue worker
        (world.queue worker ++
          [⟨payload, mark, world.rules, binding, world.epoch⟩]) } packet :=
    fun packet carries => ⟨carries.binding, carries.actionId,
      carries.wellFormed, carries.current, carries.former, carries.epoch_le⟩
  intro other packet member
  apply kept
  dsimp only at member
  by_cases same : other = worker
  · subst same
    rw [Function.update_self, List.mem_append, List.mem_singleton] at member
    rcases member with before | rfl
    · exact sound.queue other packet before
    · exact carried
  · rw [Function.update_of_ne same] at member
    exact sound.queue other packet member

omit [DecidableEq Worker] in
/-- A packet decided while its own rules' policy is stored is decided by its
binding's action. -/
theorem byBinding (packet : QueuedPacket Payload)
    (carries : setup.Carries world packet)
    (stored : packet.rules = world.policy) (core : WorkerCore Engine Flow Key)
    (now nowMs : Nat) {event : Event Key} {rest : List (Event Key)} {mark : Mark}
    (decided : ((setup.worker world.policy).handlePacket core packet.mark
      packet.payload now nowMs).1.setMark = some mark)
    (events : ((setup.worker world.policy).handlePacket core packet.mark
      packet.payload now nowMs).2.events = event :: rest) :
    Decided.ByBinding ⟨packet.rules, packet.binding, world.policy, event,
      ((setup.worker world.policy).handlePacket core packet.mark
        packet.payload now nowMs).1.blocked⟩ := by
  obtain ⟨action, member, found, name⟩ :=
    carries.wellFormed.named packet.binding carries.binding
  rcases (setup.worker world.policy).handlePacket_decides core packet.mark
      packet.payload now nowMs with
    pass | ⟨_, first, later, result, isTcp, emitted, appId, effects⟩
  · rw [pass] at decided
    cases decided
  · rw [emitted, List.cons.injEq] at events
    obtain ⟨rfl, rfl⟩ := events
    have actionId : ((setup.worker world.policy).layout.decode
        packet.mark).actionId = packet.binding.actionId := carries.actionId
    have looked : (setup.worker world.policy).policy.action
        packet.binding.actionId = some action := by
      rw [← found, stored]
      rfl
    obtain ⟨block, actionName, blockMode, defaultApplied, blocked⟩ :=
      effects _ (decide_of_action (by rw [actionId]; exact looked) _ _).symm
    refine ⟨stored.symm, action, member, name, actionName, blockMode, ?_, ?_,
      blocked.trans block.symm⟩
    · rw [defaultApplied, appId]
    · rw [block, appId]

theorem handle (sound : setup.Sound world) {worker : Worker} {now nowMs : Nat}
    {packet : QueuedPacket Payload} {rest : List (QueuedPacket Payload)}
    (queued : world.queue worker = packet :: rest)
    (apart : world.awaiting.isSome = true →
      (setup.worker world.policy).concludes (world.core worker) packet.payload
          now nowMs = true →
        packet.epoch ≠ world.epoch)
    (stepped : setup.next world (.handle worker now nowMs) = some after) :
    setup.Sound after := by
  have carries := sound.queue worker packet (queued ▸ List.mem_cons_self)
  simp only [next, queued, Option.some.injEq] at stepped
  subst stepped
  refine ⟨sound.rules, sound.settled, sound.installed, ?_, ?_⟩
  · intro other packet' member
    have before : setup.Carries world packet' := by
      dsimp only at member
      by_cases same : other = worker
      · subst same
        rw [Function.update_self] at member
        exact sound.queue other packet' (queued ▸ List.mem_cons_of_mem _ member)
      · rw [Function.update_of_ne same] at member
        exact sound.queue other packet' member
    exact ⟨before.binding, before.actionId, before.wellFormed, before.current,
      before.former, before.epoch_le⟩
  · intro decided member
    dsimp only at member
    split at member
    · rename_i mark event later concluded events
      rcases List.mem_cons.mp member with rfl | before
      · have concludes : (setup.worker world.policy).concludes
            (world.core worker) packet.payload now nowMs = true := by
          rcases (setup.worker world.policy).handlePacket_decides
              (world.core worker) packet.mark packet.payload now nowMs with
            pass | ⟨concludes, _⟩
          · rw [pass] at concluded
            cases concluded
          · exact concludes
        have stored : packet.rules = world.policy := by
          by_cases current : packet.epoch = world.epoch
          · cases awaiting : world.awaiting with
            | none =>
                exact (carries.current current).trans (sound.settled awaiting)
            | some policy =>
                exact absurd current (apart (by simp [awaiting]) concludes)
          · exact (carries.former current).2
        exact byBinding packet carries stored _ _ _ concluded events
      · exact sound.decisions decided before
    · exact sound.decisions decided member

theorem step (sound : setup.Sound world) {action : ReloadAction Payload Worker}
    (apart : setup.Separated world action)
    (stepped : setup.next world action = some after) :
    setup.Sound after := by
  cases action with
  | reload file installed =>
      obtain ⟨busy, stepped⟩ := Option.ite_none_left_eq_some.mp stepped
      split at stepped
      · cases stepped
        exact sound
      · rename_i policy compiles
        split at stepped
        · cases stepped
          exact sound.reload (by simpa using busy) compiles
        · cases stepped
          exact ⟨sound.rules, sound.settled, sound.installed,
            fun worker packet member =>
              have before := sound.queue worker packet member
              ⟨before.binding, before.actionId, before.wellFormed,
                before.current, before.former, before.epoch_le⟩,
            sound.decisions⟩
  | store =>
      obtain ⟨policy, awaiting, same⟩ := Option.map_eq_some_iff.mp stepped
      cases same
      exact sound.store awaiting apart
  | arrive worker payload ctMark packetMark =>
      simp only [next] at stepped
      split at stepped
      · rename_i mark binding queued found
        cases stepped
        exact sound.arrive queued found
      · cases stepped
        exact sound
  | handle worker now nowMs =>
      cases queued : world.queue worker with
      | nil => simp [next, queued] at stepped
      | cons packet rest =>
          refine sound.handle queued (fun reloading => ?_) stepped
          exact apart reloading packet (by simp [queued])

end Sound

/-- Every decision of a run in which the halves of each reload are kept apart
from the packets of the other side. -/
theorem byBinding_of_separated
    (reached : setup.system.ReachableUnder setup.Separated world) :
    ∀ decided ∈ world.decisions, decided.ByBinding := by
  have sound : setup.Sound world := by
    apply reached.invariant
    · exact fun _ starts => .start starts
    · exact fun _ _ _ sound apart stepped => sound.step apart stepped
  exact sound.decisions

end ReloadSetup

end Runs

/-! ## A reload that reorders the bindings -/

section Traces

/-- Packets are told apart by their destination port; the engine gives up on
the first packet of a flow. -/
def portSetup : ReloadSetup Unit Unit Nat Unit where
  classifier :=
    { newFlow := fun engine => (some (), engine)
      process := fun engine flow _ _ =>
        (⟨0, false, "unknown", none, none⟩, flow, engine)
      giveup := fun engine _ => (⟨0, false, "guess", none, none⟩, engine) }
  layout := .default
  budgets := ⟨1, 1000⟩
  parse := fun _ => some ⟨(), true⟩
  length := fun _ => 100
  isTcpUdp := fun _ => true
  isIpv4 := fun _ => none
  catalog := ⟨[]⟩
  matching := fun spec port => spec.l4.any fun l4 => l4.dports.contains port
  layout_valid := Layout.default_valid

def portBinding (id : Nat) (action : String) (port : Nat) : BindingSpec :=
  ⟨id, action, "", { MatchSpec.default with l4 := [⟨.tcp, [port]⟩] }⟩

/-- `Global` allows and `Strict` blocks by default. -/
def portFile (bindings : List BindingSpec) : PolicyFile where
  version := 2
  actions := [("Global", ⟨.allow, .drop, [], []⟩),
    ("Strict", ⟨.block, .drop, [], []⟩)]
  bindings := bindings

def firstFile : PolicyFile :=
  portFile [portBinding 10 "Global" 443, portBinding 20 "Strict" 25]

/-- The same bindings, the other way round. -/
def reorderedFile : PolicyFile :=
  portFile [portBinding 10 "Strict" 25, portBinding 20 "Global" 443]

def freshWorld : ReloadWorld Unit Unit Nat Unit Unit where
  generation := 0
  rules := .empty
  epoch := 0
  policy := .empty
  awaiting := none
  queue := fun _ => []
  core := fun _ => ⟨(), .new 16 60000, []⟩
  decisions := []

theorem starts_freshWorld : portSetup.Starts freshWorld where
  loaded := .inl rfl
  rules := rfl
  awaiting := rfl
  queue := fun _ => rfl
  decisions := rfl

/-- The queue drains before each policy is stored. -/
def drainedTrace : List (ReloadAction Nat Unit) :=
  [.reload firstFile true, .store, .arrive () 443 0#32 0#32,
    .reload reorderedFile true, .handle () 0 0, .store,
    .arrive () 443 0#32 0#32, .handle () 1 1]

instance (world : ReloadWorld Unit Unit Nat Unit Unit)
    (action : ReloadAction Nat Unit) :
    Decidable (portSetup.Separated world action) := by
  unfold ReloadSetup.Separated
  split <;> infer_instance

theorem drainedTrace_byBinding :
    ∃ world : ReloadWorld Unit Unit Nat Unit Unit,
      portSetup.system.run freshWorld drainedTrace = some world ∧
      world.decisions.length = 2 ∧
      ∀ decided ∈ world.decisions, decided.ByBinding := by
  have replayed : (portSetup.system.run freshWorld drainedTrace).map
      (fun world => world.decisions.length) = some 2 := by decide +kernel
  obtain ⟨world, replay, two⟩ := Option.map_eq_some_iff.mp replayed
  have reached : portSetup.system.ReachableUnder portSetup.Separated world :=
    TransitionSystem.ReachableUnder.run (.initial starts_freshWorld)
      drainedTrace (by decide +kernel) replay
  exact ⟨world, replay, two, ReloadSetup.byBinding_of_separated reached⟩

/-- A packet queued by the first rules is decided after the second load. -/
def reorderTrace : List (ReloadAction Nat Unit) :=
  [.reload firstFile true, .store, .arrive () 443 0#32 0#32,
    .reload reorderedFile true, .store, .handle () 0 0]

/-- The binding of the packet names the same action in both files, and the
packet is decided by the other action. -/
theorem reorder_blocks_allowed :
    ∃ world : ReloadWorld Unit Unit Nat Unit Unit,
      portSetup.system.Reachable world ∧
      ∃ decided ∈ world.decisions,
        decided.binding.actionName = "Global" ∧
        decided.event.actionName = "Strict" ∧ decided.blocked = true ∧
        ¬ decided.ByBinding := by
  have replayed : (portSetup.system.run freshWorld reorderTrace).map
      (fun world => world.decisions.map fun decided =>
        (decided.binding.actionName, decided.event.actionName,
          decided.blocked)) = some [("Global", "Strict", true)] := by
    decide +kernel
  obtain ⟨world, replay, observed⟩ := Option.map_eq_some_iff.mp replayed
  obtain ⟨decided, decisions, same⟩ := List.map_eq_singleton_iff.mp observed
  obtain ⟨binding, event, blocked⟩ : decided.binding.actionName = "Global" ∧
      decided.event.actionName = "Strict" ∧ decided.blocked = true := by
    simpa using same
  refine ⟨world, TransitionSystem.reachable_of_run starts_freshWorld
    reorderTrace replay, decided, by simp [decisions], binding, event, blocked,
    ?_⟩
  intro byBinding
  obtain ⟨action, _, named, applied, _⟩ := byBinding.action
  rw [binding] at named
  rw [event] at applied
  exact absurd (applied.trans named) (by decide +kernel)

end Traces

end QuartzFire.AppControl
