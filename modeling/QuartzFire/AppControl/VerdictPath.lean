import QuartzFire.Foundation.TransitionSystem
import QuartzFire.AppControl.Nftables

/-!
# From the queue to the connection mark

The kernel queues packets of many connections to one worker; the worker takes
them in order and hands each back to the kernel before it takes the next.  A
verdict leaves the flow table when it is issued but reaches the connection mark
only when its packet passes `forward_verdict`.  Packets of the connection that
are queued in between, or were queued before, are classified afresh.
-/

namespace QuartzFire.AppControl

/-- A packet of a connection with the mark it carries. -/
structure Packet (Conn Payload : Type) where
  conn : Conn
  payload : Payload
  mark : Mark

/-- The daemon's configuration, with what loading it has checked: the layout is
valid and every bound action id fits its field. -/
structure Daemon (Engine Flow Payload Key : Type) extends
    WorkerSetup Engine Flow Payload Key where
  isTcpUdp : Payload → Bool
  layout_valid : layout.validate = .ok ()
  action_le : ∀ binding ∈ policy.bindings,
    binding.actionId ≤ layout.maxActionId

structure World (Engine Flow Payload Key Conn : Type) where
  ctMark : Conn → Mark
  /-- Packets queued to the worker, oldest first. -/
  queue : List (Packet Conn Payload)
  /-- The packet whose verdict the kernel is carrying out. -/
  reinjected : Option (Packet Conn Payload)
  core : WorkerCore Engine Flow Key
  /-- Final decisions issued for a connection, newest first. -/
  decisions : Conn → List Bool
  /-- Decoded marks persisted into a connection mark, newest first. -/
  stored : Conn → List MarkState
  /-- Packets accepted once a block verdict was issued for the connection. -/
  leaked : Conn → List (Packet Conn Payload)

inductive KernelAction (Conn Payload : Type) where
  /-- A packet reaches the `forward` hook. -/
  | arrive (packet : Packet Conn Payload)
  /-- The worker takes the oldest queued packet. -/
  | handle (now nowMs : Nat)
  /-- The packet handed back traverses `forward_verdict`. -/
  | reinject
  /-- The worker sweeps its flow table. -/
  | sweep (now : Nat)

section System

variable {Engine Flow Payload Key Conn : Type}
  [DecidableEq Key] [DecidableEq Conn]

/-- An accepted packet leaves the firewall. -/
def World.accept (world : World Engine Flow Payload Key Conn)
    (packet : Packet Conn Payload) : World Engine Flow Payload Key Conn :=
  if true ∈ world.decisions packet.conn then
    { world with
      leaked := Function.update world.leaked packet.conn
        (packet :: world.leaked packet.conn) }
  else world

namespace Daemon

variable (daemon : Daemon Engine Flow Payload Key)

/-- `forward_verdict` on a packet: its connection mark may change, and it is
accepted or dropped. -/
def verdictHook (world : World Engine Flow Payload Key Conn)
    (packet : Packet Conn Payload) : World Engine Flow Payload Key Conn :=
  let (ctMark, passes) :=
    verdictChain daemon.layout (world.ctMark packet.conn) packet.mark
  let world :=
    if packet.mark.hasAll daemon.layout.classifiedMask then
      { world with
        ctMark := Function.update world.ctMark packet.conn ctMark
        stored := Function.update world.stored packet.conn
          (daemon.layout.decode ctMark :: world.stored packet.conn) }
    else world
  if passes then world.accept packet else world

/-- One step.  Packets arrive without qfappd's verdict bit: nobody else sets
it. -/
def next (world : World Engine Flow Payload Key Conn) :
    KernelAction Conn Payload → Option (World Engine Flow Payload Key Conn)
  | .arrive packet =>
      if packet.mark.hasAll daemon.layout.classifiedMask then none
      else match forwardChain daemon.layout daemon.policy.bindings
          daemon.isTcpUdp (world.ctMark packet.conn) packet.mark
          packet.payload with
        | .drop => some world
        | .accept => some (daemon.verdictHook world packet)
        | .queue mark => some { world with
            queue := world.queue ++ [{ packet with mark := mark }] }
  | .handle now nowMs =>
      match world.reinjected, world.queue with
      | none, packet :: rest =>
          let (outcome, core) := daemon.handlePacket world.core packet.mark
            packet.payload now nowMs
          some { world with
            queue := rest
            core := core
            reinjected := some { packet with
              mark := outcome.setMark.getD packet.mark }
            decisions := match outcome.setMark with
              | some _ => Function.update world.decisions packet.conn
                  (outcome.blocked :: world.decisions packet.conn)
              | none => world.decisions }
      | _, _ => none
  | .reinject =>
      world.reinjected.map fun packet =>
        daemon.verdictHook { world with reinjected := none } packet
  | .sweep now =>
      some { world with
        core := { world.core with table := world.core.table.sweep now } }

/-- A started daemon: nothing queued, decided or persisted yet. -/
structure Starts (world : World Engine Flow Payload Key Conn) : Prop where
  ctMark : ∀ conn,
    (daemon.layout.decode (world.ctMark conn)).classified = false
  queue : world.queue = []
  reinjected : world.reinjected = none
  decisions : ∀ conn, world.decisions conn = []
  stored : ∀ conn, world.stored conn = []
  leaked : ∀ conn, world.leaked conn = []

/-- The worker and the kernel around it. -/
def system : TransitionSystem (World Engine Flow Payload Key Conn)
    (KernelAction Conn Payload) where
  Initial := daemon.Starts
  next := daemon.next

/-- A connection gets at most one final decision, no packet of it is accepted
once that is a block, and what is persisted for it stays. -/
structure DecidedOnce (world : World Engine Flow Payload Key Conn)
    (conn : Conn) : Prop where
  decisions : (world.decisions conn).length ≤ 1
  leaked : world.leaked conn = []
  stored : (world.stored conn).length ≤ 1
  kept : ∀ state ∈ world.stored conn,
    daemon.layout.decode (world.ctMark conn) = state

/-- A packet of the connection overtakes no verdict: the worker is handed none
once it has blocked the connection and concludes none it has decided, and no
packet is let past the queue while a block is on its way to the connection
mark. -/
def NotOvertaken (world : World Engine Flow Payload Key Conn) :
    KernelAction Conn Payload → Prop
  | .arrive packet =>
      true ∈ world.decisions packet.conn →
        forwardChain daemon.layout daemon.policy.bindings daemon.isTcpUdp
          (world.ctMark packet.conn) packet.mark packet.payload ≠ .accept
  | .handle now nowMs =>
      ∀ packet ∈ world.queue.head?,
        true ∉ world.decisions packet.conn ∧
          (daemon.concludes world.core packet.payload now nowMs = true →
            world.decisions packet.conn = [])
  | _ => True

end Daemon

end System

/-! ## One connection at a time -/

section Stages

variable {Engine Flow Payload Key Conn : Type}

/-- All that the steps of a run can change about one connection. -/
structure View (Conn Payload : Type) where
  ctMark : Mark
  slot : Option (Packet Conn Payload)
  decisions : List Bool
  stored : List MarkState
  leaked : List (Packet Conn Payload)

def World.view [DecidableEq Conn]
    (world : World Engine Flow Payload Key Conn) (conn : Conn) :
    View Conn Payload :=
  { ctMark := world.ctMark conn
    slot := world.reinjected.filter fun packet => packet.conn = conn
    decisions := world.decisions conn
    stored := world.stored conn
    leaked := world.leaked conn }

/-- How far the verdict of a connection is. -/
inductive Stage (layout : Layout) : View Conn Payload → Prop where
  | undecided {ctMark : Mark} {slot : Option (Packet Conn Payload)} :
      (layout.decode ctMark).classified = false →
      (∀ packet ∈ slot, (layout.decode packet.mark).classified = false) →
      Stage layout ⟨ctMark, slot, [], [], []⟩
  | underway {ctMark : Mark} {packet : Packet Conn Payload} :
      (layout.decode ctMark).classified = false →
      (layout.decode packet.mark).classified = true →
      Stage layout
        ⟨ctMark, some packet, [(layout.decode packet.mark).block], [], []⟩
  | settled {ctMark : Mark} {slot : Option (Packet Conn Payload)} :
      (layout.decode ctMark).classified = true →
      (∀ packet ∈ slot, (layout.decode packet.mark).classified = false ∧
        (layout.decode ctMark).block = false) →
      Stage layout ⟨ctMark, slot, [(layout.decode ctMark).block],
        [layout.decode ctMark], []⟩

namespace Stage

variable {layout : Layout} {view : View Conn Payload}

/-- While nothing of the connection is being carried out, an unblocked
connection stays at its stage when an unclassified packet is handed back. -/
theorem handedBack
    (stage : Stage layout view) (vacant : view.slot = none)
    (unblocked : true ∉ view.decisions) {packet : Packet Conn Payload}
    (unclassified : (layout.decode packet.mark).classified = false) :
    Stage layout { view with slot := some packet } := by
  cases stage with
  | undecided notYet _ => exact .undecided notYet (by simpa using unclassified)
  | underway _ _ => cases vacant
  | settled persisted _ =>
      refine .settled persisted ?_
      simpa [unclassified] using unblocked

theorem decide
    (stage : Stage layout view) (vacant : view.slot = none)
    (undecided : view.decisions = []) (packet : Packet Conn Payload)
    (classified : (layout.decode packet.mark).classified = true) :
    Stage layout { view with
      slot := some packet
      decisions := [(layout.decode packet.mark).block] } := by
  cases stage with
  | undecided notYet _ => exact .underway notYet classified
  | underway _ _ => cases vacant
  | settled _ _ => cases undecided

theorem idle
    (stage : Stage layout view)
    (unclassified : ∀ packet ∈ view.slot,
      (layout.decode packet.mark).classified = false) :
    Stage layout { view with slot := none } := by
  cases stage with
  | undecided notYet _ => exact .undecided notYet (by simp)
  | underway _ classified =>
      rw [unclassified _ rfl] at classified
      exact Bool.noConfusion classified
  | settled persisted _ => exact .settled persisted (by simp)

theorem of_classified (stage : Stage layout view)
    {packet : Packet Conn Payload} (slot : view.slot = some packet)
    (classified : (layout.decode packet.mark).classified = true) :
    view.decisions = [(layout.decode packet.mark).block] ∧
      view.stored = [] ∧ view.leaked = [] := by
  cases stage with
  | undecided _ pending =>
      rw [pending packet slot] at classified
      exact Bool.noConfusion classified
  | underway _ _ =>
      cases slot
      exact ⟨rfl, rfl, rfl⟩
  | settled _ pending =>
      rw [(pending packet slot).1] at classified
      exact Bool.noConfusion classified

theorem of_unclassified (stage : Stage layout view)
    {packet : Packet Conn Payload} (slot : view.slot = some packet)
    (unclassified : (layout.decode packet.mark).classified = false) :
    true ∉ view.decisions := by
  cases stage with
  | undecided _ _ => simp
  | underway _ classified =>
      cases slot
      rw [classified] at unclassified
      exact Bool.noConfusion unclassified
  | settled _ pending => simp [(pending packet slot).2]

end Stage

namespace Daemon

variable [DecidableEq Conn]
variable {daemon : Daemon Engine Flow Payload Key}
variable {world : World Engine Flow Payload Key Conn}

theorem valid (daemon : Daemon Engine Flow Payload Key) :
    daemon.layout.Valid :=
  Layout.valid_of_validate daemon.layout_valid

theorem decidedOnce_of_stage {conn : Conn}
    (stage : Stage daemon.layout (world.view conn)) :
    daemon.DecidedOnce world conn := by
  generalize viewed : world.view conn = view at stage
  cases stage with
  | undecided _ _ | underway _ _ =>
      simp only [World.view, View.mk.injEq] at viewed
      obtain ⟨_, _, decisions, stored, leaked⟩ := viewed
      exact ⟨by simp [decisions], leaked, by simp [stored], by simp [stored]⟩
  | settled _ _ =>
      simp only [World.view, View.mk.injEq] at viewed
      obtain ⟨ctMark, _, decisions, stored, leaked⟩ := viewed
      exact ⟨by simp [decisions], leaked, by simp [stored],
        by simp [stored, ctMark]⟩

/-! ## What the hooks do to a connection -/

theorem view_accept_ne (world : World Engine Flow Payload Key Conn)
    {packet : Packet Conn Payload} {conn : Conn}
    (different : packet.conn ≠ conn) :
    (world.accept packet).view conn = world.view conn := by
  unfold World.accept
  split
  · simp [World.view, Function.update_of_ne different.symm]
  · rfl

theorem accept_of_not_blocked {packet : Packet Conn Payload}
    (unblocked : true ∉ world.decisions packet.conn) :
    world.accept packet = world := by
  rw [World.accept, if_neg unblocked]

theorem leaked_accept {packet : Packet Conn Payload}
    (blocked : true ∈ world.decisions packet.conn) :
    ¬ daemon.DecidedOnce (world.accept packet) packet.conn := by
  intro decided
  have leaked := decided.leaked
  rw [World.accept, if_pos blocked] at leaked
  simp at leaked

/-- An unclassified packet passes `forward_verdict` untouched. -/
theorem verdictHook_unclassified {packet : Packet Conn Payload}
    (unclassified : (daemon.layout.decode packet.mark).classified = false) :
    daemon.verdictHook world packet = world.accept packet := by
  have notVerdict : packet.mark.hasAll daemon.layout.classifiedMask = false :=
    by rw [hasAll_classifiedMask daemon.valid, unclassified]
  have passes : packet.mark.hasAll
      (daemon.layout.classifiedMask ||| daemon.layout.blockMask) = false := by
    rw [hasAll_both daemon.valid, unclassified, Bool.false_and]
  simp [verdictHook, verdictChain, notVerdict, passes]

theorem view_verdictHook_ne (world : World Engine Flow Payload Key Conn)
    {packet : Packet Conn Payload} {conn : Conn}
    (different : packet.conn ≠ conn) :
    (daemon.verdictHook world packet).view conn = world.view conn := by
  unfold verdictHook
  dsimp only
  split
  · rw [view_accept_ne _ different]
    split
    · simp [World.view, Function.update_of_ne different.symm]
    · rfl
  · split
    · simp [World.view, Function.update_of_ne different.symm]
    · rfl

theorem queue_verdictHook (world : World Engine Flow Payload Key Conn)
    (packet : Packet Conn Payload) :
    (daemon.verdictHook world packet).queue = world.queue := by
  unfold verdictHook World.accept
  dsimp only
  split <;> split <;> (try split) <;> rfl

/-- A packet that carries the only verdict of its connection settles it: the
verdict is stored, and the packet is let through unless it is a block. -/
theorem view_verdictHook_verdict
    (world : World Engine Flow Payload Key Conn) {packet : Packet Conn Payload}
    (classified : (daemon.layout.decode packet.mark).classified = true)
    (decisions : world.decisions packet.conn =
      [(daemon.layout.decode packet.mark).block])
    (stored : world.stored packet.conn = []) :
    ∃ ctMark, daemon.layout.decode ctMark = daemon.layout.decode packet.mark ∧
      (daemon.verdictHook world packet).view packet.conn =
        { world.view packet.conn with
          ctMark := ctMark
          stored := [daemon.layout.decode ctMark] } := by
  refine ⟨persistChain daemon.layout packet.mark (world.ctMark packet.conn),
    decode_persistChain _ _, ?_⟩
  have verdict : packet.mark.hasAll daemon.layout.classifiedMask = true := by
    rw [hasAll_classifiedMask daemon.valid, classified]
  have passes : (!packet.mark.hasAll
      (daemon.layout.classifiedMask ||| daemon.layout.blockMask)) =
        !(daemon.layout.decode packet.mark).block := by
    rw [hasAll_both daemon.valid, classified, Bool.true_and]
  unfold verdictHook
  simp only [verdictChain, verdict, passes, if_true]
  split
  · rename_i allowed
    have allows : (daemon.layout.decode packet.mark).block = false := by
      simpa using allowed
    rw [accept_of_not_blocked (by simp [decisions, allows])]
    simp [World.view, stored]
  · simp [World.view, stored]

/-! ## Steps and runs -/

/-- Every connection is at some stage, and nothing queued carries a verdict. -/
structure Staged (daemon : Daemon Engine Flow Payload Key)
    (world : World Engine Flow Payload Key Conn) : Prop where
  stages : ∀ conn, Stage daemon.layout (world.view conn)
  queue : ∀ packet ∈ world.queue,
    (daemon.layout.decode packet.mark).classified = false

theorem Staged.start (starts : daemon.Starts world) : daemon.Staged world where
  stages := by
    intro conn
    have view : world.view conn = ⟨world.ctMark conn, none, [], [], []⟩ := by
      simp [World.view, starts.reinjected, starts.decisions, starts.stored,
        starts.leaked]
    rw [view]
    exact .undecided (starts.ctMark conn) (by simp)
  queue := by simp [starts.queue]

variable [DecidableEq Key]
variable {after : World Engine Flow Payload Key Conn}

theorem Staged.arrive (staged : daemon.Staged world)
    {packet : Packet Conn Payload}
    (admitted : daemon.NotOvertaken world (.arrive packet))
    (stepped : daemon.next world (.arrive packet) = some after) :
    daemon.Staged after := by
  simp only [next, hasAll_classifiedMask daemon.valid] at stepped
  split at stepped
  · cases stepped
  rename_i unclassified
  rw [Bool.not_eq_true] at unclassified
  split at stepped <;> cases stepped
  · exact staged
  · rename_i accepted
    have unblocked : true ∉ world.decisions packet.conn := fun blocked =>
      admitted blocked accepted
    rw [verdictHook_unclassified unclassified, accept_of_not_blocked unblocked]
    exact staged
  · rename_i mark queued
    refine ⟨staged.stages, ?_⟩
    intro other member
    rcases List.mem_append.mp member with before | new
    · exact staged.queue other before
    · cases List.mem_singleton.mp new
      exact (decode_forwardChain_queue daemon.valid daemon.action_le
        queued).trans unclassified

theorem Staged.handle (staged : daemon.Staged world) {now nowMs : Nat}
    (admitted : daemon.NotOvertaken world (.handle now nowMs))
    (stepped : daemon.next world (.handle now nowMs) = some after) :
    daemon.Staged after := by
  cases idle : world.reinjected with
  | some _ => simp [next, idle] at stepped
  | none =>
  cases queued : world.queue with
  | nil => simp [next, idle, queued] at stepped
  | cons packet rest =>
  simp only [next, idle, queued, Option.some.injEq] at stepped
  simp only [NotOvertaken, queued, List.head?_cons, Option.mem_def,
    Option.some.injEq, forall_eq'] at admitted
  obtain ⟨unblocked, undecided⟩ := admitted
  have unclassified : (daemon.layout.decode packet.mark).classified = false :=
    staged.queue packet (by simp [queued])
  have stage := staged.stages packet.conn
  have vacant : (world.view packet.conn).slot = none := by
    simp [World.view, idle]
  subst stepped
  refine ⟨?_, fun other member => staged.queue other (by simp [queued, member])⟩
  intro conn
  by_cases same : packet.conn = conn
  · subst same
    rcases daemon.handlePacket_cases world.core packet.mark packet.payload now
      nowMs with ⟨continues, outcome⟩ | ⟨concluded, appId, block, reset, outcome⟩
    · simpa [World.view, Option.filter, outcome, Outcome.pass] using
        stage.handedBack vacant unblocked unclassified
    · have verdict := Layout.decode_encodeVerdict daemon.valid appId block
        packet.mark
      have issued := stage.decide vacant (undecided concluded)
        { packet with mark :=
          (daemon.layout.encodeVerdict appId block).apply packet.mark }
        (by rw [verdict])
      rw [verdict] at issued
      simpa [World.view, Option.filter, outcome, undecided concluded] using
        issued
  · have untouched := staged.stages conn
    have kept : ∀ blocked : Bool, Function.update world.decisions packet.conn
        (blocked :: world.decisions packet.conn) conn =
          world.decisions conn := by
      intro blocked
      exact Function.update_of_ne (Ne.symm same) _ _
    simp only [World.view, idle, Option.filter_none] at untouched
    simp only [World.view, Option.filter, same, decide_false,
      Bool.false_eq_true, if_false]
    cases (daemon.handlePacket world.core packet.mark packet.payload now
      nowMs).1.setMark <;> simpa only [kept] using untouched

theorem Staged.reinject (staged : daemon.Staged world)
    (stepped : daemon.next world .reinject = some after) :
    daemon.Staged after := by
  simp only [next, Option.map_eq_some_iff] at stepped
  obtain ⟨packet, reinjected, rfl⟩ := stepped
  refine ⟨?_, by rw [queue_verdictHook]; exact staged.queue⟩
  intro conn
  have stage := staged.stages conn
  by_cases same : packet.conn = conn
  · subst same
    have slot : (world.view packet.conn).slot = some packet := by
      simp [World.view, reinjected, Option.filter]
    by_cases classified : (daemon.layout.decode packet.mark).classified = true
    · obtain ⟨decisions, stored, leaked⟩ :=
        stage.of_classified slot classified
      obtain ⟨ctMark, persisted, settles⟩ := view_verdictHook_verdict
        { world with reinjected := none } classified decisions stored
      rw [settles, show World.view { world with reinjected := none }
        packet.conn = { world.view packet.conn with slot := none } from rfl]
      simp only [decisions, leaked, ← persisted]
      exact .settled (persisted ▸ classified) (by simp)
    · rw [Bool.not_eq_true] at classified
      have unblocked : true ∉ world.decisions packet.conn :=
        stage.of_unclassified slot classified
      have untouched : World.accept { world with reinjected := none } packet =
          { world with reinjected := none } := accept_of_not_blocked unblocked
      rw [verdictHook_unclassified classified, untouched]
      exact stage.idle (by simpa [slot] using classified)
  · rw [view_verdictHook_ne _ same]
    have slot : (world.view conn).slot = none := by
      simp [World.view, reinjected, Option.filter, same]
    exact stage.idle (by simp [slot])

theorem Staged.step (staged : daemon.Staged world)
    {action : KernelAction Conn Payload}
    (admitted : daemon.NotOvertaken world action)
    (stepped : daemon.next world action = some after) :
    daemon.Staged after := by
  cases action with
  | arrive packet => exact staged.arrive admitted stepped
  | handle now nowMs => exact staged.handle admitted stepped
  | reinject => exact staged.reinject stepped
  | sweep now =>
      cases stepped
      exact ⟨staged.stages, staged.queue⟩

/-- In every run where no packet overtakes a verdict of its connection, every
connection is decided at most once and a block lets nothing through. -/
theorem decidedOnce_of_notOvertaken
    (reached : daemon.system.ReachableUnder daemon.NotOvertaken world)
    (conn : Conn) : daemon.DecidedOnce world conn :=
  have staged : daemon.Staged world :=
    reached.invariant (fun _ => Staged.start)
      fun _ _ _ before admitted stepped => before.step admitted stepped
  decidedOnce_of_stage (staged.stages conn)

/-- The first step of a run that overtakes a verdict breaks the property, at
once or when the packet it handed back is reinjected. -/
theorem overtaking_breaks {action : KernelAction Conn Payload}
    (reached : daemon.system.ReachableUnder daemon.NotOvertaken world)
    (overtakes : ¬ daemon.NotOvertaken world action)
    (stepped : daemon.next world action = some after) :
    ∃ conn, ¬ daemon.DecidedOnce after conn ∨
      ∃ last, daemon.next after .reinject = some last ∧
        ¬ daemon.DecidedOnce last conn := by
  have staged : daemon.Staged world :=
    reached.invariant (fun _ => Staged.start)
      fun _ _ _ before admitted stepped => before.step admitted stepped
  cases action with
  | arrive packet =>
      simp only [NotOvertaken, Classical.not_imp, not_not] at overtakes
      obtain ⟨blocked, accepted⟩ := overtakes
      simp only [next, hasAll_classifiedMask daemon.valid, accepted] at stepped
      split at stepped
      · cases stepped
      rename_i unclassified
      cases stepped
      rw [verdictHook_unclassified (Bool.not_eq_true _ ▸ unclassified)]
      exact ⟨packet.conn, .inl (leaked_accept blocked)⟩
  | handle now nowMs =>
      cases idle : world.reinjected with
      | some _ => simp [next, idle] at stepped
      | none =>
      cases queued : world.queue with
      | nil => simp [next, idle, queued] at stepped
      | cons packet rest =>
      simp only [next, idle, queued, Option.some.injEq] at stepped
      simp only [NotOvertaken, queued, List.head?_cons, Option.mem_def,
        Option.some.injEq, forall_eq'] at overtakes
      have unclassified :
          (daemon.layout.decode packet.mark).classified = false :=
        staged.queue packet (by simp [queued])
      refine ⟨packet.conn, ?_⟩
      rcases daemon.handlePacket_cases world.core packet.mark packet.payload
        now nowMs with ⟨continues, outcome⟩ | ⟨concluded, _, _, _, outcome⟩
      · have blocked : true ∈ world.decisions packet.conn := by
          simpa [continues] using overtakes
        right
        subst stepped
        refine ⟨_, rfl, ?_⟩
        simp only [outcome, Outcome.pass, Option.getD_none]
        rw [verdictHook_unclassified unclassified]
        exact leaked_accept blocked
      · have decided : world.decisions packet.conn ≠ [] := by
          intro undecided
          simp [undecided] at overtakes
        left
        intro once
        have bound := once.decisions
        simp only [← stepped, outcome, Function.update_self,
          List.length_cons] at bound
        exact decided (List.length_eq_zero_iff.mp (by omega))
  | reinject | sweep now => exact absurd trivial overtakes

end Daemon

end Stages

/-! ## A worker that blocks on the second packet -/

section Runs

/-- Everything is queued to an action that blocks by default, and the engine
never concludes within the two packets it is given. -/
def blocking : Daemon Unit Unit Unit Unit where
  classifier :=
    { newFlow := fun engine => (some (), engine)
      process := fun engine flow _ _ =>
        (⟨0, false, "unknown", none, none⟩, flow, engine)
      giveup := fun engine _ => (⟨0, false, "guess", none, none⟩, engine) }
  layout := .default
  budgets := ⟨2, 1000⟩
  policy :=
    { actions := [⟨"deny", 1, .block, .drop, [], []⟩]
      bindings := [⟨1, 1, fun _ => true⟩] }
  parse := fun _ => some ⟨(), true⟩
  length := fun _ => 100
  isTcpUdp := fun _ => true
  layout_valid := by decide
  action_le := by decide

/-- Nothing happened yet. -/
def idleWorld : World Unit Unit Unit Unit Unit where
  ctMark := fun _ => 0#32
  queue := []
  reinjected := none
  core := ⟨(), .new 16 60000, []⟩
  decisions := fun _ => []
  stored := fun _ => []
  leaked := fun _ => []

theorem starts_idleWorld : blocking.Starts idleWorld where
  ctMark := by decide
  queue := rfl
  reinjected := rfl
  decisions := fun _ => rfl
  stored := fun _ => rfl
  leaked := fun _ => rfl

/-- Each packet is answered before the next arrives. -/
def lockstepTrace : List (KernelAction Unit Unit) :=
  [.arrive ⟨(), (), 0#32⟩, .handle 0 0, .reinject,
    .arrive ⟨(), (), 0#32⟩, .handle 1 1, .sweep 2, .reinject,
    .arrive ⟨(), (), 0#32⟩]

instance (world : World Unit Unit Unit Unit Unit)
    (action : KernelAction Unit Unit) :
    Decidable (blocking.NotOvertaken world action) := by
  unfold Daemon.NotOvertaken
  split <;> infer_instance

theorem lockstepTrace_decidedOnce :
    ∃ world, blocking.system.run idleWorld lockstepTrace = some world ∧
      world.decisions () = [true] ∧ blocking.DecidedOnce world () :=
  ⟨_, rfl, rfl, Daemon.decidedOnce_of_notOvertaken
    (TransitionSystem.ReachableUnder.run (.initial starts_idleWorld)
      lockstepTrace (by decide +kernel) rfl) ()⟩

/-- Three packets are queued when the second concludes the classification. -/
def burstTrace : List (KernelAction Unit Unit) :=
  [.arrive ⟨(), (), 0#32⟩, .arrive ⟨(), (), 0#32⟩, .arrive ⟨(), (), 0#32⟩,
    .handle 0 0, .reinject, .handle 1 1, .reinject, .handle 2 2, .reinject]

/-- The worker is handed the third packet although it has blocked the
connection. -/
theorem burst_overtakes :
    ∃ world after,
      blocking.system.run idleWorld (burstTrace.take 7) = some world ∧
      blocking.next world (.handle 2 2) = some after ∧
      ∃ conn, ¬ blocking.DecidedOnce after conn ∨
        ∃ last, blocking.next after .reinject = some last ∧
          ¬ blocking.DecidedOnce last conn := by
  refine ⟨_, _, rfl, rfl, Daemon.overtaking_breaks
    (TransitionSystem.ReachableUnder.run (.initial starts_idleWorld)
      (burstTrace.take 7) (by decide +kernel) rfl) (by decide +kernel)
    (rfl : blocking.next _ (.handle 2 2) = _)⟩

/-- The third packet is classified afresh after the block, and accepted. -/
theorem burst_leaks_past_block :
    ∃ world, blocking.system.Reachable world ∧
      ¬ blocking.DecidedOnce world () := by
  have replayed : (blocking.system.run idleWorld burstTrace).map
      (fun world => (world.decisions (), (world.leaked ()).length)) =
        some ([true], 1) := by decide +kernel
  obtain ⟨world, replay, observed⟩ := Option.map_eq_some_iff.mp replayed
  refine ⟨world, TransitionSystem.reachable_of_run starts_idleWorld burstTrace
    replay, ?_⟩
  intro once
  simp [once.leaked] at observed

end Runs

end QuartzFire.AppControl
