import QuartzFire.AppControl.CtMark
import QuartzFire.AppControl.FlowTable

/-!
# The classification worker

One worker owns one queue, one classification engine and one flow table.  The
engine is the packet-inspection library behind `classify`; it is a parameter
here, with a state of its own.
-/

namespace QuartzFire.AppControl

structure ClassifyResult where
  appId : Nat
  isFinal : Bool
  confidence : String
  sni : Option String
  ja4 : Option String
  deriving DecidableEq, Repr

/-- The classification engine: a fresh flow may fail, and giving up extracts
the best guess. -/
structure Classifier (Engine Flow Payload : Type) where
  newFlow : Engine → Option Flow × Engine
  process : Engine → Flow → Payload → Nat → ClassifyResult × Flow × Engine
  giveup : Engine → Flow → ClassifyResult × Engine

/-- What the packet parser reports of a TCP or UDP packet. -/
structure Parsed (Key : Type) where
  key : Key
  isTcp : Bool

inductive Verdict where
  | allow
  | block
  deriving DecidableEq, Repr

inductive BlockMode where
  | drop
  | reset
  deriving DecidableEq, Repr

structure CompiledAction where
  name : String
  actionId : Nat
  defaultAction : Verdict
  blockMode : BlockMode
  verdicts : List Verdict
  explicit : List Bool

namespace CompiledAction

def verdict (action : CompiledAction) (appId : Nat) : Verdict :=
  (action.verdicts[appId]?).getD action.defaultAction

/-- Whether the verdict is the action's default rather than an explicit rule. -/
def isDefault (action : CompiledAction) (appId : Nat) : Bool :=
  !((action.explicit[appId]?).getD false)

end CompiledAction

/-- A binding with the match it renders to and the action id its rules write. -/
structure CompiledBinding (Payload : Type) where
  bindingId : Nat
  actionId : Nat
  matchSpec : Payload → Bool

structure CompiledPolicy (Payload : Type) where
  actions : List CompiledAction
  bindings : List (CompiledBinding Payload)

def CompiledPolicy.action {Payload : Type} (policy : CompiledPolicy Payload)
    (actionId : Nat) : Option CompiledAction :=
  if actionId = 0 then none else policy.actions[actionId - 1]?

structure Decision where
  block : Bool
  actionName : String
  blockMode : BlockMode
  defaultApplied : Bool
  reset : Bool
  deriving DecidableEq, Repr

/-- Allow or block, by the governing action and a final classification; no
bound action means allow. -/
def decide {Payload : Type} (policy : CompiledPolicy Payload) (actionId : Nat)
    (result : ClassifyResult) (isTcp : Bool) : Decision :=
  match policy.action actionId with
  | some action =>
      let block := action.verdict result.appId == .block
      { block := block
        actionName := action.name
        blockMode := action.blockMode
        defaultApplied := action.isDefault result.appId
        reset := block && action.blockMode == .reset && isTcp }
  | none =>
      { block := false
        actionName := ""
        blockMode := .drop
        defaultApplied := true
        reset := false }

structure FlowState (Flow : Type) where
  flow : Flow
  pkts : Nat
  bytes : Nat

/-- The event of one decision, as far as it depends on the decision. -/
structure Event (Key : Type) where
  key : Key
  appId : Nat
  block : Bool
  actionName : String
  blockMode : BlockMode
  confidence : String
  defaultApplied : Bool
  sni : Option String
  ja4 : Option String
  pkts : Nat
  bytes : Nat

/-- What the driver does with a packet after the core decided; the packet is
accepted in every case. -/
structure Outcome where
  setMark : Option Mark
  reset : Bool
  blocked : Bool
  deriving DecidableEq, Repr

def Outcome.pass : Outcome := ⟨none, false, false⟩

structure Budgets where
  maxPackets : Nat
  maxPayloadBytes : Nat

/-- The parts of a worker that never change while it runs. -/
structure WorkerSetup (Engine Flow Payload Key : Type) where
  classifier : Classifier Engine Flow Payload
  layout : Layout
  budgets : Budgets
  policy : CompiledPolicy Payload
  parse : Payload → Option (Parsed Key)
  length : Payload → Nat

structure WorkerCore (Engine Flow Key : Type) where
  engine : Engine
  table : FlowTable Key (FlowState Flow)
  /-- What the event sink was given, newest first. -/
  events : List (Event Key)

namespace WorkerSetup

variable {Engine Flow Payload Key : Type} [DecidableEq Key]
variable (setup : WorkerSetup Engine Flow Payload Key)

/-- The flow state of a packet, created on first sight; `none` when the engine
has no flow to give. -/
def flowFor (core : WorkerCore Engine Flow Key) (key : Key) (now : Nat) :
    Option (FlowState Flow × WorkerCore Engine Flow Key) :=
  match core.table.getMut key now with
  | some (state, table) => some (state, { core with table := table })
  | none =>
      match setup.classifier.newFlow core.engine with
      | (none, _) => none
      | (some flow, engine) =>
          let fresh : FlowState Flow := ⟨flow, 0, 0⟩
          some (fresh, { core with
            engine := engine
            table := core.table.insert key fresh now })

/-- Feed the packet into its flow and learn whether classification concluded,
giving up once the flow is over budget. -/
def feed (core : WorkerCore Engine Flow Key) (key : Key) (payload : Payload)
    (now nowMs : Nat) :
    Option (ClassifyResult × FlowState Flow × WorkerCore Engine Flow Key) :=
  (setup.flowFor core key now).map fun (state, core) =>
    let pkts := state.pkts + 1
    let bytes := state.bytes + setup.length payload
    let (result, flow, engine) :=
      setup.classifier.process core.engine state.flow payload nowMs
    let overBudget := pkts ≥ setup.budgets.maxPackets ∨
      bytes ≥ setup.budgets.maxPayloadBytes
    let (result, engine) :=
      if result.isFinal = false ∧ overBudget then
        let (guess, engine) := setup.classifier.giveup engine flow
        ({ guess with isFinal := true }, engine)
      else (result, engine)
    let state : FlowState Flow := ⟨flow, pkts, bytes⟩
    (result, state, { core with
      engine := engine
      table := core.table.write key state })

/-- The verdict of a concluded flow rides the packet mark; the event is
emitted and the resets are asked for. -/
def finalize (core : WorkerCore Engine Flow Key) (parsed : Parsed Key)
    (pktMark : Mark) (result : ClassifyResult) (state : FlowState Flow) :
    Outcome × WorkerCore Engine Flow Key :=
  let actionId := (setup.layout.decode pktMark).actionId
  let decision := decide setup.policy actionId result parsed.isTcp
  let newMark :=
    (setup.layout.encodeVerdict result.appId decision.block).apply pktMark
  let event : Event Key :=
    { key := parsed.key
      appId := result.appId
      block := decision.block
      actionName := decision.actionName
      blockMode := decision.blockMode
      confidence := result.confidence
      defaultApplied := decision.defaultApplied
      sni := result.sni
      ja4 := result.ja4
      pkts := state.pkts
      bytes := state.bytes }
  (⟨some newMark, decision.reset, decision.block⟩,
    { core with events := event :: core.events })

/-- The classification a packet would conclude, if it concludes. -/
def concludes (core : WorkerCore Engine Flow Key) (payload : Payload)
    (now nowMs : Nat) : Bool :=
  match setup.parse payload with
  | none => false
  | some parsed =>
      match setup.feed core parsed.key payload now nowMs with
      | none => false
      | some (result, _, _) => result.isFinal

def handlePacket (core : WorkerCore Engine Flow Key) (pktMark : Mark)
    (payload : Payload) (now nowMs : Nat) :
    Outcome × WorkerCore Engine Flow Key :=
  match setup.parse payload with
  | none => (.pass, core)
  | some parsed =>
      match setup.feed core parsed.key payload now nowMs with
      | none => (.pass, core)
      | some (result, state, fed) =>
          if result.isFinal then
            setup.finalize { fed with table := fed.table.remove parsed.key }
              parsed pktMark result state
          else (.pass, fed)

/-- All a packet handed to the worker can end in. -/
theorem handlePacket_cases (core : WorkerCore Engine Flow Key)
    (pktMark : Mark) (payload : Payload) (now nowMs : Nat) :
    (setup.concludes core payload now nowMs = false ∧
      (setup.handlePacket core pktMark payload now nowMs).1 = .pass) ∨
    (setup.concludes core payload now nowMs = true ∧
      ∃ appId block reset,
        (setup.handlePacket core pktMark payload now nowMs).1 =
          ⟨some ((setup.layout.encodeVerdict appId block).apply pktMark),
            reset, block⟩) := by
  unfold handlePacket concludes
  cases setup.parse payload with
  | none => exact .inl ⟨rfl, rfl⟩
  | some parsed =>
      dsimp only
      cases setup.feed core parsed.key payload now nowMs with
      | none => exact .inl ⟨rfl, rfl⟩
      | some fed =>
          obtain ⟨result, state, after⟩ := fed
          dsimp only
          cases result.isFinal with
          | false => exact .inl ⟨rfl, rfl⟩
          | true => exact .inr ⟨rfl, _, _, _, rfl⟩

end WorkerSetup

end QuartzFire.AppControl
