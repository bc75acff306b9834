import QuartzFire.AppControl.Nftables
import QuartzFire.AppControl.Policy
import QuartzFire.Nft.Address
import QuartzFire.Nft.Matching
import QuartzFire.Nft.Ruleset

/-!
# Generating the `inet qfappd` table

The table is rendered from the mark layout, the queues and the compiled
bindings.  A binding expands to one rule for each address family it allows and
each of its transport entries.
-/

namespace QuartzFire.AppControl

open Nft

/-! ## Packets -/

/-- A packet at the forward hook. -/
structure Forwarded where
  iifname : String
  oifname : String
  addresses : Addresses
  /-- The protocol number. -/
  protocol : Nat
  /-- Read of TCP and UDP packets only. -/
  dport : Nat
  deriving DecidableEq

def L4Proto.number : L4Proto → Nat
  | .tcp => Nft.tcp
  | .udp => Nft.udp

def Forwarded.isTcpUdp (packet : Forwarded) : Bool :=
  packet.protocol = Nft.tcp || packet.protocol = Nft.udp

/-- What the rules see and change. -/
structure Skb where
  packet : Forwarded
  ctMark : Mark
  mark : Mark
  deriving DecidableEq

/-! ## Match specifications -/

/-- An address and the length of its prefix. -/
structure Cidr where
  ip : IpAddr
  plen : Nat
  deriving DecidableEq

def Cidr.contains (cidr : Cidr) : IpAddr → Bool
  | .v4 host =>
      match cidr.ip with
      | .v4 network =>
          network >>> (32 - cidr.plen) = host >>> (32 - cidr.plen)
      | .v6 _ => false
  | .v6 host =>
      match cidr.ip with
      | .v4 _ => false
      | .v6 network =>
          network >>> (128 - cidr.plen) = host >>> (128 - cidr.plen)

def isIpv4 (addr : IpAddr) : Bool := addr.family = .v4

/-- `parse_cidr`, the addresses being parsed by the standard library. -/
def cidr (parseAddr : String → Option IpAddr) (text : String) : Option Cidr :=
  let parts := text.toList.splitOn '/'
  let plen := if parts.length ≤ 1 then none
    else some (String.ofList (['/'].intercalate parts.tail))
  (parseAddr (String.ofList (parts.headD []))).bind fun ip =>
    let max := if isIpv4 ip then 32 else 128
    match plen with
    | none => some ⟨ip, max⟩
    | some plen =>
        (Policy.parsePrefixLength plen).bind fun length =>
          if length ≤ max then some ⟨ip, length⟩ else none

section Specification

variable (parseAddr : String → Option IpAddr)

/-- An empty list means any. -/
def namesAllow (names : List String) (name : String) : Bool :=
  names = [] || name ∈ names

def addressesAllow (addrs : List String) (addr : IpAddr) : Bool :=
  addrs = [] || addrs.any fun text =>
    (cidr parseAddr text).any fun range => range.contains addr

def L4Match.allows (l4 : L4Match) (packet : Forwarded) : Bool :=
  packet.protocol = l4.proto.number &&
    (l4.dports = [] || packet.dport ∈ l4.dports)

/-- The packets a specification describes. -/
def MatchSpec.satisfied (spec : MatchSpec) (packet : Forwarded) : Bool :=
  namesAllow spec.iifname packet.iifname &&
    namesAllow spec.oifname packet.oifname &&
    addressesAllow parseAddr spec.saddr packet.addresses.source &&
    addressesAllow parseAddr spec.daddr packet.addresses.destination &&
    (spec.l4.isEmpty || spec.l4.any fun l4 => l4.allows packet)

end Specification

/-! ## Statements -/

inductive MarkField where
  | pkt
  | ct
  deriving DecidableEq, Repr

def Skb.read (skb : Skb) : MarkField → Mark
  | .pkt => skb.mark
  | .ct => skb.ctMark

def Skb.write (skb : Skb) (value : Mark) : MarkField → Skb
  | .pkt => { skb with mark := value }
  | .ct => { skb with ctMark := value }

/-- A mark combined with constants. -/
inductive MarkExpr where
  | mark (field : MarkField)
  | and (expr : MarkExpr) (constant : Mark)
  | or (expr : MarkExpr) (constant : Mark)
  deriving DecidableEq

def MarkExpr.eval (skb : Skb) : MarkExpr → Mark
  | .mark field => skb.read field
  | .and expr constant => expr.eval skb &&& constant
  | .or expr constant => expr.eval skb ||| constant

inductive RuleTest where
  /-- `<field> mark & mask == value` -/
  | markIs (field : MarkField) (mask value : Mark)
  | iifname (names : List String)
  | oifname (names : List String)
  | saddr (family : Family) (members : List Cidr)
  | daddr (family : Family) (members : List Cidr)
  | l4proto (protos : List L4Proto)
  | dport (proto : L4Proto) (ports : List Nat)
  deriving DecidableEq

inductive RuleEffect where
  | counter
  | set (field : MarkField) (expr : MarkExpr)
  deriving DecidableEq

def RuleTest.holds (skb : Skb) : RuleTest → Bool
  | .markIs field mask value => skb.read field &&& mask = value
  | .iifname names => skb.packet.iifname ∈ names
  | .oifname names => skb.packet.oifname ∈ names
  | .saddr family members =>
      skb.packet.addresses.source.family = family &&
        members.any fun range => range.contains skb.packet.addresses.source
  | .daddr family members =>
      skb.packet.addresses.destination.family = family &&
        members.any fun range =>
          range.contains skb.packet.addresses.destination
  | .l4proto protos =>
      protos.any fun proto => skb.packet.protocol = proto.number
  | .dport proto ports =>
      skb.packet.protocol = proto.number && skb.packet.dport ∈ ports

def RuleEffect.apply (skb : Skb) : RuleEffect → Skb
  | .counter => skb
  | .set field expr => skb.write (expr.eval skb) field

def ruleMeaning : Interpretation RuleTest RuleEffect Skb where
  holds test skb := test.holds skb
  apply effect skb := effect.apply skb

/-! ## The queue statement -/

inductive FailMode where
  | failOpen
  | failClosed
  deriving DecidableEq, Repr

structure QueueSpec where
  start : Nat
  count : Nat
  failMode : FailMode
  deriving DecidableEq, Repr

structure QueueStatement where
  fanout : Bool
  bypass : Bool
  first : Nat
  last : Nat
  deriving DecidableEq, Repr

def QueueSpec.stmt (spec : QueueSpec) : QueueStatement where
  fanout := 1 < spec.count
  bypass := spec.failMode = .failOpen
  first := spec.start
  last := if 1 < spec.count then spec.start + spec.count - 1 else spec.start

/-! ## Rendering -/

inductive QfChain where
  | forward
  | forwardVerdict
  | qfPersist
  | qfBindings
  deriving DecidableEq, Repr

abbrev QfRule := Rule RuleTest RuleEffect QfChain QueueStatement

section Rendering

variable (parseAddr : String → Option IpAddr)

/-- Whether a family has candidates in a list of addresses. -/
def feasible (family : Family) (addrs : List String) : Bool :=
  addrs = [] || addrs.any fun text =>
    (cidr parseAddr text).any fun range => range.ip.family = family

/-- `none` is the one rule of a binding without addresses. -/
def matchedFamilies (spec : MatchSpec) : List (Option Family) :=
  if spec.saddr = [] ∧ spec.daddr = [] then [none]
  else ([Family.v4, .v6].filter fun family =>
    feasible parseAddr family spec.saddr &&
      feasible parseAddr family spec.daddr).map some

def ifnameMatch (field : List String → RuleTest) (names : List String) :
    List RuleTest :=
  let safe := names.filter Policy.validIfname
  if names = [] ∨ safe = [] then [] else [field safe]

def addrMatch (family : Family) (field : Family → List Cidr → RuleTest)
    (addrs : List String) : List RuleTest :=
  let members := (addrs.filterMap (cidr parseAddr)).filter fun range =>
    range.ip.family = family
  if addrs = [] ∨ members = [] then [] else [field family members]

def l4Variants (spec : MatchSpec) : List (List RuleTest) :=
  if spec.l4.isEmpty then [[]]
  else spec.l4.map fun l4 =>
    if l4.dports = [] then [.l4proto [l4.proto]]
    else [.dport l4.proto l4.dports]

def addressTests (spec : MatchSpec) : Option Family → List RuleTest
  | some family => addrMatch parseAddr family .saddr spec.saddr ++
      addrMatch parseAddr family .daddr spec.daddr
  | none => []

/-- What a rule of a binding asks for. -/
def bindingTests (layout : Layout) (spec : MatchSpec)
    (family : Option Family) (l4 : List RuleTest) : List RuleTest :=
  .markIs .pkt layout.classifiedMask 0#32 ::
    (ifnameMatch .iifname spec.iifname ++ ifnameMatch .oifname spec.oifname ++
      addressTests parseAddr spec family ++ l4)

/-- What a rule of a binding does: the action id rides the packet mark. -/
def bindingActions (layout : Layout) (queues : QueueSpec) (actionId : Nat) :
    QfRule :=
  let write := layout.encodeAction actionId
  [.effect (.set .pkt
      (.or (.and (.mark .pkt) (~~~write.mask)) write.value)),
    .effect .counter, .verdict (.queue queues.stmt)]

/-- The rules of one binding. -/
def rulesOf (layout : Layout) (queues : QueueSpec) (binding : PolicyBinding) :
    List QfRule :=
  (matchedFamilies parseAddr binding.matchSpec).flatMap fun family =>
    (l4Variants binding.matchSpec).map fun l4 =>
      (bindingTests parseAddr layout binding.matchSpec family l4).map .test ++
        bindingActions layout queues binding.actionId

def bindingRules (layout : Layout) (queues : QueueSpec)
    (bindings : List PolicyBinding) : List QfRule :=
  bindings.flatMap (rulesOf parseAddr layout queues)

/-- The conditional or of a bit, if it is the daemon's. -/
def persistBitRule (layout : Layout) (bit : Nat) : Option QfRule :=
  let mask := 1#32 <<< bit
  if layout.qfMask &&& mask != 0#32 then
    some [.test (.markIs .pkt mask mask),
      .effect (.set .ct (.or (.mark .ct) mask))]
  else none

/-- One clear, and a conditional or for each bit of the daemon. -/
def persistRules (layout : Layout) : List QfRule :=
  [.effect (.set .ct (.and (.mark .ct) (~~~layout.qfMask))),
    .effect .counter] ::
  (List.range 32).reverse.filterMap (persistBitRule layout)

/-- `render_table` -/
def renderTable (layout : Layout) (queues : QueueSpec)
    (bindings : List PolicyBinding) :
    Chains RuleTest RuleEffect QfChain QueueStatement :=
  let classified := layout.classifiedMask
  let both := classified ||| layout.blockMask
  fun
    | .forward =>
        [[.test (.markIs .ct both both), .effect .counter, .verdict .drop],
          [.test (.markIs .ct classified classified), .effect .counter,
            .verdict .accept],
          [.test (.l4proto [.tcp, .udp]), .verdict (.jump .qfBindings)]]
    | .forwardVerdict =>
        [[.test (.markIs .pkt classified classified),
            .verdict (.jump .qfPersist)],
          [.test (.markIs .pkt both both), .effect .counter, .verdict .drop]]
    | .qfPersist => persistRules layout
    | .qfBindings => bindingRules parseAddr layout queues bindings

end Rendering

end QuartzFire.AppControl
