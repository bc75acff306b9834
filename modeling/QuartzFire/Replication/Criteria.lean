import QuartzFire.Replication.RuleMatch

/-!
# What a firewall rule asks of a packet

All match criteria of a rule, next to the ones a replication reads and the way
it reads them.  A replicated match is exact where the two agree part by part.
-/

namespace QuartzFire.Replication

open Nft

/-! ## The criteria of a rule -/

structure SideCriteria where
  address : Option String
  addressGroup : Option String
  networkGroup : Option String
  domainGroup : Option String
  port : Option String
  portGroup : Option String
  deriving DecidableEq

structure RuleCriteria where
  disabled : Bool
  inboundName : Option String
  inboundGroup : Option String
  outboundName : Option String
  outboundGroup : Option String
  source : SideCriteria
  destination : SideCriteria
  protocol : Option String
  states : List String
  tcpFlags : List String
  tcpFlagsNot : List String
  deriving DecidableEq

def sideCriteria (conf : ConfigRead) (base : List String) (key : String) :
    SideCriteria where
  address := conf.returnValue (base ++ [key, "address"])
  addressGroup := conf.returnValue (base ++ [key, "group", "address-group"])
  networkGroup := conf.returnValue (base ++ [key, "group", "network-group"])
  domainGroup := conf.returnValue (base ++ [key, "group", "domain-group"])
  port := conf.returnValue (base ++ [key, "port"])
  portGroup := conf.returnValue (base ++ [key, "group", "port-group"])

def ruleCriteria (conf : ConfigRead) (base : List String) : RuleCriteria where
  disabled := conf.existsAt (base ++ ["disable"])
  inboundName := conf.returnValue (base ++ ["inbound-interface", "name"])
  inboundGroup := conf.returnValue (base ++ ["inbound-interface", "group"])
  outboundName := conf.returnValue (base ++ ["outbound-interface", "name"])
  outboundGroup := conf.returnValue (base ++ ["outbound-interface", "group"])
  source := sideCriteria conf base "source"
  destination := sideCriteria conf base "destination"
  protocol := conf.returnValue (base ++ ["protocol"])
  states := conf.returnValues (base ++ ["state"])
  tcpFlags := (conf.listNodes (base ++ ["tcp", "flags"])).filter
    fun flag => flag ≠ "not"
  tcpFlagsNot := conf.listNodes (base ++ ["tcp", "flags", "not"])

/-! ## Their meaning -/

/-- What the texts of a rule mean: also a list of ports, the addresses of a
domain group, and every criterion that is not listed above. -/
structure RuleMeaning (Addr Rest : Type) extends Denotation Addr where
  ports : String → Nat → Bool
  domain : String → Addr → Bool
  further : ConfigRead → List String → Rest → Bool

/-- A member of the group or of one it includes, at any depth. -/
def InGroup (conf : ConfigRead) (gtype leaf name member : String) : Prop :=
  ∃ node, Relation.ReflTransGen
      (fun group next => next ∈ conf.returnValues (groupPath gtype group "include"))
      name node ∧
    member ∈ conf.returnValues (groupPath gtype node leaf)

/-- A leading `!` negates. -/
def unlessNegated (text : String) (tells : String → Prop) : Prop :=
  match text.toList with
  | '!' :: rest => ¬ tells (String.ofList rest)
  | _ => tells text

/-- `tells` is what a text asks of the packet. -/
def groupCriterion (conf : ConfigRead) (gtype leaf : String)
    (group : Option String) (tells : String → Prop) : Prop :=
  ∀ name ∈ group, unlessNegated name fun name =>
    ∃ member, InGroup conf gtype leaf name member ∧ tells member

def interfaceCriteria (conf : ConfigRead) (name group : Option String)
    (tells : String → Prop) : Prop :=
  (∀ text ∈ name, unlessNegated text tells) ∧
    groupCriterion conf "interface-group" "interface" group tells

section Meaning

variable {Addr Rest : Type} (means : RuleMeaning Addr Rest)

def addressCriteria (conf : ConfigRead) (side : SideCriteria) (address : Addr) :
    Prop :=
  let tells text := means.address text address = true
  (∀ text ∈ side.address, unlessNegated text tells) ∧
    groupCriterion conf "address-group" "address" side.addressGroup tells ∧
    groupCriterion conf "network-group" "network" side.networkGroup tells ∧
    ∀ name ∈ side.domainGroup, unlessNegated name fun name =>
      means.domain name address = true

def portCriteria (conf : ConfigRead) (side : SideCriteria) (port : Nat) :
    Prop :=
  (∀ text ∈ side.port, means.ports text port = true) ∧
    groupCriterion conf "port-group" "port" side.portGroup
      fun text => means.port text port = true

def protocolTells (number : Nat) (text : String) : Prop :=
  if text = "all" then True
  else if text = "tcp_udp" then number = tcp ∨ number = udp
  else means.protocol text number = true

def transportCriteria (conf : ConfigRead) (rule : RuleCriteria)
    (header : Transport) : Prop :=
  (∀ text ∈ rule.protocol,
      unlessNegated text (protocolTells means header.protocol)) ∧
    portCriteria means conf rule.source header.sport ∧
    portCriteria means conf rule.destination header.dport ∧
    (∀ flag ∈ rule.tcpFlags, header.protocol = tcp ∧ flag ∈ header.flags) ∧
    ∀ flag ∈ rule.tcpFlagsNot, header.protocol = tcp ∧ flag ∉ header.flags

/-- Interfaces match where the packet has one. -/
def ifaceTells (iface : Option String) (text : String) : Prop :=
  ∃ name ∈ iface, means.interface text name = true

/-- Every match criterion of the rule at a path. -/
def criteria (conf : ConfigRead) (base : List String) :
    Requirement Addr Rest :=
  let rule := ruleCriteria conf base
  { inbound := fun iface =>
      interfaceCriteria conf rule.inboundName rule.inboundGroup
        (ifaceTells means iface)
    outbound := fun iface =>
      interfaceCriteria conf rule.outboundName rule.outboundGroup
        (ifaceTells means iface)
    source := addressCriteria means conf rule.source
    destination := addressCriteria means conf rule.destination
    transport := transportCriteria means conf rule
    state := fun state => rule.states = [] ∨ state.text ∈ rule.states
    rest := fun rest =>
      rule.disabled = false ∧ means.further conf base rest = true }

/-! ## What a replication makes of them -/

/-- The name as it stands, or else the group's own members. -/
def interfaceReading (conf : ConfigRead) (name group : Option String)
    (tells : String → Prop) : Prop :=
  match name, group with
  | some text, _ => tells text
  | none, some group =>
      ∃ member ∈ conf.returnValues (groupPath "interface-group" group "interface"),
        tells member
  | none, none => True

/-- The first group, or else the literal address. -/
def addressReading (conf : ConfigRead) (side : SideCriteria) (address : Addr) :
    Prop :=
  let tells text := means.address text address = true
  match side.addressGroup, side.networkGroup with
  | some group, _ =>
      ∃ member, InGroup conf "address-group" "address" group member ∧ tells member
  | none, some group =>
      ∃ member, InGroup conf "network-group" "network" group member ∧ tells member
  | none, none => ∀ text ∈ side.address, unlessNegated text tells

/-- The protocol as it stands; with a port group, TCP, UDP or either. -/
def transportReading (conf : ConfigRead) (protocol portGroup : Option String)
    (header : Transport) : Prop :=
  match portGroup with
  | some group =>
      (if trimmed protocol = some "tcp" then header.protocol = tcp
        else if trimmed protocol = some "udp" then header.protocol = udp
        else header.protocol = tcp ∨ header.protocol = udp) ∧
      ∃ member ∈ conf.returnValues (groupPath "port-group" group "port"),
        means.port member header.dport = true
  | none => ∀ text ∈ trimmed protocol, protocolTells means header.protocol text

def reading (conf : ConfigRead) (base : List String) :
    Requirement Addr Rest :=
  let rule := ruleCriteria conf base
  { inbound := fun iface =>
      interfaceReading conf rule.inboundName rule.inboundGroup
        (ifaceTells means iface)
    outbound := fun iface =>
      interfaceReading conf rule.outboundName rule.outboundGroup
        (ifaceTells means iface)
    source := addressReading means conf rule.source
    destination := addressReading means conf rule.destination
    transport :=
      transportReading means conf rule.protocol rule.destination.portGroup
    state := fun _ => True
    rest := fun _ => True }

end Meaning

end QuartzFire.Replication
