import QuartzFire.Foundation.ConfigRead
import QuartzFire.Foundation.Gathering
import QuartzFire.Nft.Matching

/-!
# Firewall rules replicated as matches

Geolocation and SSL inspection attach to a firewall rule by repeating its match
in a table of their own.  Both read the same few nodes of the rule and resolve
its groups to their members.
-/

namespace QuartzFire.Replication

open Nft

/-! ## Groups -/

/-- The leaves of a group and their members. -/
abbrev Group := List (String × List String)

/-- Group type, group name, leaf. -/
abbrev Groups := List (String × List (String × Group))

def groupTypes : List String :=
  ["address-group", "network-group", "domain-group", "interface-group",
    "port-group"]

def groupLeaves (gtype : String) : List String :=
  if gtype = "address-group" then ["address", "include"]
  else if gtype = "network-group" then ["network", "include"]
  else if gtype = "domain-group" then ["address", "include"]
  else if gtype = "interface-group" then ["interface"]
  else if gtype = "port-group" then ["port"]
  else []

def groupPath (gtype name leaf : String) : List String :=
  ["firewall", "group", gtype, name, leaf]

def readGroup (conf : ConfigRead) (gtype name : String) : Group :=
  (groupLeaves gtype).map fun leaf =>
    (leaf, conf.returnValues (groupPath gtype name leaf))

def readGroups (conf : ConfigRead) : Groups :=
  groupTypes.map fun gtype =>
    (gtype,
      if conf.existsAt ["firewall", "group"] &&
          conf.existsAt ["firewall", "group", gtype] then
        (conf.listNodes ["firewall", "group", gtype]).map fun name =>
          (name, readGroup conf gtype name)
      else [])

def Groups.ofType (groups : Groups) (gtype : String) :
    List (String × Group) :=
  (groups.lookup gtype).getD []

def Groups.find (groups : Groups) (gtype name : String) : Option Group :=
  (groups.ofType gtype).lookup name

def Group.values (group : Group) (leaf : String) : List String :=
  (group.lookup leaf).getD []

/-! ## Matches -/

structure MatchError where
  text : String
  deriving DecidableEq

structure IfaceSpec where
  name : Option String
  group : Option String
  /-- Literal interfaces, which take precedence. -/
  names : List String
  deriving DecidableEq

structure Side where
  address : Option String
  groupType : Option String
  groupName : Option String
  /-- Of a destination. -/
  portGroup : Option String
  deriving DecidableEq

structure RuleCfg where
  inboundInterface : Option IfaceSpec
  outboundInterface : Option IfaceSpec
  source : Side
  destination : Side
  protocol : Option String
  deriving DecidableEq

def memberLeaf (gtype : String) : Option String :=
  if gtype = "address-group" then some "address"
  else if gtype = "network-group" then some "network"
  else none

/-- A group's own members, and the groups it includes. -/
def groupDirectory (groups : Groups) (gtype : String) :
    Directory String String MatchError where
  items name :=
    match groups.find gtype name with
    | none => .error ⟨"firewall group " ++ gtype ++ " \"" ++ name ++
        "\" does not exist"⟩
    | some group => .ok (group.values ((memberLeaf gtype).getD ""))
  refers name :=
    match groups.find gtype name with
    | none => []
    | some group => group.values "include"

def groupMembers (groups : Groups) (gtype name : String) :
    Except MatchError (List String) := do
  let gathered ← (groupDirectory groups gtype).gather
    (groups.ofType gtype).length name []
  return gathered.1

def ifaceExpr (key : Key) (spec : IfaceSpec) (groups : Groups) :
    Except MatchError Match :=
  if spec.names ≠ [] then .ok [⟨key, .set spec.names⟩]
  else match spec.name with
    | some name => .ok [⟨key, .one name⟩]
    | none =>
        let gname := spec.group.getD ""
        let names := ((groups.find "interface-group" gname).map fun group =>
          group.values "interface").getD []
        if names = [] then
          .error ⟨"interface-group \"" ++ gname ++
            "\" has no member interfaces"⟩
        else .ok [⟨key, .set names⟩]

/-- A leading `!` negates a literal address. -/
def addressOperand (text : String) : Operand :=
  match text.toList with
  | '!' :: rest => .other (String.ofList rest)
  | _ => .one text

def addrExpr (feature : String) (key : Key) (side : Side) (groups : Groups) :
    Except MatchError Match :=
  if side.groupType = some "domain-group" then
    .error ⟨"the rule matches FQDN group \"" ++ side.groupName.getD "" ++
      "\" — " ++ feature ++
      " cannot be attached to rules that match domain (FQDN) groups"⟩
  else
    let literal : Match := match side.address with
      | some text => [⟨key, addressOperand text⟩]
      | none => []
    match side.groupType, side.groupName with
    | some gtype, some gname =>
        if (memberLeaf gtype).isSome then do
          let members ← groupMembers groups gtype gname
          if members = [] then
            .error ⟨"firewall group " ++ gtype ++ " \"" ++ gname ++
              "\" has no members"⟩
          else return [⟨key, .set members⟩]
        else .ok literal
    | _, _ => .ok literal

/-- A text that is not blank, without the blanks around it. -/
def trimmed (text : Option String) : Option String :=
  (text.map fun text => String.ofList (trim text.toList)).filter
    fun text => text ≠ ""

def portExpr (rule : RuleCfg) (groups : Groups) : Except MatchError Match :=
  let proto := trimmed rule.protocol
  match rule.destination.portGroup with
  | some pg =>
      let ports := ((groups.find "port-group" pg).map fun group =>
        group.values "port").getD []
      if ports = [] then
        .error ⟨"port-group \"" ++ pg ++ "\" has no member ports"⟩
      else if proto = some "tcp" then
        .ok [⟨.tcpDport, .set ports⟩]
      else if proto = some "udp" then
        .ok [⟨.udpDport, .set ports⟩]
      else .ok [⟨.l4proto, .set ["tcp", "udp"]⟩, ⟨.thDport, .set ports⟩]
  | none =>
      match proto with
      | none => .ok []
      | some text =>
          if text = "all" then .ok []
          else if text = "tcp_udp" then .ok [⟨.l4proto, .set ["tcp", "udp"]⟩]
          else .ok [⟨.l4proto, .one text⟩]

def optional (build : IfaceSpec → Except MatchError Match) :
    Option IfaceSpec → Except MatchError Match
  | some spec => build spec
  | none => .ok []

/-- What both services build of a rule, in their own words for an error. -/
def matchExpr (feature : String) (rule : RuleCfg) (groups : Groups) :
    Except MatchError Match := do
  let inbound ← optional (fun spec => ifaceExpr .iifname spec groups)
    rule.inboundInterface
  let outbound ← optional (fun spec => ifaceExpr .oifname spec groups)
    rule.outboundInterface
  let source ← addrExpr feature .ipSaddr rule.source groups
  let destination ← addrExpr feature .ipDaddr rule.destination groups
  let ports ← portExpr rule groups
  return inbound ++ (outbound ++ (source ++ (destination ++ ports)))

/-! ## Reading a rule -/

def readIface (conf : ConfigRead) (base : List String) (key : String) :
    Option IfaceSpec :=
  match conf.returnValue (base ++ [key, "name"]) with
  | some name => some ⟨some name, none, []⟩
  | none =>
      (conf.returnValue (base ++ [key, "group"])).map fun group =>
        ⟨none, some group, []⟩

/-- The first of the group types a side names. -/
def readSideGroup (conf : ConfigRead) (base : List String) (key : String) :
    List String → Option (String × String)
  | [] => none
  | gtype :: rest =>
      match conf.returnValue (base ++ [key, "group", gtype]) with
      | some name => some (gtype, name)
      | none => readSideGroup conf base key rest

def readSide (conf : ConfigRead) (base : List String) (key : String) : Side :=
  let group := readSideGroup conf base key
    ["address-group", "network-group", "domain-group"]
  { address := conf.returnValue (base ++ [key, "address"])
    groupType := group.map Prod.fst
    groupName := group.map Prod.snd
    portGroup := none }

/-- `none` when there is no rule. -/
def readRuleAt (conf : ConfigRead) (base : List String) : Option RuleCfg :=
  if conf.existsAt base then
    some {
      inboundInterface := readIface conf base "inbound-interface"
      outboundInterface := readIface conf base "outbound-interface"
      source := readSide conf base "source"
      destination := { readSide conf base "destination" with
        portGroup :=
          conf.returnValue (base ++ ["destination", "group", "port-group"]) }
      protocol := conf.returnValue (base ++ ["protocol"]) }
  else none

end QuartzFire.Replication

namespace QuartzFire

namespace Geolocation

open Replication

/-- The named ruleset of a zone scope. -/
def zoneRuleset (ruleset : String) : Option String :=
  (stripPrefix "name:".toList ruleset.toList).map String.ofList

def rulePath (ruleset rule : String) : List String :=
  match zoneRuleset ruleset with
  | some name => ["firewall", "ipv4", "name", name, "rule", rule]
  | none => ["firewall", "ipv4", ruleset, "filter", "rule", rule]

def readRuleCfg (conf : ConfigRead) (ruleset : String) (rule : Nat) :
    Option RuleCfg :=
  readRuleAt conf (rulePath ruleset (toString rule))

def ruleMatchExpr (rule : RuleCfg) (groups : Groups) :
    Except MatchError Nft.Match :=
  matchExpr "geolocation" rule groups

/-- `none` when the target rule does not exist. -/
def resolveRule (conf : ConfigRead) (ruleset : String) (rule : Nat) :
    Option (Except MatchError Nft.Match) :=
  (readRuleCfg conf ruleset rule).map fun cfg =>
    ruleMatchExpr cfg (readGroups conf)

end Geolocation

namespace SslInspection

open Replication

def rulePath (ruleset rule : String) : List String :=
  ["firewall", "ipv4", ruleset, "filter", "rule", rule]

def readRuleCfg (conf : ConfigRead) (ruleset : String) (rule : Nat) :
    Option RuleCfg :=
  readRuleAt conf (rulePath ruleset (toString rule))

/-- Before routing no outbound interface is known. -/
def ruleMatchExpr (rule : RuleCfg) (groups : Groups) :
    Except MatchError Nft.Match :=
  if rule.outboundInterface.isSome then
    .error ⟨"SSL inspection steers traffic in the NAT prerouting hook, " ++
      "before the routing decision, so it cannot match on a rule's " ++
      "outbound-interface (destination zone). Scope the rule by " ++
      "inbound-interface, source, destination address, or destination port " ++
      "instead."⟩
  else matchExpr "SSL inspection" rule groups

/-- `none` when the target rule does not exist. -/
def resolveRule (conf : ConfigRead) (ruleset : String) (rule : Nat) :
    Option (Except MatchError Nft.Match) :=
  (readRuleCfg conf ruleset rule).map fun cfg =>
    ruleMatchExpr cfg (readGroups conf)

end SslInspection

end QuartzFire
