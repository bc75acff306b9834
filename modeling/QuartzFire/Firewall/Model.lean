import Mathlib.Data.List.Sort
import QuartzFire.Foundation.ConfigTree

/-!
# The firewall data model

Aliases, policies, rules and zones as the console shows them.  A rule lives in
a base chain or, once per zone pair, in the rulesets bound to its pairs.
-/

namespace QuartzFire.Firewall

/-- The JSON rendering of a configuration subtree. -/
abbrev Cfg := ConfigTree String

abbrev Path := List String

abbrev VyosCommand := Command String

inductive AliasType where
  | host
  | network
  | fqdn
  | iface
  deriving DecidableEq, Repr

namespace AliasType

/-- The group node backing an alias type. -/
def node : AliasType → String
  | .host => "address-group"
  | .network => "network-group"
  | .fqdn => "domain-group"
  | .iface => "interface-group"

def memberLeaf : AliasType → String
  | .host => "address"
  | .network => "network"
  | .fqdn => "address"
  | .iface => "interface"

def all : List AliasType := [.host, .network, .fqdn, .iface]

/-- `GROUP_NODE_TO_TYPE` -/
def ofNode (node : String) : Option AliasType :=
  all.find? fun type => type.node = node

end AliasType

structure FirewallAlias where
  name : String
  display : String
  type : AliasType
  description : Option String
  members : List String
  deriving DecidableEq, Repr

inductive PolicyProtocol where
  | tcp
  | udp
  | tcpUdp
  deriving DecidableEq, Repr

def PolicyProtocol.text : PolicyProtocol → String
  | .tcp => "tcp"
  | .udp => "udp"
  | .tcpUdp => "tcp_udp"

structure FirewallPolicy where
  name : String
  protocol : PolicyProtocol
  ports : List String
  description : Option String
  deriving DecidableEq, Repr

/-- `BUILTIN_POLICIES`: the policies offered without prior setup. -/
def builtinPolicy (name : String) : Option (PolicyProtocol × List String) :=
  if name = "HTTPS" then some (.tcp, ["443"])
  else if name = "SSH" then some (.tcp, ["22"])
  else none

inductive RuleAction where
  | accept
  | drop
  | reject
  deriving DecidableEq, Repr

def RuleAction.text : RuleAction → String
  | .accept => "accept"
  | .drop => "drop"
  | .reject => "reject"

inductive ZoneDefaultAction where
  | drop
  | reject
  deriving DecidableEq, Repr

structure FirewallZone where
  name : String
  display : String
  description : Option String
  /-- The firewall itself. -/
  isLocal : Bool
  interfaces : List String
  defaultAction : Option ZoneDefaultAction
  defaultLog : Bool
  intraZone : Option RuleAction
  deriving DecidableEq, Repr

/-- One direction of traffic between two zones, and the ruleset holding its
rules. -/
structure ZonePair where
  src : String
  dst : String
  ruleset : String
  deriving DecidableEq, Repr

/-- The ruleset name backing a zone pair. -/
def pairRuleset (src dst : String) : String :=
  "QZ-Z-" ++ src ++ "-TO-" ++ dst

inductive BaseChain where
  | forward
  | input
  | output
  deriving DecidableEq, Repr

def BaseChain.text : BaseChain → String
  | .forward => "forward"
  | .input => "input"
  | .output => "output"

/-- Where a rule lives: a base chain, or the ruleset of a zone pair. -/
inductive RuleChain where
  | base (chain : BaseChain)
  | name (ruleset : String)
  deriving DecidableEq, Repr

namespace RuleChain

/-- The chain as the string the source keeps it as. -/
def text : RuleChain → String
  | .base chain => chain.text
  | .name ruleset => "name:" ++ ruleset

def rulesetName : RuleChain → Option String
  | .base _ => none
  | .name ruleset => some ruleset

def isBaseChain : RuleChain → Bool
  | .base _ => true
  | .name _ => false

def chainRank : RuleChain → Nat
  | .base .forward => 0
  | .base .input => 1
  | .base .output => 2
  | .name _ => 3

end RuleChain

/-- An auto-managed group backing a side of several entries. -/
structure AutoGroup where
  name : String
  node : String
  includes : List String
  interfaces : List String
  members : List String
  deriving DecidableEq, Repr

/-- `AUTO_MARK` -/
def autoMark : String := "[qz-rule]"

/-- `SYS_MARK` -/
def sysMark : String := "[qz-sys]"

/-- `IPS_CONNMARK` -/
def ipsConnmark : String := "81"

/-- One side of a rule match as stored. -/
structure RuleEndpoint where
  groupType : Option String
  groupName : Option String
  address : Option String
  iface : Option String
  ifaceGroup : Option String
  deriving DecidableEq, Repr

/-- One config rule backing a UI rule. -/
structure RuleScope where
  chain : RuleChain
  raw : Cfg
  deriving DecidableEq

structure FirewallRule where
  rule : Nat
  chain : RuleChain
  scopes : List RuleScope
  name : Option String
  action : Option RuleAction
  ips : Bool
  fromSide : RuleEndpoint
  toSide : RuleEndpoint
  policy : Option String
  protocol : Option String
  enabled : Bool
  log : Bool
  raw : Cfg
  deriving DecidableEq

structure ChainSetup where
  baseline : Bool
  ipsFlow : Bool
  defaultAction : Option String
  defaultLog : Bool
  deriving DecidableEq, Repr

structure FirewallConfig where
  aliases : List FirewallAlias
  policies : List FirewallPolicy
  rules : List FirewallRule
  autoGroups : List AutoGroup
  groupNames : List String
  defaultAction : Option String
  setup : BaseChain → ChainSetup
  zones : List FirewallZone
  zonePairs : List ZonePair
  statePolicy : Bool

/-- The order `localeCompare` puts strings in. -/
structure Locale where
  le : String → String → Bool
  total : ∀ left right, le left right || le right left
  trans : ∀ {first second third},
    le first second → le second third → le first third

/-- Stable sorting by a `localeCompare` of keys. -/
def Locale.sortBy {Item : Type} (locale : Locale) (key : Item → String)
    (items : List Item) : List Item :=
  items.insertionSort fun left right => locale.le (key left) (key right)

/-- `[...new Set(items)]`: the first occurrence of each item. -/
def distinct {Item : Type} [DecidableEq Item] : List Item → List Item
  | [] => []
  | item :: items => item :: (distinct items).filter (· ≠ item)

/-- Config path of a scope's rules. -/
def filterBase : RuleChain → Path
  | .base chain => ["firewall", "ipv4", chain.text, "filter"]
  | .name ruleset => ["firewall", "ipv4", "name", ruleset]

def ruleBase (chain : RuleChain) (rule : Nat) : Path :=
  filterBase chain ++ ["rule", toString rule]

/-- Where geolocation policies are, by their own number. -/
def geoBase : Path := ["service", "geolocation", "policy"]

/-- Where SSL inspection policies are, by rule number. -/
def sslBase : Path := ["service", "quartzfire", "ssl-inspection", "policy"]

end QuartzFire.Firewall
