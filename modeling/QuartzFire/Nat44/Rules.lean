import QuartzFire.Editing.Fields

/-!
# NAT44 rules

Source and destination rules of the `nat` node, the 1-to-1 mappings that are
lifted from pairs of them, and the commands of an edit.
-/

namespace QuartzFire.Nat44

open ConfigTree Editing
open Firewall (Cfg Path VyosCommand trim trimmed childStr has ruleNumber)

inductive NatSection where
  | source
  | destination
  deriving DecidableEq, Repr

def NatSection.text : NatSection → String
  | .source => "source"
  | .destination => "destination"

/-- `IFACE_KEY` -/
def NatSection.ifaceKey : NatSection → String
  | .source => "outbound-interface"
  | .destination => "inbound-interface"

structure NatRule where
  rule : Nat
  description : Option String
  /-- Interface name, or group name when `interfaceGroup` is set. -/
  interface : Option String
  interfaceGroup : Bool
  source : Option String
  /-- `<type> <name>` of a firewall group match. -/
  sourceGroup : Option String
  sourcePort : Option String
  destination : Option String
  destinationGroup : Option String
  destinationPort : Option String
  translation : Option String
  translationPort : Option String
  protocol : Option String
  enabled : Bool
  deriving DecidableEq, Repr

/-- A 1-to-1 mapping: a source rule and the destination rule mirroring it. -/
structure StaticNatMapping where
  rule : Nat
  description : Option String
  interface : Option String
  internalAddress : String
  externalAddress : String
  enabled : Bool
  deriving DecidableEq, Repr

structure Nat44Config where
  source : List NatRule
  destination : List NatRule
  staticNat : List StaticNatMapping
  deriving DecidableEq, Repr

/-- Desired rule; when `originalRule` differs from `rule` the edit is a
renumber. -/
structure NatRuleUpdate where
  natSection : NatSection
  rule : Nat
  description : Option String
  interface : Option String
  sourceAddress : Option String
  sourceGroup : Option String
  sourcePort : Option String
  destinationAddress : Option String
  destinationPort : Option String
  translationAddress : Option String
  translationPort : Option String
  protocol : Option String
  enabled : Bool
  originalRule : Option Nat
  deriving DecidableEq, Repr

/-! ## Reading -/

def nestedStr (v : Cfg) (parent child : String) : Option String :=
  (childCfg v parent).bind fun p => childStr p child

/-- A group reference below a side, as `<type> <name>`. -/
def groupRef (v : Cfg) (side : String) : Option String :=
  match (childCfg (childNode v side) "group").bind fun g =>
      (objectEntries g).head? with
  | some (type, .value name) =>
      if type ≠ "" then some (type ++ " " ++ name) else none
  | _ => none

/-- An address, or the legacy valueless `masquerade`. -/
def translationOf (v : Cfg) : Option String :=
  (childCfg v "translation").bind fun t =>
    (childStr t "address").or
      (if has t "masquerade" then some "masquerade" else none)

/-- The interface, and whether it is a group. -/
def ifaceOf (v : Cfg) (key : String) : Option String × Bool :=
  match v.child key with
  | some (.value text) => (trimmed text, false)
  | some other =>
      match childStr other "name" with
      | some name => (some name, false)
      | none =>
          match childStr other "group" with
          | some group => (some group, true)
          | none => (none, false)
  | none => (none, false)

def parseRule (side : NatSection) (number : String) (cfg : Cfg) : NatRule :=
  let iface := ifaceOf cfg side.ifaceKey
  { rule := ruleNumber number
    description := childStr cfg "description"
    interface := iface.1
    interfaceGroup := iface.2
    source := nestedStr cfg "source" "address"
    sourceGroup := groupRef cfg "source"
    sourcePort := nestedStr cfg "source" "port"
    destination := nestedStr cfg "destination" "address"
    destinationGroup := groupRef cfg "destination"
    destinationPort := nestedStr cfg "destination" "port"
    translation := translationOf cfg
    translationPort := nestedStr cfg "translation" "port"
    protocol := childStr cfg "protocol"
    enabled := !has cfg "disable" }

/-- `nat <section> rule` -/
def ruleNode (nat : Cfg) (side : NatSection) : Cfg :=
  childNode (childNode nat side.text) "rule"

/-- The rules of a section, sorted by number. -/
def parseRules (nat : Cfg) (side : NatSection) : List NatRule :=
  ((ruleNode nat side).entries.map fun (number, raw) =>
    parseRule side number raw).insertionSort (·.rule ≤ ·.rule)

/-- The mapping that a source rule and the destination rule of its number
are, if their addresses mirror. -/
def staticOf (s d : NatRule) : Option StaticNatMapping :=
  match s.source, s.translation with
  | some internal, some external =>
      if d.destination = some external ∧ d.translation = some internal then
        some
          { rule := s.rule
            description := s.description.or d.description
            interface := if s.interfaceGroup then none else s.interface
            internalAddress := internal
            externalAddress := external
            enabled := s.enabled && d.enabled }
      else none
  | _, _ => none

/-- Lifts the pairs whose addresses mirror; the last destination rule of a
number is the one a source rule is compared with. -/
def splitStatic (source destination : List NatRule) : Nat44Config :=
  let staticNat := source.filterMap fun s =>
    (destination.reverse.find? (·.rule = s.rule)).bind (staticOf s)
  let paired := staticNat.map StaticNatMapping.rule
  { source := source.filter (·.rule ∉ paired)
    destination := destination.filter (·.rule ∉ paired)
    staticNat := staticNat }

/-- The `nat` node of the running configuration. -/
def natConfig (root : Cfg) : Cfg := childNode root "nat"

/-- Source and destination rules plus 1-to-1 mappings. -/
def fetchNat44 (root : Cfg) : Nat44Config :=
  splitStatic (parseRules (natConfig root) .source)
    (parseRules (natConfig root) .destination)

/-- The plain rules of a section. -/
def Nat44Config.rules (config : Nat44Config) : NatSection → List NatRule
  | .source => config.source
  | .destination => config.destination

/-! ## Writing -/

/-- `nat <section> rule <n>` -/
def ruleBase (side : NatSection) (rule : Nat) : Path :=
  ["nat", side.text, "rule", toString rule]

/-- `text.split(" ")` -/
def splitSpaces (text : String) : List String :=
  (text.toList.splitOn ' ').map String.ofList

/-- The type of a group reference. -/
def groupType (reference : String) : Option String :=
  (splitSpaces reference).head?

section Body

variable (live : Option NatRule) (u : NatRuleUpdate)

/-- The edited rule is moved to another number. -/
def NatRuleUpdate.moved (u : NatRuleUpdate) : Bool :=
  u.originalRule.any (· ≠ u.rule)

def dropAddress : List VyosCommand :=
  if live.bind NatRule.source ≠ none ∧ u.sourceAddress.bind trimmed = none then
    [.delete ["source", "address"]]
  else []

/-- A type change would leave the old reference behind, so the node goes. -/
def dropsGroup : Prop :=
  live.bind NatRule.sourceGroup ≠ none ∧
    (u.sourceGroup.bind trimmed = none ∨
      (u.sourceGroup.bind trimmed).bind groupType ≠
        (live.bind NatRule.sourceGroup).bind groupType)

instance : Decidable (dropsGroup live u) :=
  inferInstanceAs (Decidable (_ ∧ (_ ∨ _)))

def dropGroup : List VyosCommand :=
  if dropsGroup live u then [.delete ["source", "group"]] else []

def putAddress : List VyosCommand :=
  match u.sourceAddress.bind trimmed with
  | some address => if some address ≠ live.bind NatRule.source then
      [.set ["source", "address", address]] else []
  | none => []

def putGroup : List VyosCommand :=
  match u.sourceGroup.bind trimmed with
  | some group => if some group ≠ live.bind NatRule.sourceGroup then
      [.set ("source" :: "group" :: splitSpaces group)] else []
  | none => []

/-- A literal address or a firewall group: the departing form goes before the
new one lands. -/
def sourceMatch : List VyosCommand :=
  dropAddress live u ++ dropGroup live u ++ putAddress live u ++ putGroup live u

/-- Written as `<key> name <iface>`; the whole `<key>` node goes first. -/
def interfaceMatch : List VyosCommand :=
  let key := u.natSection.ifaceKey
  let newIface := u.interface.bind trimmed
  let liveIface := live.bind NatRule.interface
  if newIface = liveIface then []
  else
    (if liveIface ≠ none then [.delete [key]] else []) ++
    (match newIface with
    | some iface => [.set [key, "name", iface]]
    | none => [])

/-- What a save pushes for a rule, below its node. -/
def ruleBlocks : List (Block String) :=
  [⟨[["description"]], leaf ["description"] (live.bind NatRule.description)
      u.description⟩,
    ⟨[["source", "address"], ["source", "group"]], sourceMatch live u⟩,
    ⟨[["source", "port"]], leaf ["source", "port"]
      (live.bind NatRule.sourcePort) u.sourcePort⟩,
    ⟨[["destination", "address"]], leaf ["destination", "address"]
      (live.bind NatRule.destination) u.destinationAddress⟩,
    ⟨[["destination", "port"]], leaf ["destination", "port"]
      (live.bind NatRule.destinationPort) u.destinationPort⟩,
    ⟨[["protocol"]], leaf ["protocol"] (live.bind NatRule.protocol)
      u.protocol⟩,
    ⟨[["translation", "address"]], leaf ["translation", "address"]
      (live.bind NatRule.translation) u.translationAddress⟩,
    ⟨[["translation", "port"]], leaf ["translation", "port"]
      (live.bind NatRule.translationPort) u.translationPort⟩,
    ⟨[[u.natSection.ifaceKey]], interfaceMatch live u⟩,
    ⟨[["disable"]], flag ["disable"] (!(live.map NatRule.enabled).getD true)
      !u.enabled⟩]

end Body

/-- A renumber drops the old rule. -/
def dropMoved (u : NatRuleUpdate) : List VyosCommand :=
  match u.originalRule with
  | some original =>
      if original ≠ u.rule then [.delete (ruleBase u.natSection original)] else []
  | none => []

/-- The rule an edit is compared with; after a renumber it is brand new. -/
def liveRule (existing : List NatRule) (u : NatRuleUpdate) : Option NatRule :=
  if u.moved then none else existing.find? (·.rule = u.rule)

/-- The commands that bring a rule as listed to the desired one. -/
def diffNatRule (existing : List NatRule) (u : NatRuleUpdate) :
    List VyosCommand :=
  let live := liveRule existing u
  dropMoved u ++ (created live.isSome (laid (ruleBlocks live u))).map
    (Command.under (ruleBase u.natSection u.rule))

/-- Delete a rule. -/
def deleteNatRule (side : NatSection) (rule : Nat) : List VyosCommand :=
  [.delete (ruleBase side rule)]

/-! ## 1-to-1 mappings -/

structure StaticNatUpdate where
  rule : Nat
  description : Option String
  interface : Option String
  internalAddress : String
  externalAddress : String
  enabled : Bool
  originalRule : Option Nat
  deriving DecidableEq, Repr

/-- The two rules backing a mapping; what a mapping does not have is cleared on
them. -/
def staticPair (u : StaticNatUpdate) : NatRuleUpdate × NatRuleUpdate :=
  let common : NatRuleUpdate :=
    { natSection := .source
      rule := u.rule
      description := u.description
      interface := u.interface
      sourceAddress := none
      sourceGroup := none
      sourcePort := none
      destinationAddress := none
      destinationPort := none
      translationAddress := none
      translationPort := none
      protocol := none
      enabled := u.enabled
      originalRule := u.originalRule }
  ({ common with
      natSection := .source
      sourceAddress := some u.internalAddress
      translationAddress := some u.externalAddress },
    { common with
      natSection := .destination
      destinationAddress := some u.externalAddress
      translationAddress := some u.internalAddress })

/-- One transaction over both halves, from the configuration read afresh. -/
def applyStaticNat (root : Cfg) (u : StaticNatUpdate) : List VyosCommand :=
  let nat := natConfig root
  diffNatRule (parseRules nat .source) (staticPair u).1 ++
    diffNatRule (parseRules nat .destination) (staticPair u).2

def deleteStaticNat (rule : Nat) : List VyosCommand :=
  [.delete (ruleBase .source rule), .delete (ruleBase .destination rule)]

end QuartzFire.Nat44
