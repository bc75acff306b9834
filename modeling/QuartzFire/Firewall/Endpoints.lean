import QuartzFire.Firewall.Placement

/-!
# The sides of a rule

A side of the rule form is a list of entries.  Zones and the firewall itself
pick where the rule lives; the rest becomes the match written on the rule,
backed by an auto-managed group where several entries are to be ORed.
-/

namespace QuartzFire.Firewall

/-- One From/To list entry. -/
inductive EndpointEntry where
  | interface (name : String)
  | zone (name : String)
  | alias (type : AliasType) (name : String)
  | inline (type : AliasType) (value : String)
  | firewall
  | address (text : String)
  | ifgroup (name : String)
  deriving DecidableEq, Repr

/-- The entries a side matches, any of them; empty is Any. -/
abbrev EndpointSelection := List EndpointEntry

namespace EndpointEntry

def isZone : EndpointEntry → Bool
  | .zone _ => true
  | _ => false

def isFirewall : EndpointEntry → Bool
  | .firewall => true
  | _ => false

def zoneName : EndpointEntry → Option String
  | .zone name => some name
  | _ => none

def interfaceName : EndpointEntry → Option String
  | .interface name => some name
  | _ => none

/-- A named group: its type and name. -/
def aliasRef : EndpointEntry → Option (AliasType × String)
  | .alias type name => some (type, name)
  | _ => none

def inlineValue : EndpointEntry → Option (AliasType × String)
  | .inline type value => some (type, value)
  | _ => none

def literalAddress : EndpointEntry → Option String
  | .address text => some text
  | _ => none

def ifgroupName : EndpointEntry → Option String
  | .ifgroup name => some name
  | _ => none

end EndpointEntry

/-! ## Inline values -/

/-- One to three digits without a leading zero, at most 255. -/
def isOctet (part : List Char) : Bool :=
  part ≠ [] && part.length ≤ 3 && part.all Char.isDigit &&
    Nat.ofDigitChars 10 part 0 ≤ 255 && (part = ['0'] || part.head? ≠ some '0')

/-- `IPV4_OCTETS` -/
def isIpv4 (text : List Char) : Bool :=
  let parts := text.splitOn '.'
  parts.length = 4 && parts.all isOctet

/-- An address, a slash and a prefix length of one or two digits. -/
def isIpv4Network (text : List Char) : Bool :=
  match text.splitOn '/' with
  | [address, bits] => isIpv4 address && bits ≠ [] && bits.length ≤ 2 &&
      bits.all Char.isDigit && Nat.ofDigitChars 10 bits 0 ≤ 32
  | _ => false

def isLabelEnd (char : Char) : Bool := char.isAlphanum || char = '_'

def isLabel (label : List Char) : Bool :=
  label.head?.any isLabelEnd && label.getLast?.any isLabelEnd &&
    label.all fun char => isLabelEnd char || char = '-'

/-- Labels and a top level of at least two letters, within 253 characters. -/
def isDomain (text : List Char) : Bool :=
  let labels := text.splitOn '.'
  let top := labels.getLast?.getD []
  text.length ≤ 253 && 2 ≤ labels.length && labels.dropLast.all isLabel &&
    2 ≤ top.length && top.all Char.isAlpha

/-- The error of an inline value, if it is not acceptable for its type. -/
def validateInline (type : AliasType) (value : String) : Option String :=
  let text := (trim value).toList
  if text = [] then some "Enter a value."
  else
    match type with
    | .host =>
        let parts := text.splitOn '-'
        if 2 < parts.length || !parts.all isIpv4 then
          some ("Enter an IPv4 address like 192.168.1.10 (or a range like " ++
            "192.168.1.10-192.168.1.20).")
        else none
    | .network =>
        if isIpv4Network text then none
        else some "Enter an IPv4 network in CIDR form, like 192.168.1.0/24."
    | .fqdn =>
        if isDomain text then none
        else some "Enter a domain name like example.com."
    | .iface =>
        some "Pick interfaces from the list instead of typing them."

/-! ## From the configuration to the form -/

def findAuto (autoGroups : List AutoGroup) (node name : Option String) :
    Option AutoGroup :=
  node.bind fun node => name.bind fun name =>
    autoGroups.find? fun group => group.node = node && group.name = name

/-- The list form of a stored side, auto-managed groups expanded. -/
def endpointToSelection (endpoint : RuleEndpoint)
    (autoGroups : List AutoGroup) : EndpointSelection :=
  let references :=
    match endpoint.groupType, endpoint.groupName with
    | some node, some name =>
        match AliasType.ofNode node with
        | none => []
        | some type =>
            match findAuto autoGroups (some node) (some name) with
            | some auto => auto.includes.map (.alias type) ++
                auto.members.map (.inline type)
            | none => [.alias type name]
    | _, _ => []
  let interfaces := endpoint.iface.toList.map .interface
  let groups :=
    match endpoint.ifaceGroup with
    | none => []
    | some name =>
        match findAuto autoGroups (some "interface-group") (some name) with
        | some auto => auto.interfaces.map .interface
        | none => [.alias .iface name]
  references ++ interfaces ++ groups ++ endpoint.address.toList.map .address

/-- Which side of the form. -/
inductive FormSide where
  | from
  | to
  deriving DecidableEq, Repr

def FirewallRule.side (rule : FirewallRule) : FormSide → RuleEndpoint
  | .from => rule.fromSide
  | .to => rule.toSide

def ZonePair.side (pair : ZonePair) : FormSide → String
  | .from => pair.src
  | .to => pair.dst

def FirewallConfig.isLocalZone (cfg : FirewallConfig) (name : String) : Bool :=
  ((cfg.zones.find? fun zone => zone.name = name).map
    FirewallZone.isLocal).getD false

/-- The zones of a rule's scopes on one side, each once. -/
def sideNames (rule : FirewallRule) (side : FormSide) (pairs : List ZonePair) :
    List String :=
  distinct (rule.scopes.filterMap fun scope =>
    (pairForChain pairs scope.chain).map fun pair => pair.side side)

/-- A rule side as the form shows it: where the rule lives is an entry too. -/
def ruleSelection (rule : FirewallRule) (side : FormSide)
    (autoGroups : List AutoGroup) (cfg : FirewallConfig) : EndpointSelection :=
  let selection := endpointToSelection (rule.side side) autoGroups
  if side = .to ∧ rule.chain = .base .input ∨
      side = .from ∧ rule.chain = .base .output then
    .firewall :: selection
  else
    (sideNames rule side cfg.zonePairs).map (fun name =>
      if cfg.isLocalZone name then .firewall else .zone name) ++ selection

/-! ## From the form to where the rule lives -/

def localZone (zones : List FirewallZone) : Option FirewallZone :=
  zones.find? FirewallZone.isLocal

/-- The zones a side resolves to. -/
def sideZones (selection : EndpointSelection) (zones : List FirewallZone) :
    List String :=
  let named := selection.filterMap EndpointEntry.zoneName
  if named ≠ [] then distinct named
  else if selection.any EndpointEntry.isFirewall then
    (localZone zones).toList.map FirewallZone.name
  else []

/-- The zone pairs a rule with these sides spans. -/
def zonePairsFor (source target : EndpointSelection)
    (zones : List FirewallZone) : Except String (List ZonePair) :=
  if !source.any EndpointEntry.isZone && !target.any EndpointEntry.isZone then
    .ok []
  else
    let srcs := sideZones source zones
    let dsts := sideZones target zones
    if srcs = [] ∨ dsts = [] then
      let emptySide := if srcs = [] then source else target
      if emptySide.any EndpointEntry.isFirewall then
        .error ("Set a Firewall zone on the Zones page first — a zone rule " ++
          "to or from the firewall needs one.")
      else
        .error ("Pick a zone for " ++ (if srcs = [] then "From" else "To") ++
          " too. A zone rule always goes from one zone to another.")
    else
      let both := srcs.filter fun src => src ∈ dsts
      if both ≠ [] then
        .error (", ".intercalate both ++ " is on both sides of this rule. " ++
          "Traffic inside a zone is controlled by its intra-zone filtering, " ++
          "on the Zones page.")
      else
        .ok (srcs.flatMap fun src => dsts.map fun dst =>
          ⟨src, dst, pairRuleset src dst⟩)

/-- Every scope a rule with these sides occupies. -/
def ruleChainsFor (locale : Locale) (source target : EndpointSelection)
    (zones : List FirewallZone) : Except String (List RuleChain) := do
  let fromFirewall := source.any EndpointEntry.isFirewall
  let toFirewall := target.any EndpointEntry.isFirewall
  if fromFirewall && toFirewall then
    throw "Only one side of a rule can be the Firewall itself."
  let pairs ← zonePairsFor source target zones
  if pairs ≠ [] then
    return locale.sortBy RuleChain.text (pairs.map fun pair =>
      .name pair.ruleset)
  else
    return [.base (if toFirewall then .input
      else if fromFirewall then .output else .forward)]

/-- The representative scope; there always is one. -/
def ruleChainFor (locale : Locale) (source target : EndpointSelection)
    (zones : List FirewallZone) : Except String RuleChain := do
  let chains ← ruleChainsFor locale source target zones
  return chains.headD (.base .forward)

/-! ## From the form to the match -/

/-- The names tried in turn for a fresh auto group. -/
def autoNames (rule : Nat) (side : Side) : Nat → String
  | 0 => "QZ-R" ++ toString rule ++ "-" ++
      (match side with
        | .source => "FROM"
        | .destination => "TO")
  | more + 1 => autoNames rule side 0 ++ "-" ++ toString (more + 2)

/-- The first of the names that is not taken, and the names taken then. -/
def allocAutoName (rule : Nat) (side : Side) (taken : List String) :
    String × List String :=
  let name := (((List.range (taken.length + 1)).map (autoNames rule side)).find?
    (· ∉ taken)).getD (autoNames rule side 0)
  (name, name :: taken)

def groupPath (node name : String) : Path := ["firewall", "group", node, name]

/-- Add the members that are missing, and drop those no longer wanted. -/
def diffLeaf (path : Path) (live desired : List String) : List VyosCommand :=
  (desired.filter (· ∉ live)).map (fun member => .set (path ++ [member])) ++
    (live.filter (· ∉ desired)).map fun member => .delete (path ++ [member])

/-- The mark of a group that is created. -/
def markGroup (node name : String) (live : Option AutoGroup) :
    List VyosCommand :=
  if live = none then
    [.set (groupPath node name ++ ["description", autoMark])]
  else []

def diffAutoMembers (node name leaf : String) (live : Option AutoGroup)
    (liveMembers desired : List String) : List VyosCommand :=
  markGroup node name live ++
    diffLeaf (groupPath node name ++ [leaf]) liveMembers desired

def diffAliasAutoGroup (node name : String) (live : Option AutoGroup)
    (includes members : List String) : List VyosCommand :=
  let liveIncludes := (live.map AutoGroup.includes).getD []
  let liveMembers := (live.map AutoGroup.members).getD []
  markGroup node name live ++
    diffLeaf (groupPath node name ++ ["include"]) liveIncludes includes ++
    diffLeaf (groupPath node name ++ [(autoMemberLeaf node).getD "undefined"])
      liveMembers members

/-- The match a rule side resolves to, as written on the rule itself. -/
structure EndpointDesired where
  node : Option String
  name : Option String
  addr : Option String
  iface : Option String
  ifGroup : Option String
  deriving DecidableEq, Repr

/-- What planning a side gives: the commands of the groups backing it, the
match to write, and the group names in use then. -/
structure EndpointPlan where
  commands : List VyosCommand
  desired : EndpointDesired
  taken : List String

/-- The address family of a side: one type, and an FQDN alias stands alone. -/
def planFamily (aliases inlines : List (AliasType × String)) :
    Except String (Option AliasType) := do
  let types := distinct (aliases.map Prod.fst ++ inlines.map Prod.fst)
  if 1 < types.length then
    throw ("From/To entries must all be of the same type (host, network, or " ++
      "FQDN).")
  if types.head? = some .fqdn && 0 < aliases.length &&
      1 < aliases.length + inlines.length then
    throw ("An FQDN alias stands alone — VyOS domain groups don't support " ++
      "includes.")
  match inlines.findSome? fun (type, value) => validateInline type value with
  | some error => throw error
  | none => return types.head?

/-- The address match: one alias is referenced directly, anything else through
an auto group. -/
def planReference (rule : Nat) (side : Side) (liveAuto : Option AutoGroup)
    (family : Option AliasType) (aliases inlines : List String)
    (taken : List String) :
    List VyosCommand × Option (String × String) × List String :=
  let stale := fun kept : Option String => liveAuto.toList.filterMap fun auto =>
    if some auto.name = kept then none
    else some (.delete (groupPath auto.node auto.name))
  match family with
  | none => (stale none, none, taken)
  | some type =>
      match aliases, inlines with
      | [name], [] => (stale (some name), some (type.node, name), taken)
      | _, _ =>
          let reuse := liveAuto.filter fun auto => auto.node = type.node
          let (name, taken) := match reuse with
            | some auto => (auto.name, taken)
            | none => allocAutoName rule side taken
          (diffAliasAutoGroup type.node name reuse aliases
              (inlines.map trim) ++ stale (some name),
            some (type.node, name), taken)

/-- The interface match: an interface alias or a group stands alone, several
interfaces go through an auto group. -/
def planInterfaces (rule : Nat) (side : Side) (liveAuto : Option AutoGroup)
    (named : List String) (interfaces : List String) (taken : List String) :
    Except String (List VyosCommand × Option String × Option String ×
      List String) := do
  let stale := fun kept : Option String => liveAuto.toList.filterMap fun auto =>
    if some auto.name = kept then none
    else some (.delete (groupPath "interface-group" auto.name))
  match named, interfaces with
  | [name], [] => return (stale (some name), none, some name, taken)
  | _ :: _, _ =>
      throw ("An interface alias stands alone on its side — add interfaces " ++
        "to the alias itself, or list individual interfaces instead.")
  | [], [] => return (stale none, none, none, taken)
  | [], [iface] => return (stale none, some iface, none, taken)
  | [], several =>
      let (name, taken) := match liveAuto with
        | some auto => (auto.name, taken)
        | none => allocAutoName rule side taken
      return (diffAutoMembers "interface-group" name "interface" liveAuto
          ((liveAuto.map AutoGroup.interfaces).getD []) several ++
          stale (some name),
        none, some name, taken)

/-- Resolve a side's selection into the match it writes. -/
def planEndpoint (rule : Nat) (side : Side) (live : Option RuleEndpoint)
    (selection : EndpointSelection) (autoGroups : List AutoGroup)
    (taken : List String) : Except String EndpointPlan := do
  let named := selection.filterMap EndpointEntry.aliasRef
  let ifaceAliases := (named.filter fun entry => entry.1 = .iface).map Prod.snd
  let aliases := named.filter fun entry => entry.1 ≠ .iface
  let inlines := selection.filterMap EndpointEntry.inlineValue
  let family ← planFamily aliases inlines
  let liveAuto := findAuto autoGroups (live.bind RuleEndpoint.groupType)
    (live.bind RuleEndpoint.groupName)
  let (groups, reference, taken) := planReference rule side liveAuto family
    (aliases.map Prod.snd) (inlines.map Prod.snd) taken
  let addr := (selection.findSome? EndpointEntry.literalAddress).bind trimmed
  let interfaces := (selection.filterMap EndpointEntry.interfaceName).filterMap
    trimmed
  let liveIfAuto := findAuto autoGroups (some "interface-group")
    (live.bind RuleEndpoint.ifaceGroup)
  let (ifGroups, iface, ifGroup, taken) ← planInterfaces rule side liveIfAuto
    (ifaceAliases ++ selection.filterMap EndpointEntry.ifgroupName) interfaces
    taken
  return {
    commands := groups ++ ifGroups
    desired :=
      { node := reference.map Prod.fst
        name := reference.map Prod.snd
        addr := addr
        iface := iface
        ifGroup := ifGroup }
    taken := taken }

/-- Write a side's match into one scope's rule, given that scope's match. -/
def endpointWrites (base : Path) (side : Side) (live : Option RuleEndpoint)
    (desired : EndpointDesired) : List VyosCommand :=
  let liveType := live.bind RuleEndpoint.groupType
  let liveName := live.bind RuleEndpoint.groupName
  let refChanged := liveType ≠ desired.node || liveName ≠ desired.name
  let reference :=
    (match liveType with
      | some type => if refChanged then
          [Command.delete (base ++ [side.text, "group", type])] else []
      | none => []) ++
    (match desired.node, desired.name with
      | some node, some name => if refChanged && name ≠ "" then
          [Command.set (base ++ [side.text, "group", node, name])] else []
      | _, _ => [])
  let liveAddr := live.bind RuleEndpoint.address
  let address := if desired.addr = liveAddr then [] else
    match desired.addr with
    | some addr => [Command.set (base ++ [side.text, "address", addr])]
    | none => [Command.delete (base ++ [side.text, "address"])]
  let liveIface := live.bind RuleEndpoint.iface
  let liveIfGroup := live.bind RuleEndpoint.ifaceGroup
  let key := side.ifaceNode
  let interfaces :=
    if desired.iface = liveIface && desired.ifGroup = liveIfGroup then [] else
      (if liveIface = none && liveIfGroup = none then []
        else [Command.delete (base ++ [key])]) ++
      (match desired.iface, desired.ifGroup with
        | some iface, _ => [Command.set (base ++ [key, "name", iface])]
        | none, some group => [Command.set (base ++ [key, "group", group])]
        | none, none => [])
  reference ++ address ++ interfaces

end QuartzFire.Firewall
