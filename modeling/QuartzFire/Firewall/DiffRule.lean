import QuartzFire.Firewall.Endpoints

/-!
# The commands of a rule change

Saving the rule form diffs the rule against its live copy.  A rule that moves
between base chains, or between a base chain and zone pairs, is rebuilt at a
fresh number; a zone rule that spans other pairs keeps its number.  Every copy
is written alike, diffed against the representative one.
-/

namespace QuartzFire.Firewall

/-- A rule's traffic match: a policy, or the built-in Ping. -/
inductive RulePolicyChoice where
  | policy (name : String) (protocol : PolicyProtocol)
  | ping
  deriving DecidableEq, Repr

/-- The desired rule. -/
structure RuleUpdate where
  rule : Nat
  name : Option String
  action : RuleAction
  source : EndpointSelection
  target : EndpointSelection
  policy : Option RulePolicyChoice
  enabled : Bool
  log : Bool
  ips : Bool

/-- Appended after the last rule of any scope. -/
def nextRuleNumber (rules : List FirewallRule) : Nat :=
  rules.foldl (fun most rule => max most rule.rule) 0 + 10

/-! ## Seeds -/

/-- Zones filter reply traffic correctly only with the global state match. -/
def ensureStatePolicy (cfg : FirewallConfig) : List VyosCommand :=
  if cfg.statePolicy then []
  else
    let base := ["firewall", "global-options", "state-policy"]
    [.set (base ++ ["established", "action", "accept"]),
      .set (base ++ ["related", "action", "accept"])]

/-- Bind a zone pair on first use of its ruleset. -/
def ensureZonePair (cfg : FirewallConfig) (pair : ZonePair) :
    List VyosCommand :=
  if cfg.zonePairs.any fun bound => bound.ruleset = pair.ruleset then []
  else
    [.set ["firewall", "ipv4", "name", pair.ruleset, "description",
        autoMark ++ " " ++ pair.src ++ " to " ++ pair.dst],
      .set ["firewall", "zone", pair.dst, "from", pair.src, "firewall", "name",
        pair.ruleset]]

/-- The hidden accept of replies, at a rule path. -/
def repliesRule (base : Path) : List VyosCommand :=
  [.set (base ++ ["action", "accept"]),
    .set (base ++ ["state", "established"]),
    .set (base ++ ["state", "related"]),
    .set (base ++ ["description", sysMark ++
      " allow established/related replies"])]

/-- Seed safety defaults into a chain the first time a rule lands there. -/
def ensureChainSetup (chain : BaseChain) (cfg : FirewallConfig) :
    List VyosCommand :=
  let setup := cfg.setup chain
  let base := filterBase (.base chain)
  let loopback := base ++ ["rule", "2"]
  let ifaceNode := if chain = .input then Side.source.ifaceNode
    else Side.destination.ifaceNode
  (if setup.baseline then []
    else repliesRule (base ++ ["rule", "1"]) ++
      [.set (loopback ++ ["action", "accept"]),
        .set (loopback ++ [ifaceNode, "name", "lo"]),
        .set (loopback ++ ["description", sysMark ++
          " allow loopback (WebUI/API)"])]) ++
    (if setup.defaultAction = none then
      [.set (base ++ ["default-action", "accept"])] else [])

/-- Commands writing the hidden IPS flow rule at rule 1 of a chain. -/
def ipsFlowRuleCommands (base : Path) : List VyosCommand :=
  let rule := base ++ ["rule", "1"]
  [.set (rule ++ ["action", "queue"]), .set (rule ++ ["queue", "0"]),
    .set (rule ++ ["queue-options", "bypass"]),
    .set (rule ++ ["connection-mark", ipsConnmark]),
    .set (rule ++ ["description", sysMark ++
      " IPS: inspect flows selected by IPS rules"])]

def ensureForwardBaseline (cfg : FirewallConfig) : List VyosCommand :=
  if (cfg.setup .forward).baseline then []
  else
    let base := filterBase (.base .forward)
    ipsFlowRuleCommands base ++ repliesRule (base ++ ["rule", "2"])

/-- Make sure the forward chain inspects whole flows, unless the batch so far
already does. -/
def ensureIpsFlowBaseline (out : List VyosCommand) (cfg : FirewallConfig) :
    List VyosCommand :=
  let setup := cfg.setup .forward
  if setup.ipsFlow then []
  else if out.any fun command => command.path.getLast?.any fun last =>
      startsWith last (sysMark ++ " IPS:") then []
  else if !setup.baseline then ensureForwardBaseline cfg
  else if cfg.rules.any fun rule => rule.chain = .base .forward &&
      (rule.rule = 1 || rule.rule = 2) then []
  else
    let base := filterBase (.base .forward)
    [.delete (base ++ ["rule", "1"])] ++ ipsFlowRuleCommands base ++
      repliesRule (base ++ ["rule", "2"])

/-! ## Removal -/

/-- Tear down a zone pair whose last rule is going away. -/
def emptyPairCleanup (cfg : FirewallConfig) (chain : RuleChain)
    (vacating : List Nat) : List VyosCommand :=
  match pairForChain cfg.zonePairs chain with
  | none => []
  | some pair =>
      if cfg.rules.any fun rule => rule.rule ∉ vacating &&
          rule.scopes.any fun scope => scope.chain = chain then []
      else [.delete ["firewall", "zone", pair.dst, "from", pair.src],
        .delete ["firewall", "ipv4", "name", pair.ruleset]]

/-- Deletes for the auto-managed groups backing a rule's sides. -/
def autoGroupDeletes (rule : FirewallRule) (autoGroups : List AutoGroup) :
    List VyosCommand :=
  [rule.fromSide, rule.toSide].flatMap fun side =>
    let reference := match side.groupType, side.groupName with
      | some type, some name => [(type, name)]
      | _, _ => []
    let ifaceReference := match side.ifaceGroup with
      | some name => [("interface-group", name)]
      | none => []
    (reference ++ ifaceReference).filterMap fun (type, name) =>
      if autoGroups.any fun group => group.node = type && group.name = name then
        some (.delete ["firewall", "group", type, name])
      else none

def deleteRule (rule : FirewallRule) (autoGroups : List AutoGroup)
    (extraCommands : List VyosCommand) (cfg : Option FirewallConfig) :
    List VyosCommand :=
  let deletes := rule.scopes.flatMap fun scope =>
    .delete (ruleBase scope.chain rule.rule) ::
      (cfg.map fun cfg =>
        emptyPairCleanup cfg scope.chain [rule.rule]).getD []
  deletes ++ autoGroupDeletes rule autoGroups ++ extraCommands

/-! ## Saving a rule -/

/-- Where a saved rule lives, and whether it is rebuilt there. -/
structure RulePlacement where
  pairs : List ZonePair
  chains : List RuleChain
  moved : Bool
  rule : Nat

/-- The representative scope. -/
def RulePlacement.chain (place : RulePlacement) : RuleChain :=
  place.chains.headD (.base .forward)

def FirewallRule.isZone (rule : FirewallRule) : Bool := !rule.chain.isBaseChain

/-- Where `diffRule` puts a rule. -/
def placeRule (locale : Locale) (live : Option FirewallRule)
    (update : RuleUpdate) (cfg : FirewallConfig) :
    Except String RulePlacement := do
  let pairs ← zonePairsFor update.source update.target cfg.zones
  let chains ← ruleChainsFor locale update.source update.target cfg.zones
  let chain := chains.headD (.base .forward)
  let wantZone : Bool := pairs ≠ []
  let moved := live.any fun live => live.isZone ≠ wantZone ||
    (!live.isZone && !wantZone && live.chain ≠ chain)
  return {
    pairs := pairs
    chains := chains
    moved := moved
    rule := if moved then nextRuleNumber cfg.rules else update.rule }

/-- Drop every copy of a rule that is rebuilt elsewhere. -/
def vacateRule (live : FirewallRule) (cfg : FirewallConfig) :
    List VyosCommand :=
  (live.scopes.flatMap fun scope =>
    .delete (ruleBase scope.chain live.rule) ::
      emptyPairCleanup cfg scope.chain [live.rule]) ++
    autoGroupDeletes live cfg.autoGroups

/-- Write a leaf in every scope whose live value differs. -/
def leafWrites (chains : List RuleChain) (rule : Nat) (leaf : Path)
    (live : RuleChain → Option String) (desired : Option String) :
    List VyosCommand :=
  chains.flatMap fun chain =>
    if desired = live chain then []
    else
      match desired with
      | some text => [.set (ruleBase chain rule ++ leaf ++ [text])]
      | none => [.delete (ruleBase chain rule ++ leaf)]

/-- The same for a leaf without a value. -/
def flagWrites (chains : List RuleChain) (rule : Nat) (leaf : String)
    (live : RuleChain → Bool) (desired : Bool) : List VyosCommand :=
  chains.flatMap fun chain =>
    if desired = live chain then []
    else if desired then [.set (ruleBase chain rule ++ [leaf])]
    else [.delete (ruleBase chain rule ++ [leaf])]

/-- What an IPS rule carries besides its action. -/
def ipsMarks (base : Path) : List VyosCommand :=
  [.set (base ++ ["queue", "0"]), .set (base ++ ["queue-options", "bypass"]),
    .set (base ++ ["set", "connection-mark", ipsConnmark])]

def ipsUnmarks (base : Path) : List VyosCommand :=
  [.delete (base ++ ["queue"]), .delete (base ++ ["queue-options"]),
    .delete (base ++ ["set", "connection-mark"])]

/-- The action as stored: an IPS rule queues. -/
def wireAction (rule : FirewallRule) : Option String :=
  rule.action.map fun action => if rule.ips then "queue" else action.text

/-- First use of a built-in policy seeds its port group. -/
def seedPolicy (cfg : FirewallConfig) (name : String) : List VyosCommand :=
  if cfg.policies.any fun policy => policy.name = name then []
  else
    match builtinPolicy name with
    | none => []
    | some (protocol, ports) =>
        let base := ["firewall", "group", "port-group", name]
        .set (base ++ ["description",
            encodePolicyDescription protocol (some "Built-in")]) ::
          ports.map fun port => .set (base ++ ["port", port])

def RulePolicyChoice.policyName : RulePolicyChoice → Option String
  | .policy name _ => some name
  | .ping => none

def RulePolicyChoice.protocolText : RulePolicyChoice → String
  | .policy _ protocol => protocol.text
  | .ping => "icmp"

/-- What a scope is diffed against: the live rule where it occupies the scope,
nothing where it is landing. -/
def bodyAt (live : Option FirewallRule) (chain : RuleChain) :
    Option FirewallRule :=
  live.filter fun live => chain ∈ live.scopes.map RuleScope.chain

/-- Scopes given up and taken: copies dropped, pairs bound, chains seeded. -/
def diffScopes (liveIn : Option FirewallRule) (place : RulePlacement)
    (cfg : FirewallConfig) : List VyosCommand :=
  let vacated := if place.moved then
    (liveIn.map fun live => vacateRule live cfg).getD [] else []
  let live := if place.moved then none else liveIn
  let liveChains := (live.map fun live => live.scopes.map RuleScope.chain).getD []
  let dropped := liveChains.flatMap fun chain =>
    if chain ∈ place.chains then []
    else .delete (ruleBase chain place.rule) ::
      emptyPairCleanup cfg chain [place.rule]
  let seeds := if place.pairs ≠ [] then
      ensureStatePolicy cfg ++ place.pairs.flatMap (ensureZonePair cfg)
    else
      match place.chain with
      | .base .forward | .name _ => []
      | .base chain => ensureChainSetup chain cfg
  vacated ++ dropped ++ seeds

/-- Whether the update asks for inspection, which Allow rules alone can. -/
def RuleUpdate.wantIps (update : RuleUpdate) : Bool :=
  update.ips && update.action = .accept

def diffAction (live : Option FirewallRule) (place : RulePlacement)
    (update : RuleUpdate) : List VyosCommand :=
  leafWrites place.chains place.rule ["action"]
      (fun chain => (bodyAt live chain).bind wireAction)
      (some (if update.wantIps then "queue" else update.action.text)) ++
    place.chains.flatMap fun chain =>
      let liveIps := (bodyAt live chain).any FirewallRule.ips
      if update.wantIps && !liveIps then ipsMarks (ruleBase chain place.rule)
      else if !update.wantIps && liveIps then
        ipsUnmarks (ruleBase chain place.rule)
      else []

/-- The match of both sides, in every scope. -/
def diffSides (live : Option FirewallRule) (place : RulePlacement)
    (source target : EndpointDesired) : List VyosCommand :=
  place.chains.flatMap fun chain =>
    endpointWrites (ruleBase chain place.rule) .source
        ((bodyAt live chain).map FirewallRule.fromSide) source ++
      endpointWrites (ruleBase chain place.rule) .destination
        ((bodyAt live chain).map FirewallRule.toSide) target

/-- Policy = destination port group and matching protocol. -/
def diffPolicyMatch (live : Option FirewallRule) (place : RulePlacement)
    (update : RuleUpdate) (cfg : FirewallConfig) : List VyosCommand :=
  let newPolicy := update.policy.bind RulePolicyChoice.policyName
  (newPolicy.map (seedPolicy cfg)).getD [] ++
    leafWrites place.chains place.rule ["destination", "group", "port-group"]
      (fun chain => (bodyAt live chain).bind FirewallRule.policy) newPolicy ++
    leafWrites place.chains place.rule ["protocol"]
      (fun chain => (bodyAt live chain).bind FirewallRule.protocol)
      (update.policy.map RulePolicyChoice.protocolText)

/-- Whether the rule is enabled and logs. -/
def diffFlags (live : Option FirewallRule) (place : RulePlacement)
    (update : RuleUpdate) (cfg : FirewallConfig) : List VyosCommand :=
  flagWrites place.chains place.rule "disable"
      (fun chain => !((bodyAt live chain).map FirewallRule.enabled).getD true)
      (!update.enabled) ++
    flagWrites place.chains place.rule "log"
      (fun chain => (bodyAt live chain).any FirewallRule.log) update.log ++
    if update.log && place.chain = .base .forward then
      ensureForwardBaseline cfg else []

def diffRule (locale : Locale) (liveIn : Option FirewallRule)
    (update : RuleUpdate) (cfg : FirewallConfig) :
    Except String (List VyosCommand) := do
  let place ← placeRule locale liveIn update cfg
  let live := if place.moved then none else liveIn
  let opening := diffScopes liveIn place cfg ++ diffAction live place update
  let flow := if update.wantIps && !live.any FirewallRule.ips then
    ensureIpsFlowBaseline opening cfg else []
  let names := leafWrites place.chains place.rule ["description"]
    (fun chain => (bodyAt live chain).bind FirewallRule.name)
    (update.name.bind trimmed)
  -- Groups are shared by every copy, so they are planned once.
  let source ← planEndpoint place.rule .source (live.map FirewallRule.fromSide)
    update.source cfg.autoGroups cfg.groupNames
  let target ← planEndpoint place.rule .destination
    (live.map FirewallRule.toSide) update.target cfg.autoGroups source.taken
  return opening ++ flow ++ names ++ source.commands ++ target.commands ++
    diffSides live place source.desired target.desired ++
    diffPolicyMatch live place update cfg ++ diffFlags live place update cfg

/-- Toggle IPS inspection on an existing Allow rule, in every copy. -/
def ipsRuleCommands (rule : FirewallRule) (enabled : Bool)
    (cfg : FirewallConfig) : List VyosCommand :=
  if rule.action ≠ some .accept || rule.ips = enabled then []
  else
    let out := rule.scopes.flatMap fun scope =>
      let base := ruleBase scope.chain rule.rule
      if enabled then .set (base ++ ["action", "queue"]) :: ipsMarks base
      else .set (base ++ ["action", "accept"]) :: ipsUnmarks base
    out ++ if enabled then ensureIpsFlowBaseline out cfg else []

end QuartzFire.Firewall
