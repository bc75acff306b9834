import QuartzFire.Firewall.DiffRule
import QuartzFire.Firewall.Services

/-!
# Saving a rule with its services

The rule form saves a rule together with its SSL inspection, geolocation and
Application Control attachments.  The first two ride the commit of the rule,
the bindings of the third are put in place of the old ones afterwards.
-/

namespace QuartzFire.Firewall

/-- `MAX_BOUND_AC_ACTIONS` -/
def maxBoundAcActions : Nat := 7

structure GeoChoice where
  action : String
  direction : GeoDirection
  deriving DecidableEq, Repr

/-- The attachments selected for a rule, `none` where a service is off. -/
structure RuleServiceState where
  ssl : Option SslPolicyAction
  geo : Option GeoChoice
  appcontrol : Option String
  deriving DecidableEq, Repr

/-- The live service configurations. -/
structure RuleServiceConfigs where
  ssl : List SslPolicy
  geo : List GeoPolicy
  ac : List AcBinding

/-! ## The match of a binding -/

/-- One to three digits. -/
def isAcOctet (part : List Char) : Bool :=
  part ≠ [] && part.length ≤ 3 && part.all Char.isDigit

/-- `AC_ADDR`: an IPv4 address, with a prefix length of one or two digits. -/
def isAcAddr (text : String) : Bool :=
  let isAddress := fun chars : List Char =>
    let parts := chars.splitOn '.'
    parts.length = 4 && parts.all isAcOctet
  match text.toList.splitOn '/' with
  | [address] => isAddress address
  | [address, bits] => isAddress address && bits ≠ [] && bits.length ≤ 2 &&
      bits.all Char.isDigit
  | _ => false

def rejectAc {Result : Type} (side why : String) : Except String Result :=
  .error ("Application Control can't be attached to this rule: " ++ side ++
    " " ++ why ++ ".")

/-- The interfaces and the addresses an entry stands for. -/
def entryMatch (cfg : FirewallConfig) (side : String) :
    EndpointEntry → Except String (List String × List String)
  | .interface name => .ok ([name], [])
  | .zone name =>
      match cfg.zones.find? fun zone => zone.name = name with
      | none => rejectAc side ("references zone " ++ name ++
          ", which no longer exists")
      | some zone =>
          if zone.isLocal then
            rejectAc side ("is the firewall itself, which Application " ++
              "Control doesn't classify")
          else .ok (zone.interfaces, [])
  | .alias type name =>
      match cfg.aliases.find? fun known =>
        known.type = type && known.name = name with
      | none => rejectAc side ("references alias " ++ name ++
          ", which no longer exists")
      | some known =>
          if type = .fqdn then
            rejectAc side ("uses the FQDN alias " ++ name ++
              ", and qfappd matches addresses, not names")
          else if known.members = [] then
            rejectAc side ("uses alias " ++ name ++ ", which has no members")
          else if type = .iface then .ok (known.members, [])
          else .ok ([], known.members)
  | .inline type value =>
      if type = .fqdn then
        rejectAc side ("includes the domain " ++ value ++
          ", and qfappd matches addresses, not names")
      else .ok ([], [value])
  | .address text => .ok ([], [text])
  | .ifgroup name => rejectAc side ("uses interface group " ++ name ++
      ", which this editor can't resolve")
  | .firewall => rejectAc side ("is the firewall itself, which Application " ++
      "Control doesn't classify")

/-- What one side of a rule contributes; what cannot be expressed is refused,
as leaving it out would widen the match. -/
def sideMatch (selection : EndpointSelection) (cfg : FirewallConfig)
    (side : String) : Except String (List String × List String) := do
  let parts ← selection.mapM (entryMatch cfg side)
  let ifaces := parts.flatMap Prod.fst
  let addrs := parts.flatMap Prod.snd
  match addrs.find? fun addr => !isAcAddr addr with
  | some addr => rejectAc side ("includes " ++ addr ++
      ", which isn't an IPv4 address or network")
  | none =>
      match ifaces.find? fun iface => 15 < iface.length with
      | some iface => rejectAc side ("includes interface " ++ iface ++
          ", whose name is too long")
      | none => return (distinct ifaces, distinct addrs)

def acMatchFromSelections (source target : EndpointSelection)
    (cfg : FirewallConfig) : Except String AcMatch := do
  let (iifname, saddr) ← sideMatch source cfg "From"
  let (oifname, daddr) ← sideMatch target cfg "To"
  return { iifname, oifname, saddr, daddr }

/-! ## SSL inspection -/

def sslPolicyBase (rule : Nat) : Path := sslBase ++ [toString rule]

/-- The commands that make a policy of the desired one. -/
def sslPolicyWrites (prev : Option SslPolicy) (policy : SslPolicy) :
    List VyosCommand :=
  let base := sslPolicyBase policy.rule
  match prev with
  | none =>
      [.set (base ++ ["action", policy.action.text]),
        .set (base ++ ["ruleset", policy.ruleset])] ++
      if policy.enabled then [] else [.set (base ++ ["disable"])]
  | some prev =>
      (if policy.action = prev.action then []
        else [.set (base ++ ["action", policy.action.text])]) ++
      (if policy.ruleset = prev.ruleset then []
        else [.set (base ++ ["ruleset", policy.ruleset])]) ++
      if policy.enabled = prev.enabled then []
      else if policy.enabled then [.delete (base ++ ["disable"])]
      else [.set (base ++ ["disable"])]

/-- Set what is desired, then delete what is not. -/
def policyDiff (live desired : List SslPolicy) : List VyosCommand :=
  let liveByRule := mapOf (live.map fun policy => (policy.rule, policy))
  (desired.flatMap fun policy =>
    sslPolicyWrites (liveByRule policy.rule) policy) ++
  (live.filter fun policy => policy.rule ∉ desired.map SslPolicy.rule).map
    fun policy => .delete (sslPolicyBase policy.rule)

/-- The policies wanted, with those of the dropped numbers gone. -/
def sslDesired (live : List SslPolicy) (removeRules : List Nat)
    (add : Option (Nat × SslPolicyAction)) : List SslPolicy :=
  let drop := removeRules ++ add.toList.map Prod.fst
  let added : List SslPolicy := add.toList.map fun (rule, action) =>
    { rule, ruleset := "forward", action, enabled := true }
  ((live.filter fun policy => policy.rule ∉ drop) ++ added).insertionSort
    fun left right => left.rule ≤ right.rule

/-- Of the service's configuration, only the policies differ. -/
def sslCommands (live : List SslPolicy) (removeRules : List Nat)
    (add : Option (Nat × SslPolicyAction)) : List VyosCommand :=
  policyDiff live (sslDesired live removeRules add)

/-! ## Geolocation -/

/-- The desired policy, and the id of the one being edited. -/
structure GeoPolicyUpdate where
  id : Nat
  action : String
  ruleset : RuleChain
  rule : Nat
  direction : GeoDirection
  enabled : Bool
  originalId : Option Nat

def diffGeoPolicy (existing : List GeoPolicy) (update : GeoPolicyUpdate) :
    List VyosCommand :=
  let movedFrom := update.originalId.filter fun id => id ≠ update.id
  let live := if movedFrom.isSome then none
    else existing.find? fun policy => policy.id = update.id
  let leaf := fun (sub : String) (liveText : Option String) (text : String) =>
    if some text = liveText then []
    else [Command.set (policyBase update.id ++ [sub, text])]
  movedFrom.toList.map (fun id => .delete (policyBase id)) ++
    leaf "action" (live.map GeoPolicy.action) update.action ++
    leaf "ruleset" (live.map fun live => live.ruleset.text)
      update.ruleset.text ++
    leaf "rule" (live.map fun live => toString live.rule)
      (toString update.rule) ++
    leaf "direction" (live.map fun live => live.direction.text)
      update.direction.text ++
    if update.enabled = (live.map GeoPolicy.enabled).getD true then []
    else if update.enabled then
      [.delete (policyBase update.id ++ ["disable"])]
    else [.set (policyBase update.id ++ ["disable"])]

/-- The policies of a rule; for a zone rule those of pairs it no longer spans
as well. -/
def policiesForRule (policies : List GeoPolicy) (rule : Nat)
    (chains : List RuleChain) : List GeoPolicy :=
  let isZoneRule := chains.any fun chain => !chain.isBaseChain
  policies.filter fun policy => policy.rule = rule &&
    (policy.ruleset ∈ chains || isZoneRule && !policy.ruleset.isBaseChain)

/-- One policy for each scope; fresh ids count up from those taken. -/
def attachScopes (live existing : List GeoPolicy) (rule : Nat)
    (choice : GeoChoice) : List RuleChain → List Nat → List VyosCommand
  | [], _ => []
  | chain :: chains, taken =>
      let prev := existing.find? fun policy => policy.ruleset = chain
      let fresh := taken.foldl max 0 + 10
      diffGeoPolicy live
          { id := (prev.map GeoPolicy.id).getD fresh
            action := choice.action
            ruleset := chain
            rule := rule
            direction := choice.direction
            enabled := true
            originalId := prev.map GeoPolicy.id } ++
        attachScopes live existing rule choice chains
          (if prev.isSome then taken else taken ++ [fresh])

def diffGeoPoliciesForRule (live : List GeoPolicy) (rule : Nat)
    (chains : List RuleChain) (choice : Option GeoChoice) :
    List VyosCommand :=
  let existing := policiesForRule live rule chains
  match choice with
  | none => existing.map fun policy => .delete (policyBase policy.id)
  | some choice =>
      attachScopes live existing rule choice chains (live.map GeoPolicy.id) ++
        (existing.filter fun policy => policy.ruleset ∉ chains).map
          fun policy => .delete (policyBase policy.id)

def geoCommands (live : List GeoPolicy) (removeRules : List Nat) (rule : Nat)
    (chains : List RuleChain) (choice : Option GeoChoice) :
    List VyosCommand :=
  let stale := removeRules.filter fun number => number ≠ rule
  (live.filter fun policy => policy.rule ∈ stale).map
      (fun policy => .delete (policyBase policy.id)) ++
    diffGeoPoliciesForRule live rule chains choice

/-! ## Application Control -/

/-- The next bindings, and whether they differ from the live ones. -/
def nextAcConfig (live : List AcBinding) (removeRules : List Nat) (rule : Nat)
    (description : String) (matched : AcMatch) (action : Option String) :
    Except String (List AcBinding × Bool) := do
  let byId := fun left right : AcBinding => left.id ≤ right.id
  let others := live.filter fun binding =>
    binding.id ∉ removeRules && binding.id ≠ rule
  if action.isSome && maxBoundAcActions <
      (distinct (others.map AcBinding.action ++ action.toList)).length then
    throw ("At most " ++ toString maxBoundAcActions ++ " Application Control " ++
      "actions can be active at once. Reuse an action already in use.")
  let added : List AcBinding := action.toList.map fun action =>
    { id := rule, action, description, matched }
  let next := (others ++ added).insertionSort byId
  return (next, live.insertionSort byId ≠ next)

/-! ## Saving -/

/-- The scope a rule lands in; what the save will refuse counts as forward. -/
def effectiveChain (locale : Locale) (update : RuleUpdate)
    (cfg : FirewallConfig) : RuleChain :=
  match ruleChainFor locale update.source update.target cfg.zones with
  | .ok chain => chain
  | .error _ => .base .forward

/-- The number the attachments are written at. -/
def serviceRule (locale : Locale) (live : Option FirewallRule)
    (update : RuleUpdate) (cfg : FirewallConfig) : Nat :=
  let chain := effectiveChain locale update cfg
  if live.any fun live => live.chain ≠ chain then nextRuleNumber cfg.rules
  else update.rule

/-- The commands of the commit and the bindings saved after it. -/
def applyRuleAndServices (locale : Locale) (live : Option FirewallRule)
    (update : RuleUpdate) (cfg : FirewallConfig) (cfgs : RuleServiceConfigs)
    (desired : RuleServiceState) :
    Except String (List VyosCommand × List AcBinding) := do
  let chain := effectiveChain locale update cfg
  let rule := serviceRule locale live update cfg
  let removeRules := (live.map FirewallRule.rule).toList.filter (· ≠ rule)
  let sslAdd := if chain = .base .forward then
    desired.ssl.map fun action => (rule, action) else none
  let scopes ← ruleChainsFor locale update.source update.target cfg.zones
  let acAction := if chain.routed then desired.appcontrol else none
  let acMatch ← if acAction.isSome then
      acMatchFromSelections update.source update.target cfg
    else .ok ⟨[], [], [], []⟩
  let (next, changed) ← nextAcConfig cfgs.ac removeRules rule
    (update.name.getD ("rule " ++ toString rule)) acMatch acAction
  let commands ← diffRule locale live update cfg
  return (commands ++ sslCommands cfgs.ssl (rule :: removeRules) sslAdd ++
      geoCommands cfgs.geo removeRules rule scopes desired.geo,
    if changed then next else cfgs.ac)

end QuartzFire.Firewall
