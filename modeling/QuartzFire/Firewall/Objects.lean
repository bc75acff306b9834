import QuartzFire.Firewall.DiffRule

/-!
# The commands of alias, policy and zone changes

Aliases, policies and zones are diffed against their live copies; a change of
the name deletes the old object and builds a new one.  Traffic that no rule of
the forward chain matches is dropped or accepted by its default action, which
may not be set to drop while there are zones.
-/

namespace QuartzFire.Firewall

def encodeAliasDescription (name display : String)
    (description : Option String) : Option String :=
  let mark := if trim display = name then []
    else ["[dn:" ++ trim display ++ "]"]
  let parts := mark ++ (description.bind trimmed).toList
  if parts = [] then none else some (" ".intercalate parts)

/-! ## Leaves -/

def Command.isSet : VyosCommand → Bool
  | .set _ => true
  | .delete _ => false

/-- Write a leaf of one value where it differs. -/
def leafDiff (path : Path) (live desired : Option String) : List VyosCommand :=
  if desired = live then []
  else
    match desired with
    | some text => [.set (path ++ [text])]
    | none => [.delete path]

/-- The same for a leaf without a value. -/
def flagDiff (path : Path) (live desired : Bool) : List VyosCommand :=
  if desired = live then []
  else if desired then [.set path]
  else [.delete path]

/-- `members.map((m) => m.trim()).filter(Boolean)` -/
def trimmedMembers (members : List String) : List String :=
  members.filterMap trimmed

/-- A new object with nothing else set still needs its node. -/
def orNode (base : Path) (isNew : Bool) (body : List VyosCommand) :
    List VyosCommand :=
  if isNew && !body.any Command.isSet then [.set base] else body

/-! ## Aliases -/

/-- The desired alias, and which one is being edited. -/
structure AliasUpdate where
  name : String
  display : String
  type : AliasType
  description : Option String
  members : List String
  original : Option (AliasType × String)
  deriving DecidableEq, Repr

/-- A change of the name or the type rebuilds the group. -/
def AliasUpdate.moved (update : AliasUpdate) : Option (AliasType × String) :=
  update.original.filter fun original =>
    original ≠ (update.type, update.name)

def AliasUpdate.live (update : AliasUpdate) (existing : List FirewallAlias) :
    Option FirewallAlias :=
  if update.moved.isSome then none
  else existing.find? fun known =>
    known.name = update.name && known.type = update.type

def diffAlias (existing : List FirewallAlias) (update : AliasUpdate) :
    List VyosCommand :=
  let live := update.live existing
  let base := groupPath update.type.node update.name
  (update.moved.toList.map fun (type, name) =>
      .delete (groupPath type.node name)) ++
    orNode base live.isNone
      (leafDiff (base ++ ["description"])
          (live.bind fun live =>
            encodeAliasDescription live.name live.display live.description)
          (encodeAliasDescription update.name update.display
            update.description) ++
        diffLeaf (base ++ [update.type.memberLeaf])
          ((live.map FirewallAlias.members).getD [])
          (trimmedMembers update.members))

def deleteAlias (existing : FirewallAlias) : List VyosCommand :=
  [.delete (groupPath existing.type.node existing.name)]

/-! ## Policies -/

/-- The desired policy, and which one is being edited. -/
structure PolicyUpdate where
  name : String
  protocol : PolicyProtocol
  ports : List String
  description : Option String
  originalName : Option String
  deriving DecidableEq, Repr

def FirewallPolicy.policyBase (name : String) : Path :=
  groupPath "port-group" name

/-- A change of the protocol is written on the rules with the policy, in their
representative scope. -/
def protocolSync (rules : List FirewallRule) (update : PolicyUpdate) :
    List VyosCommand :=
  (rules.filter fun rule => rule.policy = some update.name).map fun rule =>
    .set (ruleBase rule.chain rule.rule ++
      ["protocol", update.protocol.text])

def diffPolicy (existing : List FirewallPolicy) (rules : List FirewallRule)
    (update : PolicyUpdate) : List VyosCommand :=
  let moved := update.originalName.filter (· ≠ update.name)
  let live := if moved.isSome then none
    else existing.find? fun known => known.name = update.name
  let base := FirewallPolicy.policyBase update.name
  (moved.toList.map fun name => .delete (FirewallPolicy.policyBase name)) ++
    leafDiff (base ++ ["description"])
      (live.map fun live =>
        encodePolicyDescription live.protocol live.description)
      (some (encodePolicyDescription update.protocol update.description)) ++
    diffLeaf (base ++ ["port"]) ((live.map FirewallPolicy.ports).getD [])
      (trimmedMembers update.ports) ++
    if live.any fun live => live.protocol ≠ update.protocol then
      protocolSync rules update
    else []

def deletePolicy (name : String) : List VyosCommand :=
  [.delete (FirewallPolicy.policyBase name)]

/-! ## Zones -/

def ZoneDefaultAction.text : ZoneDefaultAction → String
  | .drop => "drop"
  | .reject => "reject"

def zoneBase (name : String) : Path := ["firewall", "zone", name]

/-- The desired zone, and which one is being edited. -/
structure ZoneUpdate where
  name : String
  display : String
  description : Option String
  isLocal : Bool
  interfaces : List String
  defaultAction : Option ZoneDefaultAction
  defaultLog : Bool
  intraZone : Option RuleAction
  originalName : Option String
  deriving DecidableEq, Repr

/-- The zone an interface belongs to already. -/
def interfaceZone (zones : List FirewallZone) (iface : String)
    (exclude : Option String) : Option FirewallZone :=
  zones.find? fun zone =>
    some zone.name ≠ exclude && zone.interfaces.contains iface

/-- `/^[a-zA-Z0-9][\w\-.]*$/` -/
def isZoneName (name : String) : Bool :=
  match name.toList with
  | [] => false
  | first :: rest => first.isAlphanum && rest.all fun char =>
      char.isAlphanum || char = '_' || char = '-' || char = '.'

theorem not_isSpace_of_zoneName {char : Char}
    (allowed : (char.isAlphanum || char = '_' || char = '-' || char = '.') =
      true) : isSpace char = false := by
  have unfolded : char.isAlphanum =
      (decide (char.val ≥ 'A'.val ∧ char.val ≤ 'Z'.val) ||
        (char.val ≥ 'a'.val && char.val ≤ 'z'.val) ||
        (char.val ≥ '0'.val && char.val ≤ '9'.val)) := rfl
  have range : 45 ≤ char.val.toNat ∧ char.val.toNat ≤ 122 := by
    simp only [unfolded, Bool.or_eq_true, Bool.and_eq_true, decide_eq_true_eq,
      ge_iff_le, UInt32.le_iff_toNat_le] at allowed
    rcases allowed with (((((⟨l, u⟩ | ⟨l, u⟩) | ⟨l, u⟩) | rfl) | rfl) | rfl)
    all_goals first | (simp at l u ⊢; omega) | decide
  obtain ⟨least, most⟩ := range
  simp only [isSpace, List.mem_cons, List.not_mem_nil, or_false,
    ← UInt32.toNat_inj, UInt32.le_iff_toNat_le, Bool.or_eq_false_iff,
    Bool.and_eq_false_iff, decide_eq_false_iff_not]
  simp at least most ⊢
  omega

/-- The name of a ruleset is read back as it is written. -/
theorem trimmed_pairRuleset (src : String) {dst : String}
    (named : isZoneName dst = true) :
    trimmed (pairRuleset src dst) = some (pairRuleset src dst) := by
  obtain ⟨before, last, ends, allowed⟩ : ∃ before last,
      dst.toList = before ++ [last] ∧ isSpace last = false := by
    rw [isZoneName] at named
    split at named
    · cases named
    · rename_i first rest same
      rw [Bool.and_eq_true, List.all_eq_true] at named
      obtain ⟨before, last, split⟩ := List.eq_nil_or_concat' (first :: rest)
        |>.resolve_left (by simp)
      refine ⟨before, last, same.trans split, not_isSpace_of_zoneName ?_⟩
      have member : last ∈ first :: rest := by simp [split]
      rcases List.mem_cons.mp member with rfl | inRest
      · simp [named.1]
      · exact named.2 last inRest
  have chars : (pairRuleset src dst).toList =
      'Q' :: ("Z-Z-".toList ++ src.toList ++ "-TO-".toList ++ before) ++
        [last] := by
    simp [pairRuleset, ends]
  have kept : trim (pairRuleset src dst) = pairRuleset src dst := by
    refine trim_of_ends ?_ ?_
    · rw [chars]
      rintro char ⟨⟩
      decide
    · rw [chars, List.getLast?_concat]
      rintro char ⟨⟩
      exact allowed
  rw [trimmed, kept, if_neg]
  intro empty
  rw [empty] at chars
  cases chars

/-- Why the desired zone is not acceptable, if it is not. -/
def validateZone (zones : List FirewallZone) (update : ZoneUpdate) :
    Option String :=
  if trim update.name = "" then some "Enter a zone name."
  else if !isZoneName update.name then
    some ("A zone name must start with a letter or digit, and use only " ++
      "letters, digits, hyphens, dots, or underscores.")
  else if update.isLocal then
    if update.interfaces ≠ [] then
      some "The Firewall zone can't have member interfaces."
    else if update.intraZone ≠ none then
      some "The Firewall zone can't use intra-zone filtering."
    else
      (zones.find? fun zone =>
        zone.isLocal && some zone.name ≠ update.originalName).map fun other =>
        "There's already a Firewall zone (" ++ other.display ++
          "). Only one is allowed."
  else if update.interfaces = [] then
    some "Add at least one interface, or make this the Firewall zone."
  else
    update.interfaces.findSome? fun iface =>
      (interfaceZone zones iface update.originalName).map fun owner =>
        iface ++ " is already a member of " ++ owner.display ++
          ". An interface can only belong to one zone."

/-- The leaves of a zone, diffed against the live ones. -/
def zoneWrites (live : Option FirewallZone) (update : ZoneUpdate) :
    List VyosCommand :=
  let base := zoneBase update.name
  leafDiff (base ++ ["description"])
      (live.bind fun live =>
        encodeAliasDescription live.name live.display live.description)
      (encodeAliasDescription update.name update.display
        update.description) ++
    flagDiff (base ++ ["local-zone"]) (live.any FirewallZone.isLocal)
      update.isLocal ++
    diffLeaf (base ++ ["member", "interface"])
      ((live.map FirewallZone.interfaces).getD [])
      (trimmedMembers update.interfaces) ++
    leafDiff (base ++ ["default-action"])
      ((live.bind FirewallZone.defaultAction).map ZoneDefaultAction.text)
      (update.defaultAction.map ZoneDefaultAction.text) ++
    flagDiff (base ++ ["default-log"]) (live.any FirewallZone.defaultLog)
      update.defaultLog ++
    if update.intraZone = live.bind FirewallZone.intraZone then []
    else
      match update.intraZone with
      | some action =>
          [.set (base ++ ["intra-zone-filtering", "action", action.text])]
      | none => [.delete (base ++ ["intra-zone-filtering"])]

/-- A change of the name rebuilds the zone. -/
def ZoneUpdate.moved (update : ZoneUpdate) : Option String :=
  update.originalName.filter (· ≠ update.name)

def diffZone (cfg : FirewallConfig) (update : ZoneUpdate) :
    Except String (List VyosCommand) := do
  if let some reason := validateZone cfg.zones update then
    throw reason
  let live := if update.moved.isSome then none
    else cfg.zones.find? fun zone => zone.name = update.name
  let out := (update.moved.toList.map fun name => .delete (zoneBase name)) ++
    orNode (zoneBase update.name) live.isNone (zoneWrites live update)
  -- The first zone brings the global state match with it.
  return out ++ if out = [] then [] else ensureStatePolicy cfg

/-- The rules of the pairs a zone takes part in, by their representative
scope. -/
def zoneUsage (cfg : FirewallConfig) (zone : FirewallZone) :
    List FirewallRule :=
  let rulesets := (cfg.zonePairs.filter fun pair =>
    pair.src = zone.name || pair.dst = zone.name).map ZonePair.ruleset
  cfg.rules.filter fun rule => rule.chain.rulesetName.any (· ∈ rulesets)

/-- A zone goes with its pairs and the rulesets backing them. -/
def deleteZone (cfg : FirewallConfig) (zone : FirewallZone) :
    List VyosCommand :=
  (cfg.zonePairs.flatMap fun pair =>
    if pair.src ≠ zone.name ∧ pair.dst ≠ zone.name then []
    else
      (if pair.dst = zone.name then []
        else [.delete (zoneBase pair.dst ++ ["from", pair.src])]) ++
        [.delete ["firewall", "ipv4", "name", pair.ruleset]]) ++
    [.delete (zoneBase zone.name)]

/-! ## The default action -/

/-- What happens to forwarded traffic that no rule matches. -/
inductive DefaultAction where
  | accept
  | drop
  deriving DecidableEq, Repr

def DefaultAction.text : DefaultAction → String
  | .accept => "accept"
  | .drop => "drop"

/-- Traffic dropped in the forward chain never reaches the zone chains. -/
def defaultDropBlockedReason (cfg : FirewallConfig) : Option String :=
  if cfg.zones = [] then none
  else some ("Zones are configured. Deny by default is set per zone on the " ++
    "Zones page — denying here would block all zone traffic before any zone " ++
    "rule is consulted.")

def setDefaultAction (cfg : FirewallConfig) (action : DefaultAction) :
    Except String (List VyosCommand) := do
  if action = .drop then
    if let some blocked := defaultDropBlockedReason cfg then
      throw blocked
  return (if action = .drop then ensureForwardBaseline cfg else []) ++
    [.set (filterBase (.base .forward) ++ ["default-action", action.text])]

/-- The default action is set unless zones stand in the way of drop. -/
theorem setDefaultAction_eq_ok {cfg : FirewallConfig} {action : DefaultAction}
    {commands : List VyosCommand} :
    setDefaultAction cfg action = .ok commands ↔
      (action = .drop → cfg.zones = []) ∧
      commands =
        (if action = .drop then ensureForwardBaseline cfg else []) ++
        [.set (filterBase (.base .forward) ++
          ["default-action", action.text])] := by
  cases action with
  | accept =>
      simp [setDefaultAction, pure, Except.pure, eq_comm]
  | drop =>
      by_cases none : cfg.zones = []
      · simp [setDefaultAction, defaultDropBlockedReason, none, pure,
          Except.pure, eq_comm]
      · simp [setDefaultAction, defaultDropBlockedReason, none, throw,
          throwThe, MonadExceptOf.throw]

/-! ## Traffic logging -/

/-- `ALL_CHAINS` -/
def allBaseChains : List BaseChain := [.forward, .input, .output]

/-- Replies are accepted first, so that each connection logs once. -/
def enableTrafficLoggingCommands (cfg : FirewallConfig) : List VyosCommand :=
  ensureForwardBaseline cfg ++ ensureChainSetup .input cfg ++
    ensureChainSetup .output cfg ++
    (allBaseChains.flatMap fun chain =>
      if (cfg.setup chain).defaultLog then []
      else [.set (filterBase (.base chain) ++ ["default-log"])]) ++
    (cfg.rules.filter fun rule => !rule.log).map fun rule =>
      .set (ruleBase rule.chain rule.rule ++ ["log"])

end QuartzFire.Firewall
