import QuartzFire.Firewall.Model
import QuartzFire.Foundation.Text

/-!
# Reading the running configuration

`fetchFirewall` parses the `firewall` node of the running configuration.  A
zone rule is stored once per zone pair, all copies under one number; the copies
are collapsed into one rule on the way in.
-/

namespace QuartzFire.Firewall

/-! ## Strings -/

/-- White space as `trim` and `\s` know it. -/
def isSpace (char : Char) : Bool :=
  char.val ∈ [9, 10, 11, 12, 13, 32, 0xA0, 0x1680, 0x2028, 0x2029, 0x202F,
    0x205F, 0x3000, 0xFEFF] || (0x2000 ≤ char.val && char.val ≤ 0x200A)

def trim (text : String) : String :=
  String.ofList
    ((text.toList.dropWhile isSpace).reverse.dropWhile isSpace).reverse

def startsWith (text start : String) : Bool :=
  start.toList.isPrefixOf text.toList

/-- `text.trim() || null` -/
def trimmed (text : String) : Option String :=
  if trim text = "" then none else some (trim text)

/-- `Number(num) || 0` on the decimal rule numbers of the configuration. -/
def ruleNumber (key : String) : Nat :=
  if key.toList.all Char.isDigit then Nat.ofDigitChars 10 key.toList 0 else 0

theorem ruleNumber_toString (number : Nat) :
    ruleNumber (toString number) = number := by
  rw [ruleNumber, toList_toString, if_pos (all_isDigit_digits number),
    Nat.ofDigitChars_ten_toDigits]

theorem not_isSpace_of_isDigit {char : Char} (digit : char.isDigit = true) :
    isSpace char = false := by
  simp only [Char.isDigit, Bool.and_eq_true, decide_eq_true_eq] at digit
  obtain ⟨least, most⟩ := digit
  rw [ge_iff_le, UInt32.le_iff_toNat_le] at least
  rw [UInt32.le_iff_toNat_le] at most
  simp only [isSpace, List.mem_cons, List.not_mem_nil, or_false,
    ← UInt32.toNat_inj, UInt32.le_iff_toNat_le, Bool.or_eq_false_iff,
    Bool.and_eq_false_iff, decide_eq_false_iff_not]
  simp at least most ⊢
  omega

/-- Text that starts and ends without white space is trimmed already. -/
theorem trim_of_ends {text : String}
    (start : ∀ char ∈ text.toList.head?, isSpace char = false)
    (finish : ∀ char ∈ text.toList.getLast?, isSpace char = false) :
    trim text = text := by
  have kept : ∀ chars : List Char,
      (∀ char ∈ chars.head?, isSpace char = false) →
      chars.dropWhile isSpace = chars := by
    intro chars first
    cases chars with
    | nil => rfl
    | cons char chars =>
        rw [List.dropWhile_cons_of_neg]
        simpa using first char rfl
  rw [trim, kept _ start, kept _ (by simpa using finish), List.reverse_reverse,
    String.ofList_toList]

theorem isSpace_head_dropWhile (chars : List Char) :
    ∀ char ∈ (chars.dropWhile isSpace).head?, isSpace char = false := by
  intro char first
  cases kept : chars.dropWhile isSpace with
  | nil => simp [kept] at first
  | cons head rest =>
      have stops := List.head_dropWhile_not isSpace (l := chars) (by simp [kept])
      rw [kept, List.head?_cons, Option.mem_some] at first
      simpa [kept, first] using stops

theorem trim_trim (text : String) : trim (trim text) = trim text := by
  apply trim_of_ends
  · intro char first
    rw [trim, String.toList_ofList, List.head?_reverse] at first
    -- Dropping from the right keeps the first character.
    have front := isSpace_head_dropWhile text.toList
    generalize text.toList.dropWhile isSpace = chars at front first
    cases chars with
    | nil => simp at first
    | cons head rest =>
        have start : isSpace head = false := front head rfl
        have suffix : ((head :: rest).reverse.dropWhile isSpace).getLast? =
            some head := by
          rw [List.reverse_cons, List.dropWhile_append]
          split
          · simp [start]
          · simp
        rw [suffix, Option.mem_some] at first
        exact first ▸ start
  · intro char last
    rw [trim, String.toList_ofList, List.getLast?_reverse] at last
    exact isSpace_head_dropWhile _ char last

theorem trimmed_trimmed {text kept : String} (trims : trimmed text = some kept) :
    trimmed kept = some kept := by
  rw [trimmed, Option.ite_none_left_eq_some, Option.some.injEq] at trims
  obtain ⟨proper, rfl⟩ := trims
  rw [trimmed, trim_trim, if_neg proper]

theorem trimmed_toString (number : Nat) :
    trimmed (toString number) = some (toString number) := by
  have spaceless : ∀ char ∈ (toString number).toList,
      isSpace char = false := by
    intro char member
    rw [toList_toString] at member
    exact not_isSpace_of_isDigit (isDigit_of_mem_digits member)
  have same : trim (toString number) = toString number :=
    trim_of_ends (fun char member => spaceless char
      (List.mem_of_mem_head? member)) (fun char member => spaceless char
      (List.mem_of_mem_getLast? member))
  rw [trimmed, same, if_neg]
  intro empty
  have digits := toList_toString number
  rw [empty] at digits
  exact Nat.toDigits_ne_nil digits.symm

@[simp] theorem trimmed_empty : trimmed "" = none := by
  decide

/-! ## Subtrees -/

def childStr (cfg : Cfg) (key : String) : Option String :=
  match cfg.child key with
  | some (.value text) => trimmed text
  | _ => none

def childCfg (cfg : Cfg) (key : String) : Option Cfg :=
  match cfg.child key with
  | some (.node entries) => some (.node entries)
  | _ => none

/-- `childCfg(cfg, key) ?? {}` -/
def childNode (cfg : Cfg) (key : String) : Cfg :=
  (childCfg cfg key).getD (.node [])

def childList (cfg : Cfg) (key : String) : List String :=
  match cfg.child key with
  | some (.value text) => [text]
  | some (.values texts) => texts
  | _ => []

def has (cfg : Cfg) (key : String) : Bool := (cfg.child key).isSome

/-! ## Markers in descriptions -/

/-- `PROTO_MARK`: the marked protocol, and what follows the marker. -/
def protoMark (description : String) : Option (PolicyProtocol × String) :=
  [PolicyProtocol.tcp, .udp, .tcpUdp].findSome? fun protocol =>
    let mark := "[" ++ protocol.text ++ "]"
    if startsWith description mark then
      some (protocol, String.ofList (description.toList.drop mark.length))
    else none

def decodePolicyDescription (description : Option String) :
    PolicyProtocol × Option String :=
  match description with
  | none => (.tcpUdp, none)
  | some text =>
      match protoMark text with
      | none => (.tcpUdp, some text)
      | some (protocol, rest) => (protocol, trimmed rest)

def encodePolicyDescription (protocol : PolicyProtocol)
    (description : Option String) : String :=
  match description.bind trimmed with
  | none => "[" ++ protocol.text ++ "]"
  | some text => "[" ++ protocol.text ++ "] " ++ text

/-- `DN_MARK`: the display name, and what follows the marker. -/
def displayMark (description : String) : Option (String × String) :=
  if startsWith description "[dn:" then
    let body := description.toList.drop 4
    match body.span (· ≠ ']') with
    | ([], _) => none
    | (_, []) => none
    | (display, _ :: rest) => some (String.ofList display, String.ofList rest)
  else none

def decodeAliasDescription (name : String) (description : Option String) :
    String × Option String :=
  match description with
  | none => (name, none)
  | some text =>
      match displayMark text with
      | none => (name, some text)
      | some (display, rest) => (display, trimmed rest)

/-! ## Groups -/

def parseAliases (locale : Locale) (group : Cfg) : List FirewallAlias :=
  locale.sortBy FirewallAlias.display <| AliasType.all.flatMap fun type =>
    (childNode group type.node).entries.filterMap fun (name, cfg) =>
      let rawDesc := childStr cfg "description"
      if rawDesc.any (startsWith · autoMark) then none
      else
        let (display, description) := decodeAliasDescription name rawDesc
        some
          { name := name
            display := display
            type := type
            description := description
            members := childList cfg type.memberLeaf }

/-- `AUTO_MEMBER_LEAF` -/
def autoMemberLeaf (node : String) : Option String :=
  if node = "address-group" then some "address"
  else if node = "network-group" then some "network"
  else if node = "domain-group" then some "address"
  else none

def parseAutoGroups (group : Cfg) : List AutoGroup :=
  AliasType.all.flatMap fun type =>
    (childNode group type.node).entries.filterMap fun (name, cfg) =>
      if (childStr cfg "description").any (startsWith · autoMark) then
        some
          { name := name
            node := type.node
            includes := childList cfg "include"
            interfaces := childList cfg "interface"
            members := ((autoMemberLeaf type.node).map (childList cfg)).getD [] }
      else none

def parseGroupNames (group : Cfg) : List String :=
  group.entries.flatMap fun (_, groups) => groups.entries.map Prod.fst

def parsePolicies (locale : Locale) (group : Cfg) : List FirewallPolicy :=
  locale.sortBy FirewallPolicy.name <|
    (childNode group "port-group").entries.map fun (name, cfg) =>
      let (protocol, description) :=
        decodePolicyDescription (childStr cfg "description")
      { name := name
        protocol := protocol
        ports := childList cfg "port"
        description := description }

/-! ## Zones -/

def asZoneDefault (text : Option String) : Option ZoneDefaultAction :=
  if text = some "drop" then some .drop
  else if text = some "reject" then some .reject
  else none

def asAction (text : Option String) : Option RuleAction :=
  if text = some "accept" then some .accept
  else if text = some "drop" then some .drop
  else if text = some "reject" then some .reject
  else none

def parseZones (locale : Locale) (fw : Cfg) : List FirewallZone :=
  locale.sortBy FirewallZone.display <|
    (childNode fw "zone").entries.map fun (name, cfg) =>
      let (display, description) :=
        decodeAliasDescription name (childStr cfg "description")
      { name := name
        display := display
        description := description
        isLocal := has cfg "local-zone"
        interfaces := childList (childNode cfg "member") "interface"
        defaultAction := asZoneDefault (childStr cfg "default-action")
        defaultLog := has cfg "default-log"
        intraZone := asAction
          (childStr (childNode cfg "intra-zone-filtering") "action") }

/-- Every zone-pair binding in the config. -/
def parseZonePairs (fw : Cfg) : List ZonePair :=
  (childNode fw "zone").entries.flatMap fun (dst, cfg) =>
    (childNode cfg "from").entries.filterMap fun (src, binding) =>
      (childStr (childNode binding "firewall") "name").map fun ruleset =>
        ⟨src, dst, ruleset⟩

/-- The pair a rule's scope belongs to. -/
def pairForChain (pairs : List ZonePair) (chain : RuleChain) :
    Option ZonePair :=
  chain.rulesetName.bind fun ruleset =>
    pairs.find? fun pair => pair.ruleset = ruleset

def parseStatePolicy (fw : Cfg) : Bool :=
  let policy := childNode (childNode fw "global-options") "state-policy"
  let action := fun state => childStr (childNode policy state) "action"
  action "established" = some "accept" && action "related" = some "accept"

/-! ## Rules -/

inductive Side where
  | source
  | destination
  deriving DecidableEq, Repr

def Side.text : Side → String
  | .source => "source"
  | .destination => "destination"

/-- `IFACE_NODE` -/
def Side.ifaceNode : Side → String
  | .source => "inbound-interface"
  | .destination => "outbound-interface"

/-- `REF_NODES` -/
def refNodes : List String := ["address-group", "network-group", "domain-group"]

def parseEndpoint (cfg : Cfg) (side : Side) : RuleEndpoint :=
  let s := childNode cfg side.text
  let g := childNode s "group"
  let (iface, ifaceGroup) :=
    match cfg.child side.ifaceNode with
    | some (.value text) => (trimmed text, none)
    | some node => (childStr node "name", childStr node "group")
    | none => (none, none)
  let reference := refNodes.findSome? fun node =>
    (childStr g node).map fun name => (node, name)
  match reference with
  | some (node, name) =>
      { groupType := some node
        groupName := some name
        address := none
        iface := iface
        ifaceGroup := ifaceGroup }
  | none =>
      { groupType := none
        groupName := none
        address := childStr s "address"
        iface := iface
        ifaceGroup := ifaceGroup }

/-- A hidden baseline rule, by its description. -/
def isSystem (cfg : Cfg) : Bool :=
  (childStr cfg "description").any (startsWith · sysMark)

def parseRule (chain : RuleChain) (number : String) (cfg : Cfg) :
    FirewallRule :=
  let rawAction := childStr cfg "action"
  { rule := ruleNumber number
    chain := chain
    scopes := [⟨chain, cfg⟩]
    name := childStr cfg "description"
    action := if rawAction = some "queue" then some .accept
      else asAction rawAction
    ips := rawAction = some "queue"
    fromSide := parseEndpoint cfg .source
    toSide := parseEndpoint cfg .destination
    policy := childStr (childNode (childNode cfg "destination") "group")
      "port-group"
    protocol := childStr cfg "protocol"
    enabled := !has cfg "disable"
    log := has cfg "log"
    raw := cfg }

/-- The user rules of a chain. -/
def chainRules (filter : Cfg) (chain : RuleChain) : List FirewallRule :=
  (childNode filter "rule").entries.filterMap fun (number, cfg) =>
    if isSystem cfg then none else some (parseRule chain number cfg)

def chainSetup (filter : Cfg) : ChainSetup :=
  let rules := childNode filter "rule"
  { baseline := rules.entries.any (fun (_, cfg) => isSystem cfg) ||
      has rules "1" || has rules "2"
    ipsFlow := rules.entries.any fun (_, cfg) => isSystem cfg &&
      has cfg "connection-mark" && childStr cfg "action" = some "queue"
    defaultAction := childStr filter "default-action"
    defaultLog := has filter "default-log" }

def parseChain (filter : Cfg) (chain : RuleChain) :
    List FirewallRule × ChainSetup :=
  (chainRules filter chain, chainSetup filter)

/-- One rule for the copies of a zone rule: the first gives the body. -/
def mergeCopies : List FirewallRule → List FirewallRule
  | [] => []
  | head :: rest => [{ head with
      scopes := (head :: rest).map fun copy => ⟨copy.chain, copy.raw⟩ }]

/-- Collapse the per-pair copies of a zone rule, which share its number, into
one rule; they are ordered by chain name. -/
def groupZoneRules (locale : Locale) (rules : List FirewallRule) :
    List FirewallRule :=
  (distinct (rules.map FirewallRule.rule)).flatMap fun number =>
    mergeCopies (locale.sortBy (fun copy => copy.chain.text)
      (rules.filter fun rule => rule.rule = number))

/-- The display order: by number, then by chain. -/
def FirewallRule.precedes (left right : FirewallRule) : Prop :=
  left.rule < right.rule ∨
    left.rule = right.rule ∧ left.chain.chainRank ≤ right.chain.chainRank

instance : DecidableRel FirewallRule.precedes := by
  unfold FirewallRule.precedes
  infer_instance

/-- The config node holding a scope's rules. -/
def chainFilter (ipv4 : Cfg) : RuleChain → Cfg
  | .base chain => childNode (childNode ipv4 chain.text) "filter"
  | .name ruleset => childNode (childNode ipv4 "name") ruleset

def fetchFirewallConfig (root : Cfg) : Cfg := childNode root "firewall"

def fetchFirewall (locale : Locale) (root : Cfg) : FirewallConfig :=
  let fw := fetchFirewallConfig root
  let group := childNode fw "group"
  let ipv4 := childNode fw "ipv4"
  let base := fun chain => parseChain (chainFilter ipv4 (.base chain))
    (.base chain)
  let pairs := parseZonePairs fw
  let zoneRules := groupZoneRules locale <|
    (distinct (pairs.map ZonePair.ruleset)).flatMap fun ruleset =>
      (parseChain (chainFilter ipv4 (.name ruleset)) (.name ruleset)).1
  { aliases := parseAliases locale group
    policies := parsePolicies locale group
    rules := ((base .forward).1 ++ (base .input).1 ++ (base .output).1 ++
      zoneRules).insertionSort FirewallRule.precedes
    autoGroups := parseAutoGroups group
    groupNames := parseGroupNames group
    defaultAction := (base .forward).2.defaultAction
    setup := fun chain => (base chain).2
    zones := parseZones locale fw
    zonePairs := pairs
    statePolicy := parseStatePolicy fw }

end QuartzFire.Firewall
