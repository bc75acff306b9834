import QuartzFire.Editing.Rows

/-!
# Prefix lists and route maps

The filters that routing protocols refer to.  A list is edited as a whole: its
rules are matched with those that are there by their sequence numbers alone.
-/

namespace QuartzFire.Routing

open ConfigTree Editing
open Firewall (Cfg Path VyosCommand trimmed childStr has)

inductive PrefixFamily where
  | ipv4
  | ipv6
  deriving DecidableEq, Repr

inductive PolicyAction where
  | permit
  | deny
  deriving DecidableEq, Repr

def PolicyAction.text : PolicyAction → String
  | .permit => "permit"
  | .deny => "deny"

structure PrefixRule (Num : Type) where
  seq : Nat
  action : PolicyAction
  prefixText : String
  /-- Match netmask length >= ge. -/
  ge : Option Num
  /-- Match netmask length <= le. -/
  le : Option Num
  description : Option String
  deriving DecidableEq, Repr

structure PrefixList (Num : Type) where
  name : String
  family : PrefixFamily
  rules : List (PrefixRule Num)
  deriving DecidableEq, Repr

structure RouteMapMatch (Num : Type) where
  ip_prefix_list : Option String
  ipv6_prefix_list : Option String
  as_path : Option String
  community_list : Option String
  interface : Option String
  metric : Option Num
  origin : Option String
  peer : Option String
  deriving DecidableEq, Repr

structure RouteMapSet (Num : Type) where
  as_path_prepend : Option String
  community : Option String
  local_preference : Option Num
  /-- Free-form to allow `+n` / `-n` / absolute. -/
  metric : Option String
  ip_next_hop : Option String
  origin : Option String
  weight : Option Num
  tag : Option Num
  deriving DecidableEq, Repr

/-- `{ kind, goto }`, which has a target exactly when it is a `goto`. -/
inductive OnMatch (Num : Type) where
  | none
  | next
  | goto (seq : Num)
  deriving DecidableEq, Repr

structure RouteMapRule (Num : Type) where
  seq : Nat
  action : PolicyAction
  description : Option String
  «match» : RouteMapMatch Num
  set : RouteMapSet Num
  on_match : OnMatch Num
  call : Option String
  deriving DecidableEq, Repr

structure RouteMap (Num : Type) where
  name : String
  rules : List (RouteMapRule Num)
  deriving DecidableEq, Repr

def OnMatch.isNext {Num : Type} : OnMatch Num → Bool
  | .next => true
  | _ => false

def OnMatch.target {Num : Type} : OnMatch Num → Option Num
  | .goto seq => some seq
  | _ => Option.none

section Data

variable {Num : Type} (numerals : Numerals Num)

/-! ## Reading -/

/-- `childStr(raw, "action") === "deny" ? "deny" : "permit"` -/
def parseAction (raw : Cfg) : PolicyAction :=
  if childStr raw "action" = some "deny" then .deny else .permit

def PrefixFamily.prefixNode : PrefixFamily → String
  | .ipv4 => "prefix-list"
  | .ipv6 => "prefix-list6"

def parsePrefixRule (seq : Nat) (raw : Cfg) : PrefixRule Num :=
  { seq := seq
    action := parseAction raw
    prefixText := (childStr raw "prefix").getD ""
    ge := childNum numerals raw "ge"
    le := childNum numerals raw "le"
    description := childStr raw "description" }

def parsePrefixLists (locale : Firewall.Locale) (policy : Cfg)
    (family : PrefixFamily) : List (PrefixList Num) :=
  namedRows locale (fun name raw =>
    { name := name
      family := family
      rules := numberedRows (parsePrefixRule numerals) PrefixRule.seq
        (childNode raw "rule") })
    PrefixList.name (childNode policy family.prefixNode)

/-- What follows a match: `goto` if it has a readable target. -/
def parseOnMatch (raw : Cfg) : OnMatch Num :=
  match childCfg raw "on-match" with
  | some onMatch =>
      match childNum numerals onMatch "goto" with
      | some seq => .goto seq
      | Option.none => if has onMatch "next" then .next else .none
  | Option.none => .none

def parseRouteMapRule (seq : Nat) (raw : Cfg) : RouteMapRule Num :=
  let m := childNode raw "match"
  let s := childNode raw "set"
  { seq := seq
    action := parseAction raw
    description := childStr raw "description"
    «match» :=
      { ip_prefix_list :=
          childStr (childNode (childNode m "ip") "address") "prefix-list"
        ipv6_prefix_list :=
          childStr (childNode (childNode m "ipv6") "address") "prefix-list"
        as_path := childStr m "as-path"
        community_list := childStr (childNode m "community") "community-list"
        interface := childStr m "interface"
        metric := childNum numerals m "metric"
        origin := childStr m "origin"
        peer := childStr m "peer" }
    set :=
      { as_path_prepend := childStr (childNode s "as-path") "prepend"
        community := childStr s "community"
        local_preference := childNum numerals s "local-preference"
        metric := childStr s "metric"
        ip_next_hop := childStr s "ip-next-hop"
        origin := childStr s "origin"
        weight := childNum numerals s "weight"
        tag := childNum numerals s "tag" }
    on_match := parseOnMatch numerals raw
    call := childStr raw "call" }

def parseRouteMaps (locale : Firewall.Locale) (policy : Cfg) :
    List (RouteMap Num) :=
  namedRows locale (fun name raw =>
    { name := name
      rules := numberedRows (parseRouteMapRule numerals) RouteMapRule.seq
        (childNode raw "rule") })
    RouteMap.name (childNode policy "route-map")

/-- `fetchPolicy` -/
def fetchPolicy (root : Cfg) : Cfg := childNode root "policy"

/-- All configured prefix-lists (IPv4 + IPv6). -/
def fetchPrefixLists (locale : Firewall.Locale) (root : Cfg) :
    List (PrefixList Num) :=
  parsePrefixLists numerals locale (fetchPolicy root) .ipv4 ++
    parsePrefixLists numerals locale (fetchPolicy root) .ipv6

/-- All configured route-maps. -/
def fetchRouteMaps (locale : Firewall.Locale) (root : Cfg) :
    List (RouteMap Num) :=
  parseRouteMaps numerals locale (fetchPolicy root)

/-! ## Writing -/

def prefixBase (family : PrefixFamily) (name : String) : Path :=
  ["policy", family.prefixNode, name]

def routeMapBase (name : String) : Path := ["policy", "route-map", name]

/-- The action of a rule; a rule without one permits. -/
def actionPush (live : Option PolicyAction) (u : PolicyAction) : Push Num :=
  .leaf ["action"] (live.map PolicyAction.text) (some u.text)

def prefixPush (live : Option (PrefixRule Num)) (u : PrefixRule Num) :
    Push Num :=
  .leaf ["prefix"] (live.map (·.prefixText)) (some u.prefixText)

def prefixPushes (live : Option (PrefixRule Num)) (u : PrefixRule Num) :
    List (Push Num) :=
  [.number ["ge"] (live.bind (·.ge)) u.ge,
    .number ["le"] (live.bind (·.le)) u.le,
    .leaf ["description"] (live.bind (·.description)) u.description]

def diffPrefixRule (live : Option (PrefixRule Num)) (u : PrefixRule Num) :
    List VyosCommand :=
  made live.isSome (laid ((actionPush (live.map (·.action)) u.action ::
    prefixPush live u :: prefixPushes live u).map (Push.block numerals)))

/-- `next` is a flag, `goto` a leaf; they are mutually exclusive. -/
def nextPush (live : Option (RouteMapRule Num)) (u : RouteMapRule Num) :
    Push Num :=
  .flag ["on-match", "next"] (live.any fun rule => rule.on_match.isNext)
    u.on_match.isNext

def routeMapPushes (live : Option (RouteMapRule Num)) (u : RouteMapRule Num) :
    List (Push Num) :=
  [.leaf ["description"] (live.bind (·.description)) u.description,
    .leaf ["match", "ip", "address", "prefix-list"]
      (live.bind (·.match.ip_prefix_list)) u.match.ip_prefix_list,
    .leaf ["match", "ipv6", "address", "prefix-list"]
      (live.bind (·.match.ipv6_prefix_list)) u.match.ipv6_prefix_list,
    .leaf ["match", "as-path"] (live.bind (·.match.as_path)) u.match.as_path,
    .leaf ["match", "community", "community-list"]
      (live.bind (·.match.community_list)) u.match.community_list,
    .leaf ["match", "interface"] (live.bind (·.match.interface))
      u.match.interface,
    .number ["match", "metric"] (live.bind (·.match.metric)) u.match.metric,
    .leaf ["match", "origin"] (live.bind (·.match.origin)) u.match.origin,
    .leaf ["match", "peer"] (live.bind (·.match.peer)) u.match.peer,
    .leaf ["set", "as-path", "prepend"] (live.bind (·.set.as_path_prepend))
      u.set.as_path_prepend,
    .leaf ["set", "community"] (live.bind (·.set.community)) u.set.community,
    .number ["set", "local-preference"] (live.bind (·.set.local_preference))
      u.set.local_preference,
    .leaf ["set", "metric"] (live.bind (·.set.metric)) u.set.metric,
    .leaf ["set", "ip-next-hop"] (live.bind (·.set.ip_next_hop))
      u.set.ip_next_hop,
    .leaf ["set", "origin"] (live.bind (·.set.origin)) u.set.origin,
    .number ["set", "weight"] (live.bind (·.set.weight)) u.set.weight,
    .number ["set", "tag"] (live.bind (·.set.tag)) u.set.tag,
    .number ["on-match", "goto"] (live.bind (·.on_match.target))
      u.on_match.target,
    .leaf ["call"] (live.bind (·.call)) u.call]

/-- The flag is pushed before the target; it writes elsewhere. -/
def diffRouteMapRule (live : Option (RouteMapRule Num))
    (u : RouteMapRule Num) : List VyosCommand :=
  made live.isSome (laid ((actionPush (live.map (·.action)) u.action ::
    nextPush live u :: routeMapPushes live u).map (Push.block numerals)))

/-- Diff each desired rule, delete removed rules, all below the list. -/
def applyRules {Rule : Type} (seq : Rule → Nat)
    (diffRule : Option Rule → Rule → List VyosCommand)
    (live : Option (List Rule)) (rules : List Rule) : List VyosCommand :=
  made live.isSome
    (diffRows "rule" seq toString diffRule (live.getD []) rules)

/-- Apply a whole prefix-list. -/
def applyPrefixList (live : Option (PrefixList Num)) (u : PrefixList Num) :
    List VyosCommand :=
  (applyRules PrefixRule.seq (diffPrefixRule numerals) (live.map (·.rules))
    u.rules).map (Command.under (prefixBase u.family u.name))

/-- Apply a whole route-map. -/
def applyRouteMap (live : Option (RouteMap Num)) (u : RouteMap Num) :
    List VyosCommand :=
  (applyRules RouteMapRule.seq (diffRouteMapRule numerals)
    (live.map (·.rules)) u.rules).map (Command.under (routeMapBase u.name))

end Data

end QuartzFire.Routing
