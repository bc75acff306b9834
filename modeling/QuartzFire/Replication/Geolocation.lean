import QuartzFire.Replication.RuleMatch

/-!
# Geolocation policies

The owner of `service geolocation` resolves every policy to a hook chain and a
replicated match, saves the matches, and renders the policies that have one.
Outside a commit the matches come from the active configuration or, without
one, from what was saved.
-/

namespace QuartzFire.Geolocation

open Replication

/-! ## The model -/

structure Action where
  description : Option String
  mode : Option String
  countries : List String
  unknown : String
  log : Bool
  deriving DecidableEq

structure Policy where
  id : Nat
  action : Option String
  ruleset : Option String
  rule : Nat
  direction : String
  enabled : Bool
  deriving DecidableEq

structure Model where
  actions : List (String × Action)
  policies : List Policy
  deriving DecidableEq

def modes : List String := ["block-listed", "allow-listed"]

def unknownHandling : List String := ["allow", "block"]

def directions : List String := ["source", "destination", "both"]

def rulesets : List String := ["forward", "input", "output"]

def isZoneRuleset (ruleset : String) : Bool :=
  match stripPrefix "name:".toList ruleset.toList with
  | some (first :: rest) =>
      first.isAlphanum && (first :: rest).all fun char =>
        char.isAlphanum || char ∈ ['-', '_', '.']
  | _ => false

def nameOk (name : String) : Bool :=
  (name.toList.head?.any Char.isAlpha) && name.utf8ByteSize ≤ 32 &&
    name.toList.tail.all fun char => char.isAlphanum || char = '_'

def ccOk (cc : String) : Bool :=
  cc.utf8ByteSize = 2 && cc.toList.all Char.isAlpha

/-- The countries of an action, with those seen before. -/
def countryProblems (place : String) (known : Option (List String)) :
    List String → List String → List String
  | [], _ => []
  | cc :: rest, seen =>
      if !ccOk cc then
        (place ++ ": \"" ++ cc ++
          "\" is not a two-letter ISO 3166-1 country code") ::
          countryProblems place known rest seen
      else
        let up := cc.toUpper
        (if up ∈ seen then [place ++ ": country " ++ up ++ " is listed twice"]
          else []) ++
        (if known.any fun codes => up ∉ codes then
          [place ++ ": country " ++ up ++
            " is not present in the location database"] else []) ++
        countryProblems place known rest (up :: seen)

def actionProblems (known : Option (List String)) (named : String × Action) :
    List String :=
  let action := named.2
  let place := "action \"" ++ named.1 ++ "\""
  (if nameOk named.1 then [] else
    [place ++ ": the name must start with a letter and contain only " ++
      "letters, digits, and underscores (at most 32 characters)"]) ++
  (match action.mode with
    | some mode => if mode ∈ modes then [] else
        [place ++ ": mode must be set to block-listed or allow-listed (got \"" ++
          mode ++ "\")"]
    | none =>
        [place ++ ": mode must be set to block-listed or allow-listed"]) ++
  (if action.countries = [] ∧ action.mode ≠ some "block-listed" then
    [place ++ ": at least one country is required — an allow-listed " ++
      "action with no countries blocks everything (use block-listed " ++
      "to allow all countries)"] else []) ++
  countryProblems place known action.countries [] ++
  (if action.unknown ∈ unknownHandling then [] else
    [place ++ ": unknown-ip must be allow or block (got \"" ++
      action.unknown ++ "\")"])

/-- A policy's problems, after the policies before it. -/
def policyProblems (model : Model) (before : List Nat) (policy : Policy) :
    List String :=
  let place := "policy " ++ toString policy.id
  (if policy.id ∈ before then [place ++ ": duplicate policy number"]
    else []) ++
  (match policy.action with
    | none => [place ++ ": no geolocation action is set"]
    | some name =>
        if name = "" then [place ++ ": no geolocation action is set"]
        else if (model.actions.lookup name).isSome then []
        else [place ++ " references geolocation action \"" ++ name ++
          "\", which is not configured"]) ++
  (if policy.ruleset.any fun ruleset =>
      ruleset ∈ rulesets || isZoneRuleset ruleset then [] else
    [place ++ ": ruleset must be forward, input, output, or name:<ruleset>"]) ++
  (if policy.rule < 1 then
    [place ++ ": no target firewall rule number is set"] else []) ++
  (if policy.direction ∈ directions then [] else
    [place ++ ": direction must be source, destination, or both"])

def policiesProblems (model : Model) : List Nat → List Policy → List String
  | _, [] => []
  | before, policy :: rest =>
      policyProblems model before policy ++
        policiesProblems model (policy.id :: before) rest

/-- Human-readable problems; none when the model is valid. -/
def validate (model : Model) (known : Option (List String)) : List String :=
  model.actions.flatMap (actionProblems known) ++
    policiesProblems model [] model.policies

/-! ## Zone pairs -/

structure ZonePairCfg where
  srcInterfaces : List String
  dstInterfaces : List String
  srcLocal : Bool
  dstLocal : Bool
  deriving DecidableEq

/-- The first zone whose binding from another names the ruleset. -/
def readZonePair (conf : ConfigRead) (ruleset : String) : Option ZonePairCfg :=
  let ifaces zone :=
    conf.returnValues ["firewall", "zone", zone, "member", "interface"]
  let isLocal zone := conf.existsAt ["firewall", "zone", zone, "local-zone"]
  (conf.listNodes ["firewall", "zone"]).findSome? fun dst =>
    (conf.listNodes ["firewall", "zone", dst, "from"]).findSome? fun src =>
      if conf.returnValue
          ["firewall", "zone", dst, "from", src, "firewall", "name"] =
            some ruleset then
        some ⟨ifaces src, ifaces dst, isLocal src, isLocal dst⟩
      else none

def hookChain (ruleset : String) : String :=
  if ruleset = "input" then "geo_input"
  else if ruleset = "output" then "geo_output"
  else "geo_forward"

def policyHook (ruleset : String) : Option ZonePairCfg → String
  | some pair =>
      if pair.dstLocal then "geo_input"
      else if pair.srcLocal then "geo_output"
      else "geo_forward"
  | none => hookChain ruleset

/-- Members stand in for an interface the rule does not name. -/
def foldZone (members : List String) (own : Option IfaceSpec) :
    Option IfaceSpec :=
  if members ≠ [] ∧ own = none then some ⟨none, none, members⟩ else own

def applyZonePair (rule : RuleCfg) (pair : ZonePairCfg) : RuleCfg :=
  { rule with
    inboundInterface := foldZone pair.srcInterfaces rule.inboundInterface
    outboundInterface := foldZone pair.dstInterfaces rule.outboundInterface }

/-! ## Resolution -/

structure Problem where
  policy : Nat
  error : String
  deriving DecidableEq

/-- What becomes of a policy: its hook, if it was looked at, and its match or
why it has none. -/
structure Resolution where
  hook : Option String
  result : Except String Nft.Match

def resolvePolicy (conf : ConfigRead) (policy : Policy) : Resolution :=
  let ruleset := policy.ruleset.getD "forward"
  let pair := (zoneRuleset ruleset).bind (readZonePair conf)
  match zoneRuleset ruleset, pair with
  | some name, none =>
      ⟨none, .error ("no zone pair is bound to firewall ipv4 name " ++ name)⟩
  | zone, pair =>
      let hook := some (policyHook ruleset pair)
      match readRuleCfg conf ruleset policy.rule with
      | none =>
          match zone with
          | some name => ⟨hook, .error ("target firewall ipv4 name " ++ name ++
              " rule " ++ toString policy.rule ++ " does not exist")⟩
          | none => ⟨hook, .error ("target firewall ipv4 " ++ ruleset ++
              " filter rule " ++ toString policy.rule ++ " does not exist")⟩
      | some cfg =>
          let cfg := match pair with
            | some pair => applyZonePair cfg pair
            | none => cfg
          match ruleMatchExpr cfg (readGroups conf) with
          | .ok expr => ⟨hook, .ok expr⟩
          | .error error => ⟨hook, .error error.text⟩

def Resolution.found (outcome : Resolution) : Option String :=
  match outcome.result with
  | .ok expr => some expr.text
  | .error _ => none

/-- Matches and hooks by policy number, the last inserted first. -/
structure Resolved where
  found : List (Nat × Option String)
  hooks : List (Nat × String)
  problems : List Problem

def Resolved.add (resolved : Resolved) (policy : Nat) (outcome : Resolution) :
    Resolved where
  found := (policy, outcome.found) :: resolved.found
  hooks := match outcome.hook with
    | some hook => (policy, hook) :: resolved.hooks
    | none => resolved.hooks
  problems := match outcome.result with
    | .ok _ => resolved.problems
    | .error error => resolved.problems ++ [⟨policy, error⟩]

/-- `desired.json`; object keys are strings. -/
structure Desired where
  model : Model
  found : List (String × Option String)

def saveDesired (model : Model) (resolved : Resolved) : Desired where
  model := model
  found := resolved.found.map fun entry => (toString entry.1, entry.2)

/-- A policy from the snapshot: no hook is saved. -/
def addSaved (snapshot : List (String × Option String)) (resolved : Resolved)
    (policy : Policy) : Resolved :=
  let expr := (snapshot.lookup (toString policy.id)).join
  { resolved with
    found := (policy.id, expr) :: resolved.found
    problems := if expr.isNone then
        resolved.problems ++
          [⟨policy.id, "unresolved in the last commit snapshot"⟩]
      else resolved.problems }

def addUnseen (resolved : Resolved) (policy : Policy) : Resolved :=
  { resolved with
    found := (policy.id, none) :: resolved.found
    problems := resolved.problems ++
      [⟨policy.id, "no configuration view available"⟩] }

def resolveMatches (model : Model) (conf : Option ConfigRead)
    (snapshot : Option (List (String × Option String))) : Resolved :=
  let start : Resolved := ⟨[], [], []⟩
  match conf, snapshot with
  | some conf, _ => model.policies.foldl
      (fun resolved policy =>
        resolved.add policy.id (resolvePolicy conf policy)) start
  | none, some snapshot => model.policies.foldl (addSaved snapshot) start
  | none, none => model.policies.foldl addUnseen start

/-! ## The rules of the table -/

def chainName (action direction : String) : String :=
  "act_" ++ action ++ (if direction = "source" then "_src" else "_dst")

def directionsOf (policy : Policy) : List String :=
  if policy.direction = "both" then ["source", "destination"]
  else if policy.direction = "source" then ["source"]
  else ["destination"]

def hookOf (hooks : List (Nat × String)) (policy : Policy)
    (ruleset : String) : String :=
  (hooks.lookup policy.id).getD (hookChain ruleset)

/-- The hook chain and the text of each rule a policy contributes. -/
def policyRules (model : Model) (found : List (Nat × Option String))
    (hooks : List (Nat × String)) (policy : Policy) : List (String × String) :=
  match policy.enabled, (found.lookup policy.id).join, policy.action,
      policy.ruleset with
  | true, some expr, some action, some ruleset =>
      if (model.actions.lookup action).isSome then
        (directionsOf policy).map fun direction =>
          (hookOf hooks policy ruleset,
            "ct state new" ++ (if expr = "" then "" else " " ++ expr) ++
              " counter jump " ++ chainName action direction ++
              " comment \"qz-geo-p" ++ toString policy.id ++ "\"")
      else []
  | _, _, _, _ => []

/-- The rules of the hook chains, in policy order. -/
def hookRules (model : Model) (found : List (Nat × Option String))
    (hooks : List (Nat × String)) : List (String × String) :=
  (model.policies.mergeSort fun left right => left.id ≤ right.id).flatMap
    (policyRules model found hooks)

end QuartzFire.Geolocation
