import QuartzFire.Inspection.Render
import QuartzFire.Replication.RuleMatch

/-!
# From the configuration to what is rendered

The owner of the service reads the model at a commit, resolves its policies and
saves both.  Outside a commit they are taken from there, but for the content
filter and the matches, which are read again.
-/

namespace QuartzFire.SslInspection

open Replication Nft

/-! ## Reading the service -/

def base : List String := ["service", "quartzfire", "ssl-inspection"]

def filteringBase : List String := ["service", "content-filtering"]

def readPort (conf : ConfigRead) (path : List String) (default : Nat) : Nat :=
  ((conf.returnValue path).bind fun text =>
    parsePort text.toList).getD default

/-- The explicit node, or else Content Filtering where that is enabled. -/
def readContentFilter (conf : ConfigRead) : Option ContentFilter :=
  let node leaf := base ++ ["content-filter", leaf]
  if conf.existsAt (base ++ ["content-filter"]) then
    some {
      icapHost := (conf.returnValue (node "icap-host")).getD "127.0.0.1"
      icapPort := readPort conf (node "icap-port") 1344
      reqmodService := (conf.returnValue (node "reqmod-service")).getD "request"
      respmodService :=
        (conf.returnValue (node "respmod-service")).getD "response"
      failMode := (conf.returnValue (node "fail-mode")).getD "closed" }
  else if conf.existsAt (filteringBase ++ ["enable"]) then
    some { icapPort := readPort conf (filteringBase ++ ["listen-port"]) 1344 }
  else none

def readPolicy (conf : ConfigRead) (num : String) : Policy where
  rule := (parseUnsigned 32 num.toList).getD 0
  ruleset :=
    (conf.returnValue (base ++ ["policy", num, "ruleset"])).getD "forward"
  action := (conf.returnValue (base ++ ["policy", num, "action"])).getD "inspect"
  enabled := !conf.existsAt (base ++ ["policy", num, "disable"])

def readService (conf : ConfigRead) : Model :=
  if !conf.existsAt base then {} else
  { enabled := conf.existsAt (base ++ ["enable"])
    interceptPort := readPort conf (base ++ ["intercept-port"]) 3129
    policies := ((conf.listNodes (base ++ ["policy"])).map
      (readPolicy conf)).mergeSort fun left right => left.rule ≤ right.rule
    defaultAction :=
      (conf.returnValue (base ++ ["default-action"])).getD "inspect"
    noInspect := conf.returnValues (base ++ ["no-inspect"])
    defaultExclusions := !conf.existsAt (base ++ ["disable-default-exclusions"])
    upstreamInvalid :=
      (conf.returnValue (base ++ ["upstream-invalid"])).getD "block"
    contentFilter := readContentFilter conf
    caDownloadInterfaces :=
      conf.returnValues (base ++ ["ca-download", "interface"]) }

/-! ## Resolution -/

structure Problem where
  policy : Nat
  error : String
  /-- The rule does not exist. -/
  dangling : Bool
  deriving DecidableEq

structure Resolved where
  /-- By rule number, the last one first. -/
  found : Matches
  problems : List Problem
  caScope : List String
  deriving DecidableEq

def inboundIfaces (cfg : RuleCfg) (groups : Groups) : List String :=
  match cfg.inboundInterface with
  | none => []
  | some spec =>
      match spec.name, spec.group with
      | some name, _ => [name]
      | none, some group => ((groups.find "interface-group" group).map
          fun group => group.values "interface").getD []
      | none, none => []

/-- What one policy contributes. -/
structure Outcome where
  found : Option Match
  problem : Option Problem
  inbound : List String

def resolvePolicy (conf : ConfigRead) (policy : Policy) : Outcome :=
  match readRuleCfg conf policy.ruleset policy.rule with
  | none => ⟨none, some ⟨policy.rule, "target firewall ipv4 " ++
      policy.ruleset ++ " filter rule " ++ toString policy.rule ++
      " does not exist", true⟩, []⟩
  | some cfg =>
      match ruleMatchExpr cfg (readGroups conf) with
      | .ok expr => ⟨some expr, none, inboundIfaces cfg (readGroups conf)⟩
      | .error error => ⟨none, some ⟨policy.rule, error.text, false⟩, []⟩

def Model.enabledPolicies (model : Model) : List Policy :=
  model.policies.filter Policy.enabled

/-- The explicit interfaces, or else those the resolved rules are for. -/
def caScopeOf (model : Model) (outcomes : List Outcome) : List String :=
  if model.caDownloadInterfaces = [] then
    (outcomes.flatMap Outcome.inbound).dedup.mergeSort
      fun left right => left ≤ right
  else model.caDownloadInterfaces

def resolveLive (model : Model) (conf : ConfigRead) : Resolved where
  found := (model.enabledPolicies.map fun policy =>
    (policy.rule, (resolvePolicy conf policy).found)).reverse
  problems := model.enabledPolicies.filterMap fun policy =>
    (resolvePolicy conf policy).problem
  caScope := caScopeOf model (model.enabledPolicies.map (resolvePolicy conf))

/-- Without a view, what was saved. -/
def resolve (model : Model) (conf : Option ConfigRead)
    (snapshot : Option Resolved) : Resolved :=
  match conf, snapshot with
  | some conf, _ => resolveLive model conf
  | none, some snapshot => snapshot
  | none, none =>
      { found := []
        problems := model.enabledPolicies.map fun policy =>
          ⟨policy.rule, "no configuration view available", false⟩
        caScope := [] }

/-! ## Commits and resyncs -/

/-- `desired.json` -/
structure Desired where
  model : Model
  resolved : Resolved
  deriving DecidableEq

/-- What a commit of the configuration saves. -/
def commitDesired (conf : ConfigRead) : Desired :=
  let model := readService conf
  ⟨model, resolve model (some conf) none⟩

/-- A rule that exists and cannot be replicated. -/
def Desired.hard (desired : Desired) : Bool :=
  desired.model.enabled &&
    desired.resolved.problems.any fun problem => !problem.dangling

/-- `none` when the commit is refused. -/
def commit (conf : ConfigRead) (bumpCapable icapCapable : Option Bool) :
    Option Desired :=
  let desired := commitDesired conf
  if validate desired.model bumpCapable icapCapable = [] ∧
      desired.hard = false then some desired
  else none

def Model.attach (model : Model) (filter : Option ContentFilter) : Model :=
  { model with contentFilter := filter }

/-- The view is of the session inside a commit, else of the active
configuration. -/
def standaloneApply (desired : Desired) (conf : ConfigRead) : Desired :=
  let model := desired.model.attach (readContentFilter conf)
  ⟨model, resolve model (some conf) (some desired.resolved)⟩

/-- The Squid fragment and the table. -/
def Desired.rendered (desired : Desired) : List Part × String :=
  (squidFragment desired.model,
    nftRuleset desired.model desired.resolved.found desired.resolved.caScope)

end QuartzFire.SslInspection
