import QuartzFire.Nft.Address
import QuartzFire.Nft.Ruleset
import QuartzFire.Replication.Geolocation
import Mathlib.Data.List.Dedup

/-!
# Rendering the `inet qz_geo` table

The table is rendered from the model, the replicated match and the hook of each
policy, and the elements of the sets.  Every enabled policy that has a match
jumps to a chain of its action for each of its directions.
-/

namespace QuartzFire.Geolocation

open Nft

/-! ## What a model needs -/

/-- A `BTreeSet`, in its order. -/
def ordered {Item : Type} [DecidableEq Item] (le : Item → Item → Bool)
    (items : List Item) : List Item :=
  items.dedup.mergeSort le

def orderedTexts (texts : List String) : List String :=
  ordered (fun left right => left ≤ right) texts

/-- `action_needs_known` -/
def Action.needsKnown (action : Action) : Bool :=
  (action.mode = some "block-listed" && action.unknown = "block") ||
    (action.mode = some "allow-listed" && action.unknown = "allow")

/-- The countries of an action, upper-case. -/
def Action.codes (action : Action) : List String :=
  orderedTexts (action.countries.map String.toUpper)

structure InUse where
  countries : List String
  needKnown : Bool
  usedActions : List String

def inUse (model : Model) : InUse :=
  let usedActions := orderedTexts (model.policies.filterMap fun policy =>
    policy.action.filter fun name =>
      policy.enabled && (model.actions.lookup name).isSome)
  let actions := usedActions.filterMap fun name => model.actions.lookup name
  { countries := orderedTexts
      (actions.flatMap fun action => action.countries.map String.toUpper)
    needKnown := actions.any Action.needsKnown
    usedActions := usedActions }

/-! ## Names -/

def known : String := "known"

def setName (cc : String) : Family → String
  | .v4 => "geo4_" ++ cc.toLower
  | .v6 => "geo6_" ++ cc.toLower

def familyOfSet (sname : String) : Family :=
  if "geo4_".toList.isPrefixOf sname.toList then .v4 else .v6

def counterName (action : String) : String := "geo_" ++ action

def countryCounterName (cc : String) : String := "geoc_" ++ cc.toLower

def requiredSets (model : Model) : List String :=
  let used := inUse model
  orderedTexts
    ((used.countries.flatMap fun cc => [setName cc .v4, setName cc .v6]) ++
      (if used.needKnown then [setName known .v4, setName known .v6] else []))

/-- The hook chains and what they attach to. -/
def hooks : List (String × String) :=
  [("geo_forward", "forward"), ("geo_input", "input"),
    ("geo_output", "output")]

/-! ## Statements -/

inductive AddrField where
  | saddr
  | daddr
  deriving DecidableEq, Repr

inductive GeoTest where
  | ctStateNew
  /-- The match of the firewall rule. -/
  | replicated (expr : Match)
  | lookup (family : Family) (field : AddrField) (negated : Bool)
      (sname : String)
  deriving DecidableEq

inductive GeoEffect where
  | counter
  | counterName (name : String)
  | log (label : String)
  | comment (text : String)
  deriving DecidableEq

abbrev GeoRule := Rule GeoTest GeoEffect String Empty

def inSet (family : Family) (field : AddrField) (cc : String) :
    RuleStatement GeoTest GeoEffect String Empty :=
  .test (.lookup family field false (setName cc family))

def notInSet (family : Family) (field : AddrField) (cc : String) :
    RuleStatement GeoTest GeoEffect String Empty :=
  .test (.lookup family field true (setName cc family))

/-! ## Rules -/

def fieldOf (direction : String) : AddrField :=
  if direction = "source" then .saddr else .daddr

/-- Count, log if asked to, and drop. -/
def verdict (name : String) (action : Action) : GeoRule :=
  [.effect (.counterName (counterName name))] ++
    (if action.log then [.effect (.log ("[GEO-" ++ name ++ "] "))] else []) ++
    [.verdict .drop]

/-- A country's rules of an action that blocks the listed ones. -/
def blockCountry (name : String) (action : Action) (field : AddrField)
    (cc : String) : List GeoRule :=
  [Family.v4, .v6].map fun family =>
    [inSet family field cc, .effect (.counterName (countryCounterName cc))] ++
      verdict name action

def passCountry (field : AddrField) (cc : String) : List GeoRule :=
  [Family.v4, .v6].map fun family =>
    [inSet family field cc, .verdict .return]

def passUnknown (field : AddrField) : List GeoRule :=
  [Family.v4, .v6].map fun family =>
    [notInSet family field known, .verdict .return]

def actionChainRules (name : String) (action : Action) (direction : String) :
    List GeoRule :=
  let field := fieldOf direction
  if action.mode = some "block-listed" then
    action.codes.flatMap (blockCountry name action field) ++
      (if action.needsKnown then
        passCountry field known ++ [verdict name action] else [])
  else
    action.codes.flatMap (passCountry field) ++
      ((if action.needsKnown then passUnknown field else []) ++
        [verdict name action])

/-- What a policy contributes for one of its directions. -/
structure Jump where
  hook : String
  action : String
  direction : String
  rule : GeoRule

def jumpRule (policy : Nat) (expr : Match) (action direction : String) :
    GeoRule :=
  [.test .ctStateNew] ++
    (if expr = [] then [] else [.test (.replicated expr)]) ++
    [.effect .counter, .verdict (.jump (chainName action direction)),
      .effect (.comment ("qz-geo-p" ++ toString policy))]

section Rendering

variable (model : Model) (found : List (Nat × Option Match))
  (hookAt : List (Nat × String))

def policyJumps (policy : Policy) : List Jump :=
  match policy.enabled, (found.lookup policy.id).join, policy.action,
      policy.ruleset with
  | true, some expr, some action, some ruleset =>
      if (model.actions.lookup action).isSome then
        (directionsOf policy).map fun direction =>
          { hook := hookOf hookAt policy ruleset
            action := action
            direction := direction
            rule := jumpRule policy.id expr action direction }
      else []
  | _, _, _, _ => []

/-- In policy order. -/
def jumps : List Jump :=
  (model.policies.mergeSort fun left right => left.id ≤ right.id).flatMap
    (policyJumps model found hookAt)

/-! ## The script -/

structure ChainDecl where
  name : String
  /-- The hook of a base chain. -/
  hook : Option String
  rules : List GeoRule

/-- What the file declares inside the table. -/
structure Script where
  counters : List (String × (Nat × Nat))
  sets : List (String × List String)
  chains : List ChainDecl

def usedPairs : List (String × String) :=
  ordered (fun left right => left.1 < right.1 ||
      (left.1 = right.1 && left.2 ≤ right.2))
    ((jumps model found hookAt).map fun jump => (jump.action, jump.direction))

def counterActions : List String :=
  orderedTexts ((usedPairs model found hookAt).map Prod.fst)

/-- Listed by an action that blocks them. -/
def countryCounters : List String :=
  orderedTexts
    ((((counterActions model found hookAt).filterMap fun name =>
        model.actions.lookup name).filter fun action =>
      action.mode = some "block-listed").flatMap fun action =>
        action.countries.map String.toUpper)

def actionChains : List ChainDecl :=
  (usedPairs model found hookAt).filterMap fun pair =>
    (model.actions.lookup pair.1).map fun action =>
      ⟨chainName pair.1 pair.2, none, actionChainRules pair.1 action pair.2⟩

/-- A chain for each hook some policy is at. -/
def hookChains : List ChainDecl :=
  hooks.filterMap fun entry =>
    let rules := ((jumps model found hookAt).filter fun jump =>
      jump.hook = entry.1).map Jump.rule
    if rules = [] then none else some ⟨entry.1, some entry.2, rules⟩

/-- `render_full`; `none` only removes the table. -/
def renderFull (sets : List (String × List String))
    (counterSeed countrySeed : List (String × (Nat × Nat))) : Option Script :=
  if (jumps model found hookAt).isEmpty then none
  else some {
    counters :=
      ((counterActions model found hookAt).map fun name =>
        (counterName name, (counterSeed.lookup name).getD (0, 0))) ++
      ((countryCounters model found hookAt).map fun cc =>
        (countryCounterName cc, (countrySeed.lookup cc).getD (0, 0)))
    sets := sets
    chains := actionChains model found hookAt ++
      hookChains model found hookAt }

end Rendering

/-! ## The text -/

def GeoTest.text : GeoTest → String
  | .ctStateNew => "ct state new"
  | .replicated expr => expr.text
  | .lookup family field negated sname =>
      (match family with | .v4 => "ip" | .v6 => "ip6") ++
        (match field with | .saddr => " saddr " | .daddr => " daddr ") ++
        (if negated then "!= @" else "@") ++ sname

def GeoEffect.text : GeoEffect → String
  | .counter => "counter"
  | .counterName name => "counter name " ++ name
  | .log label => "log prefix \"" ++ label ++ "\""
  | .comment text => "comment \"" ++ text ++ "\""

def statementText : RuleStatement GeoTest GeoEffect String Empty → String
  | .test test => test.text
  | .effect effect => effect.text
  | .verdict .accept => "accept"
  | .verdict .drop => "drop"
  | .verdict .return => "return"
  | .verdict (.jump chain) => "jump " ++ chain

def ruleText (rule : GeoRule) : String :=
  String.intercalate " " (rule.map statementText)

def counterLine (counter : String × (Nat × Nat)) : String :=
  "    counter " ++ counter.1 ++
    if counter.2 = (0, 0) then " \x7b \x7d"
    else " \x7b packets " ++ toString counter.2.1 ++ " bytes " ++
      toString counter.2.2 ++ " \x7d"

/-- A handful of elements to a line. -/
def elementLines (elements : List String) : List String :=
  let chunks := elements.toChunks 8
  chunks.mapIdx fun index chunk =>
    "            " ++ String.intercalate ", " chunk ++
      if index + 1 < chunks.length then "," else ""

def renderSet (declared : String × List String) : List String :=
  ["    set " ++ declared.1 ++ " \x7b",
    match familyOfSet declared.1 with
    | .v4 => "        type ipv4_addr"
    | .v6 => "        type ipv6_addr",
    "        flags interval", "        auto-merge"] ++
  (if declared.2 = [] then [] else
    ["        elements = \x7b"] ++ elementLines declared.2 ++
      ["        \x7d"]) ++
  ["    \x7d"]

def chainLines (chain : ChainDecl) : List String :=
  ["    chain " ++ chain.name ++ " \x7b"] ++
  (match chain.hook with
    | some hook => ["        type filter hook " ++ hook ++
        " priority filter - 10; policy accept;"]
    | none => []) ++
  (chain.rules.map fun rule => "        " ++ ruleText rule) ++ ["    \x7d"]

def header : String :=
  "#!/usr/sbin/nft -f\n" ++
  "# Managed by QuartzFire geolocation (geoip-apply) — do not edit;\n" ++
  "# regenerated on every commit, database update, and firewall change."

/-- The lines of the file. -/
def fileLines : Option Script → List String
  | none => [header, "add table inet qz_geo", "delete table inet qz_geo"]
  | some script =>
      [header, "add table inet qz_geo", "delete table inet qz_geo",
        "table inet qz_geo \x7b"] ++
      script.counters.map counterLine ++ script.sets.flatMap renderSet ++
      script.chains.flatMap chainLines ++ ["\x7d"]

end QuartzFire.Geolocation
