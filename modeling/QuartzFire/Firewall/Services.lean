import QuartzFire.Foundation.ConfigEdit
import QuartzFire.Firewall.Reorder

/-!
# Security services attached to rules

Geolocation policies name a scope and a rule number, SSL inspection policies
are keyed by rule number, and Application Control bindings, kept outside the
configuration, by rule number alone.
-/

namespace QuartzFire.Firewall

open ConfigTree

/-! ## Geolocation -/

inductive GeoDirection where
  | source
  | destination
  | both
  deriving DecidableEq, Repr

def GeoDirection.text : GeoDirection → String
  | .source => "source"
  | .destination => "destination"
  | .both => "both"

structure GeoPolicy where
  id : Nat
  action : String
  ruleset : RuleChain
  rule : Nat
  direction : GeoDirection
  enabled : Bool
  deriving DecidableEq, Repr

def asDirection (text : Option String) : GeoDirection :=
  if text = some "source" then .source
  else if text = some "destination" then .destination
  else .both

/-- A policy's target scope; anything unrecognised is forward. -/
def asRuleset (text : Option String) : RuleChain :=
  match text with
  | none => .base .forward
  | some text =>
      if text = "input" then .base .input
      else if text = "output" then .base .output
      else if startsWith text "name:" then
        .name (String.ofList (text.toList.drop 5))
      else .base .forward

/-- `Number(text) || 0` of a leaf that may be missing. -/
def leafNumber (text : Option String) : Nat := (text.map ruleNumber).getD 0

def parseGeoPolicy (key : String) (cfg : Cfg) : GeoPolicy :=
  { id := ruleNumber key
    action := (childStr cfg "action").getD ""
    ruleset := asRuleset (childStr cfg "ruleset")
    rule := leafNumber (childStr cfg "rule")
    direction := asDirection (childStr cfg "direction")
    enabled := !has cfg "disable" }

def policyBase (id : Nat) : Path := geoBase ++ [toString id]

/-- The policies `fetchGeolocation` reads, in order of their number. -/
def fetchGeolocation (root : Cfg) : List GeoPolicy :=
  let service := childNode (childNode root "service") "geolocation"
  ((childNode service "policy").entries.map fun (key, cfg) =>
    parseGeoPolicy key cfg).insertionSort fun left right => left.id ≤ right.id

/-! ## SSL inspection -/

inductive SslPolicyAction where
  | inspect
  | splice
  deriving DecidableEq, Repr

def SslPolicyAction.text : SslPolicyAction → String
  | .inspect => "inspect"
  | .splice => "splice"

structure SslPolicy where
  rule : Nat
  ruleset : String
  action : SslPolicyAction
  enabled : Bool
  deriving DecidableEq, Repr

def parseSslPolicy (key : String) (cfg : Cfg) : SslPolicy :=
  { rule := ruleNumber key
    ruleset := (childStr cfg "ruleset").getD "forward"
    action := if childStr cfg "action" = some "splice" then .splice else .inspect
    enabled := !has cfg "disable" }

/-- `readPolicies`, which skips what is not a number. -/
def fetchSslPolicies (root : Cfg) : List SslPolicy :=
  let service := childNode (childNode (childNode root "service") "quartzfire")
    "ssl-inspection"
  ((childNode service "policy").entries.filterMap fun (key, cfg) =>
    if key.toList.all Char.isDigit then some (parseSslPolicy key cfg)
    else none).insertionSort fun left right => left.rule ≤ right.rule

/-! ## Application Control -/

/-- The traffic a binding matches; an empty list does not restrict. -/
structure AcMatch where
  iifname : List String
  oifname : List String
  saddr : List String
  daddr : List String
  deriving DecidableEq, Repr

structure AcBinding where
  id : Nat
  action : String
  description : String
  matched : AcMatch
  deriving DecidableEq, Repr

/-! ## Which rule a policy is attached to

A rule is taken with a number of its own, which is where a reorder puts it. -/

def GeoPolicy.AttachedTo (policy : GeoPolicy) (rule : FirewallRule)
    (number : Nat) : Prop :=
  policy.rule = number ∧ ∃ scope ∈ rule.scopes, scope.chain = policy.ruleset

/-- Inspection policies target the filter of a base chain. -/
def SslPolicy.AttachedTo (policy : SslPolicy) (rule : FirewallRule)
    (number : Nat) : Prop :=
  policy.rule = number ∧ ∃ scope ∈ rule.scopes,
    scope.chain.isBaseChain = true ∧ scope.chain.text = policy.ruleset

instance (policy : SslPolicy) (rule : FirewallRule) (number : Nat) :
    Decidable (policy.AttachedTo rule number) := by
  unfold SslPolicy.AttachedTo
  infer_instance

theorem isBaseChain_text_injective {left right : RuleChain}
    (isBase : left.isBaseChain = true) (isBase' : right.isBaseChain = true)
    (same : left.text = right.text) : left = right := by
  rcases left with (_ | _ | _) | _ <;> rcases right with (_ | _ | _) | _ <;>
    simp_all [RuleChain.isBaseChain, RuleChain.text, BaseChain.text]

/-- Traffic through the firewall, not to or from it. -/
def RuleChain.routed : RuleChain → Bool
  | .base .forward | .name _ => true
  | _ => false

def AcBinding.AttachedTo (binding : AcBinding) (rule : FirewallRule)
    (number : Nat) : Prop :=
  binding.id = number ∧ rule.chain.routed = true

instance (binding : AcBinding) (rule : FirewallRule) (number : Nat) :
    Decidable (binding.AttachedTo rule number) := by
  unfold AcBinding.AttachedTo
  infer_instance

/-! ## Reading policies by path -/

theorem fetchGeolocation_eq (root : Cfg) :
    fetchGeolocation root = ((nodeAt geoBase root).entries.map
      fun (key, cfg) => parseGeoPolicy key cfg).insertionSort
        fun left right => left.id ≤ right.id := by
  simp only [fetchGeolocation, childNode_eq_nodeAt root, childNode_nodeAt]
  rfl

theorem fetchSslPolicies_eq (root : Cfg) :
    fetchSslPolicies root = ((nodeAt sslBase root).entries.filterMap
      fun (key, cfg) => if key.toList.all Char.isDigit then
        some (parseSslPolicy key cfg) else none).insertionSort
        fun left right => left.rule ≤ right.rule := by
  simp only [fetchSslPolicies, childNode_eq_nodeAt root, childNode_nodeAt]
  rfl

theorem fetchSslPolicies_congr {left right : Cfg}
    (same : subtree sslBase left = subtree sslBase right) :
    fetchSslPolicies left = fetchSslPolicies right := by
  rw [fetchSslPolicies_eq, fetchSslPolicies_eq, nodeAt, nodeAt, same]

section Policies

variable {kinds : Kinds String} {root : Cfg}

theorem mem_fetchGeolocation (conforms : Conforms kinds root)
    {policy : GeoPolicy} :
    policy ∈ fetchGeolocation root ↔
      ∃ key cfg, subtree (geoBase ++ [key]) root = some cfg ∧
        parseGeoPolicy key cfg = policy := by
  rw [fetchGeolocation_eq, List.mem_insertionSort, List.mem_map]
  have proper : geoBase ≠ [] := by decide
  simp only [Prod.exists, mem_nodeAt_entries conforms proper]

/-- Distinct policies have distinct numbers. -/
theorem nodup_geoIds_of_decimal (conforms : Conforms kinds root)
    (decimal : ∀ key body, subtree (geoBase ++ [key]) root = some body →
      key = toString (ruleNumber key)) :
    ((fetchGeolocation root).map GeoPolicy.id).Nodup := by
  have proper : geoBase ≠ [] := by decide
  rw [fetchGeolocation_eq,
    ((List.perm_insertionSort _ _).map GeoPolicy.id).nodup_iff, List.map_map]
  refine List.Nodup.of_map (fun number : Nat => toString number) ?_
  have keys : ((nodeAt geoBase root).entries.map
      (GeoPolicy.id ∘ fun (key, cfg) => parseGeoPolicy key cfg)).map
        (fun number : Nat => toString number) =
      (nodeAt geoBase root).entries.map Prod.fst := by
    rw [List.map_map]
    apply List.map_congr_left
    intro entry member
    exact (decimal entry.1 entry.2
      ((mem_nodeAt_entries conforms proper).mp member)).symm
  rw [keys]
  exact nodup_nodeAt_entries conforms proper

theorem nodup_geoIds {schema : Schema} (rendered : Rendered schema root) :
    ((fetchGeolocation root).map GeoPolicy.id).Nodup :=
  nodup_geoIds_of_decimal rendered.conforms
    (rendered.policies geoBase (by simp))

/-- Inspection policies are keyed by rule number, so one rule number has one
policy. -/
theorem nodup_sslRules_of_decimal {kinds : Kinds String}
    (conforms : Conforms kinds root)
    (named : ∀ key body, subtree (sslBase ++ [key]) root = some body →
      key = toString (ruleNumber key)) :
    ((fetchSslPolicies root).map SslPolicy.rule).Nodup := by
  have proper : sslBase ≠ [] := by decide
  rw [fetchSslPolicies_eq,
    ((List.perm_insertionSort _ _).map SslPolicy.rule).nodup_iff]
  refine List.Nodup.of_map (fun number : Nat => toString number) ?_
  have decimal : ∀ entry ∈ (nodeAt sslBase root).entries,
      entry.1 = toString (ruleNumber entry.1) := by
    intro entry member
    exact named entry.1 entry.2 ((mem_nodeAt_entries conforms proper).mp member)
  have keys := nodup_nodeAt_entries conforms proper
  refine List.Sublist.nodup ?_ keys
  generalize (nodeAt sslBase root).entries = entries at decimal
  induction entries with
  | nil => exact .slnil
  | cons entry entries ih =>
      have rest := ih (fun other member => decimal other (by simp [member]))
      rw [List.filterMap_cons, List.map_cons]
      split
      · exact rest.cons _
      · rename_i policy read
        rw [Option.ite_none_right_eq_some, Option.some.injEq] at read
        obtain ⟨_, rfl⟩ := read
        rw [List.map_cons, List.map_cons, show (parseSslPolicy entry.1
          entry.2).rule = ruleNumber entry.1 from rfl,
          ← decimal entry (by simp)]
        exact rest.cons_cons _

theorem nodup_sslRules {schema : Schema} (rendered : Rendered schema root) :
    ((fetchSslPolicies root).map SslPolicy.rule).Nodup :=
  nodup_sslRules_of_decimal rendered.conforms
    (rendered.policies sslBase (by simp))

end Policies

/-! ## Repointing a geolocation policy -/

theorem childStr_put_of_ne {key other : String} (different : other ≠ key)
    (cfg entry : Cfg) :
    childStr (cfg.put key entry) other = childStr cfg other := by
  rw [childStr, childStr, child_put_of_ne different]

/-- Setting the `rule` leaf repoints a policy and changes nothing else. -/
theorem parseGeoPolicy_put (key : String) (cfg : Cfg) (number : Nat) :
    parseGeoPolicy key (cfg.put "rule" (.value (toString number))) =
      { parseGeoPolicy key cfg with rule := number } := by
  have rule : childStr (cfg.put "rule" (.value (toString number))) "rule" =
      some (toString number) := by
    rw [childStr, child_put_self]
    exact trimmed_toString number
  simp only [parseGeoPolicy, rule, leafNumber, Option.map_some,
    Option.getD_some, ruleNumber_toString, has,
    child_put_of_ne (show "disable" ≠ "rule" by decide),
    childStr_put_of_ne (show "action" ≠ "rule" by decide),
    childStr_put_of_ne (show "ruleset" ≠ "rule" by decide),
    childStr_put_of_ne (show "direction" ≠ "rule" by decide)]

theorem subtree_repointed {schema : Schema} {root cfg : Cfg} {id : Nat}
    (conforms : Conforms schema.kinds root)
    (found : subtree (policyBase id) root = some cfg) (number : Nat) :
    subtree (policyBase id) (set schema.kinds
      (policyBase id ++ ["rule", toString number]) root) =
        some (cfg.put "rule" (.value (toString number))) := by
  have isSingle : schema.kinds.below (policyBase id) ["rule"] = .single := by
    simpa [policyBase, Kinds.below] using schema.geoRule (toString id)
  have bare : oneValue (cfg.child "rule") (toString number) =
      .value (toString number) := by
    cases inside : cfg.child "rule" with
    | none => rfl
    | some tree =>
        have atRule : subtree (policyBase id ++ ["rule"]) root = some tree := by
          rw [subtree_append, found, Option.bind_some, subtree_singleton, inside]
        have fits := conforms.fits_subtree atRule
        cases fits <;> simp_all [oneValue]
  have nodes : NodePath schema.kinds (policyBase id) :=
    schema.geoNode (toString id)
  rw [subtree_set_append nodes, found, Option.getD_some, set_single isSingle,
    bare]

end QuartzFire.Firewall
