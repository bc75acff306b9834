import QuartzFire.Firewall.Placement
import QuartzFire.Firewall.PairLifecycle

/-!
# The rules of a zone

A zone is renamed and deleted only while no rule is shown as using it.  A rule
of several zone pairs is looked up by its representative scope, the one whose
ruleset comes first, so that a zone of its other pairs can count as unused.
-/

namespace QuartzFire.Firewall

open ConfigTree

/-- The chain is the ruleset of a pair the zone takes part in. -/
def RuleChain.Involves (cfg : FirewallConfig) (zone : FirewallZone)
    (chain : RuleChain) : Prop :=
  ∃ pair ∈ cfg.zonePairs, (pair.src = zone.name ∨ pair.dst = zone.name) ∧
    chain = .name pair.ruleset

instance (cfg : FirewallConfig) (zone : FirewallZone) (chain : RuleChain) :
    Decidable (chain.Involves cfg zone) :=
  inferInstanceAs (Decidable (∃ pair ∈ cfg.zonePairs, _))

/-- The usage of the zone lists the rule if and only if one of its scopes is in
a pair of the zone. -/
def ListedByScopes (cfg : FirewallConfig) (zone : FirewallZone)
    (rule : FirewallRule) : Prop :=
  rule ∈ zoneUsage cfg zone ↔
    ∃ scope ∈ rule.scopes, scope.chain.Involves cfg zone

theorem mem_zoneUsage {cfg : FirewallConfig} {zone : FirewallZone}
    {rule : FirewallRule} :
    rule ∈ zoneUsage cfg zone ↔
      rule ∈ cfg.rules ∧ rule.chain.Involves cfg zone := by
  rw [zoneUsage, List.mem_filter]
  apply and_congr_right
  intro _
  cases rule.chain with
  | base chain =>
      constructor
      · intro named
        cases named
      · rintro ⟨pair, _, _, other⟩
        cases other
  | name ruleset =>
      simp only [RuleChain.rulesetName, Option.any_some, decide_eq_true_eq,
        List.mem_map, List.mem_filter, Bool.or_eq_true]
      constructor
      · rintro ⟨pair, ⟨inPairs, involved⟩, rfl⟩
        exact ⟨pair, inPairs, involved, rfl⟩
      · rintro ⟨pair, inPairs, involved, same⟩
        cases same
        exact ⟨pair, ⟨inPairs, involved⟩, rfl⟩

/-- The listing of a rule goes by its first scope. -/
theorem listedByScopes_iff {locale : Locale} {root : Cfg}
    (zone : FirewallZone) {rule : FirewallRule}
    (member : rule ∈ (fetchFirewall locale root).rules) :
    ListedByScopes (fetchFirewall locale root) zone rule ↔
      ((∃ scope ∈ rule.scopes,
          scope.chain.Involves (fetchFirewall locale root) zone) →
        rule.chain.Involves (fetchFirewall locale root) zone) := by
  rw [ListedByScopes, mem_zoneUsage]
  constructor
  · intro listed inScope
    exact (listed.mpr inScope).2
  · intro represented
    constructor
    · rintro ⟨_, involved⟩
      obtain ⟨scope, inScopes, same⟩ :=
        List.mem_map.mp (chain_mem_scopes member)
      exact ⟨scope, inScopes, same ▸ involved⟩
    · intro inScope
      exact ⟨member, represented inScope⟩

/-- A rule from two zones, in a ruleset for each. -/
def spanningConfig : Cfg :=
  let binding := fun ruleset => .node [("firewall", .node
    [("name", .value ruleset)])]
  let copy := .node [("action", .value "accept")]
  let member := fun name => .node [("member", .node
    [("interface", .value name)])]
  .node [("firewall", .node
    [("ipv4", .node [("name", .node
      [("QZ-Z-DMZ-TO-WAN", .node [("rule", .node [("30", copy)])]),
        ("QZ-Z-LAN-TO-WAN", .node [("rule", .node [("30", copy)])])])]),
      ("zone", .node
        [("DMZ", member "eth2"),
          ("LAN", member "eth1"),
          ("WAN", .node [("from", .node
            [("LAN", binding "QZ-Z-LAN-TO-WAN"),
              ("DMZ", binding "QZ-Z-DMZ-TO-WAN")])])])])]

def spanningCfg : FirewallConfig := fetchFirewall codepoints spanningConfig

theorem spanningCfg_rules : spanningCfg.rules ≠ [] :=
  List.ne_nil_of_length_pos (by decide +kernel)

theorem spanningCfg_zones : 1 < spanningCfg.zones.length := by
  decide +kernel

/-- The zone DMZ has the rule, which is shown by the ruleset of that pair. -/
theorem dmz_listed :
    ListedByScopes spanningCfg
      (spanningCfg.zones.get ⟨0, Nat.lt_of_succ_lt spanningCfg_zones⟩)
      (spanningCfg.rules.head spanningCfg_rules) :=
  (listedByScopes_iff _ (List.head_mem spanningCfg_rules)).mpr
    fun _ => by decide +kernel

/-- The zone LAN has no rule, though one of its pairs holds a copy. -/
theorem spanning_rule_unlisted :
    ¬ ∀ (locale : Locale) (root : Cfg),
      ∀ zone ∈ (fetchFirewall locale root).zones,
      ∀ rule ∈ (fetchFirewall locale root).rules,
        ListedByScopes (fetchFirewall locale root) zone rule := by
  intro always
  have listed := always codepoints spanningConfig
    (spanningCfg.zones.get ⟨1, spanningCfg_zones⟩) (List.get_mem _ _)
    (spanningCfg.rules.head spanningCfg_rules)
    (List.head_mem spanningCfg_rules)
  have inScope : ∃ scope ∈ (spanningCfg.rules.head spanningCfg_rules).scopes,
      scope.chain.Involves spanningCfg
        (spanningCfg.zones.get ⟨1, spanningCfg_zones⟩) := by
    decide +kernel
  have represented := (mem_zoneUsage.mp (listed.mpr inScope)).2
  revert represented
  decide +kernel

end QuartzFire.Firewall
