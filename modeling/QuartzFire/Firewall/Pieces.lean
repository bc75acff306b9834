import QuartzFire.Firewall.Console
import QuartzFire.Firewall.Footprint

/-!
# What operations are put together from

The batch of every operation of the console is a sequence of pieces, each of
them with what its operation knows when it writes it.
-/

namespace QuartzFire.Firewall

open ConfigTree

/-- Where a config rule is kept. -/
abbrev rulePath (chain : RuleChain) (key : String) : Path :=
  filterBase chain ++ ["rule", key]

/-! ## Where a rule is put -/

section Placing

variable {locale : Locale} {live : Option FirewallRule} {update : RuleUpdate}
  {cfg : FirewallConfig} {place : RulePlacement}

/-- The pairs of a rule are all pairs of a zone of the one side with a zone of
the other. -/
theorem mem_zonePairsFor {source target : EndpointSelection}
    {zones : List FirewallZone} {pairs : List ZonePair} {pair : ZonePair}
    (spans : zonePairsFor source target zones = .ok pairs)
    (member : pair ∈ pairs) :
    pair.src ∈ sideZones source zones ∧ pair.dst ∈ sideZones target zones ∧
      pair.ruleset = pairRuleset pair.src pair.dst := by
  unfold zonePairsFor at spans
  dsimp only at spans
  split_ifs at spans with unzoned missing firewall both
  · cases spans
    cases member
  · cases spans
    simp only [List.mem_flatMap, List.mem_map] at member
    obtain ⟨src, inSource, dst, inTarget, rfl⟩ := member
    exact ⟨inSource, inTarget, rfl⟩

theorem placed_pairs (placed : placeRule locale live update cfg = .ok place) :
    zonePairsFor update.source update.target cfg.zones = .ok place.pairs := by
  obtain ⟨pairs, fromPairs, placed⟩ := bind_eq_ok.mp placed
  obtain ⟨chains, _, placed⟩ := bind_eq_ok.mp placed
  cases placed
  exact fromPairs

theorem placed_ruleset {pair : ZonePair}
    (placed : placeRule locale live update cfg = .ok place)
    (member : pair ∈ place.pairs) :
    pair.ruleset = pairRuleset pair.src pair.dst :=
  (mem_zonePairsFor (placed_pairs placed) member).2.2

/-- A rule is put into the rulesets of its pairs, or into one base chain. -/
theorem placed_chains (placed : placeRule locale live update cfg = .ok place) :
    (place.pairs ≠ [] ∧ ∀ chain, chain ∈ place.chains ↔
        ∃ pair ∈ place.pairs, chain = .name pair.ruleset) ∨
      (place.pairs = [] ∧ ∃ base, place.chains = [.base base]) := by
  obtain ⟨pairs, fromPairs, placed⟩ := bind_eq_ok.mp placed
  obtain ⟨chains, fromChains, placed⟩ := bind_eq_ok.mp placed
  cases placed
  unfold ruleChainsFor at fromChains
  dsimp only at fromChains
  split at fromChains
  · cases fromChains
  · obtain ⟨spanned, same, fromChains⟩ := bind_eq_ok.mp fromChains
    rw [fromPairs] at same
    cases same
    split at fromChains
    · rename_i some
      cases fromChains
      refine .inl ⟨some, fun chain => ?_⟩
      rw [(sortBy_perm _ _ _).mem_iff, List.mem_map]
      simp only [eq_comm]
    · rename_i none
      cases fromChains
      exact .inr ⟨not_not.mp none, _, rfl⟩

theorem placed_rule (placed : placeRule locale live update cfg = .ok place) :
    place.rule = if place.moved then nextRuleNumber cfg.rules
      else update.rule := by
  obtain ⟨pairs, _, placed⟩ := bind_eq_ok.mp placed
  obtain ⟨chains, _, placed⟩ := bind_eq_ok.mp placed
  cases placed
  rfl

/-- A rule that stays a rule of its kind is not rebuilt. -/
theorem placed_stays {rule : FirewallRule}
    (placed : placeRule locale (some rule) update cfg = .ok place)
    (stays : place.moved = false) :
    rule.isZone = decide (place.pairs ≠ []) ∧
      (place.pairs = [] → rule.chain = place.chain) := by
  obtain ⟨pairs, _, placed⟩ := bind_eq_ok.mp placed
  obtain ⟨chains, _, placed⟩ := bind_eq_ok.mp placed
  cases placed
  simp only [Option.any_some, Bool.or_eq_false_iff, decide_eq_false_iff_not,
    not_not, Bool.and_eq_false_iff] at stays
  refine ⟨stays.1, fun none => ?_⟩
  subst none
  have unzoned : rule.isZone = false := stays.1
  simpa [unzoned, RulePlacement.chain] using stays.2

/-- A zone rule that is put into zone pairs is not rebuilt. -/
theorem placed_zone {rule : FirewallRule}
    (placed : placeRule locale (some rule) update cfg = .ok place)
    (zone : rule.isZone = true) (paired : place.pairs ≠ []) :
    place.moved = false := by
  obtain ⟨pairs, _, placed⟩ := bind_eq_ok.mp placed
  obtain ⟨chains, _, placed⟩ := bind_eq_ok.mp placed
  cases placed
  simpa [zone] using paired

end Placing

/-! ## What operations are about -/

/-- The config rules an operation writes. -/
def Operation.Lands (locale : Locale) (cfg : FirewallConfig)
    (chain : RuleChain) (key : String) : Operation → Prop
  | .saveRule live update => ∃ place,
      placeRule locale live update cfg = .ok place ∧
        chain ∈ place.chains ∧ key = toString place.rule
  | .reorder order => ∃ entry ∈ renumberTargets order,
      chain ∈ entry.1.scopes.map RuleScope.chain ∧ key = toString entry.2
  | .savePolicy _ | .inspect _ | .enableLogging => ∃ rule ∈ cfg.rules,
      chain ∈ rule.scopes.map RuleScope.chain ∧ key = toString rule.rule
  | _ => False

/-- The config rules an operation deletes. -/
def Operation.Vacates (locale : Locale) (cfg : FirewallConfig)
    (chain : RuleChain) (number : Nat) : Operation → Prop
  | .saveRule (some live) update => ∃ place,
      placeRule locale (some live) update cfg = .ok place ∧
        chain ∈ live.scopes.map RuleScope.chain ∧
        (place.moved = true ∧ number = live.rule ∨
          place.moved = false ∧ chain ∉ place.chains ∧ number = place.rule)
  | .removeRule rule =>
      chain ∈ rule.scopes.map RuleScope.chain ∧ number = rule.rule
  | .reorder order => ∃ entry ∈ renumberTargets order,
      chain ∈ entry.1.scopes.map RuleScope.chain ∧ number = entry.1.rule
  | _ => False

/-- The zone pairs an operation leaves without rules. -/
def Operation.Empties (locale : Locale) (cfg : FirewallConfig)
    (pair : ZonePair) (operation : Operation) : Prop :=
  pairForChain cfg.zonePairs (.name pair.ruleset) = some pair ∧
    ∃ number, operation.Vacates locale cfg (.name pair.ruleset) number ∧
      ∀ rule ∈ cfg.rules,
        .name pair.ruleset ∈ rule.scopes.map RuleScope.chain →
        rule.rule = number

/-- The zone pairs an operation binds. -/
def Operation.Binds (locale : Locale) (cfg : FirewallConfig)
    (pair : ZonePair) : Operation → Prop
  | .saveRule live update => ∃ place,
      placeRule locale live update cfg = .ok place ∧ pair ∈ place.pairs ∧
        (cfg.zonePairs.any fun bound => bound.ruleset = pair.ruleset) = false
  | _ => False

/-- The zones an operation deletes. -/
def Operation.DropsZone (name : String) : Operation → Prop
  | .saveZone update => update.moved = some name
  | .removeZone zone => zone.name = name
  | _ => False

theorem chain_of_pair {pairs : List ZonePair} {chain : RuleChain}
    {pair : ZonePair} (found : pairForChain pairs chain = some pair) :
    chain = .name pair.ruleset ∧ pair ∈ pairs := by
  obtain ⟨name, named, found⟩ := Option.bind_eq_some_iff.mp found
  have same := List.find?_some found
  refine ⟨?_, List.mem_of_find?_eq_some found⟩
  cases chain with
  | base chain => cases named
  | name ruleset =>
      cases named
      rw [of_decide_eq_true same]

/-! ## Pieces -/

/-- The hidden accept of loopback traffic. -/
def loopbackRule (chain : BaseChain) : List VyosCommand :=
  let loopback := filterBase (.base chain) ++ ["rule", "2"]
  let ifaceNode := if chain = .input then Side.source.ifaceNode
    else Side.destination.ifaceNode
  [.set (loopback ++ ["action", "accept"]),
    .set (loopback ++ [ifaceNode, "name", "lo"]),
    .set (loopback ++ ["description", sysMark ++
      " allow loopback (WebUI/API)"])]

inductive Piece (locale : Locale) (cfg : FirewallConfig)
    (operation : Operation) : List VyosCommand → Prop where
  | group {command : VyosCommand} {more : Path} :
      command.path = "firewall" :: "group" :: more →
      Piece locale cfg operation [command]
  /-- A leaf of a config rule, its name aside. -/
  | copy {command : VyosCommand} {chain : RuleChain} {key leaf : String}
      {more : Path} : operation.Lands locale cfg chain key →
      leaf ≠ "description" → command.path = rulePath chain key ++ leaf :: more →
      Piece locale cfg operation [command]
  | name {live : Option FirewallRule} {update : RuleUpdate}
      {place : RulePlacement} {chain : RuleChain} {text : String} :
      operation = .saveRule live update →
      placeRule locale live update cfg = .ok place → chain ∈ place.chains →
      update.name.bind trimmed = some text →
      Piece locale cfg operation
        [.set (ruleBase chain place.rule ++ ["description", text])]
  | unname {live : Option FirewallRule} {update : RuleUpdate}
      {place : RulePlacement} {chain : RuleChain} :
      operation = .saveRule live update →
      placeRule locale live update cfg = .ok place → chain ∈ place.chains →
      Piece locale cfg operation
        [.delete (ruleBase chain place.rule ++ ["description"])]
  | rebuild {order : List FirewallRule} {entry : FirewallRule × Nat}
      {scope : RuleScope} : operation = .reorder order →
      entry ∈ renumberTargets order → scope ∈ entry.1.scopes →
      Piece locale cfg operation
        (cfgToCommands (ruleBase scope.chain entry.2) scope.raw)
  | drop {chain : RuleChain} {number : Nat} :
      operation.Vacates locale cfg chain number →
      Piece locale cfg operation [.delete (ruleBase chain number)]
  /-- A pair goes with its ruleset when its last rule goes. -/
  | cleanup {chain : RuleChain} {number : Nat} {pair : ZonePair} :
      operation.Vacates locale cfg chain number →
      pairForChain cfg.zonePairs chain = some pair →
      (∀ rule ∈ cfg.rules, chain ∈ rule.scopes.map RuleScope.chain →
        rule.rule = number) →
      Piece locale cfg operation
        [.delete (bindingPath pair.src pair.dst),
          .delete (filterBase (.name pair.ruleset))]
  | flow : Piece locale cfg operation
      (ipsFlowRuleCommands (filterBase (.base .forward)))
  | freshFlow : Piece locale cfg operation
      (.delete (rulePath (.base .forward) "1") ::
        ipsFlowRuleCommands (filterBase (.base .forward)))
  | replies (chain : BaseChain) {number : String} :
      number = "1" ∨ number = "2" →
      Piece locale cfg operation (repliesRule (rulePath (.base chain) number))
  | loopback (chain : BaseChain) :
      Piece locale cfg operation (loopbackRule chain)
  | bind {pair : ZonePair} : operation.Binds locale cfg pair →
      Piece locale cfg operation
        [.set (filterBase (.name pair.ruleset) ++ ["description",
            autoMark ++ " " ++ pair.src ++ " to " ++ pair.dst]),
          .set (bindingPath pair.src pair.dst ++
            ["firewall", "name", pair.ruleset])]
  | state : Piece locale cfg operation (ensureStatePolicy cfg)
  | seed {chain : BaseChain} : chain ≠ .forward →
      Piece locale cfg operation
        [.set (filterBase (.base chain) ++ ["default-action", "accept"])]
  | logging (chain : BaseChain) : Piece locale cfg operation
      [.set (filterBase (.base chain) ++ ["default-log"])]
  | default {action : DefaultAction} : operation = .changeDefault action →
      Piece locale cfg operation
        [.set (filterBase (.base .forward) ++ ["default-action", action.text])]
  /-- A leaf of a zone. -/
  | zone {update : ZoneUpdate} {command : VyosCommand} {leaf : String}
      {more : Path} : operation = .saveZone update → leaf ≠ "from" →
      command.path = zoneBase update.name ++ leaf :: more →
      Piece locale cfg operation [command]
  | zoneNode {update : ZoneUpdate} : operation = .saveZone update →
      Piece locale cfg operation [.set (zoneBase update.name)]
  | dropZone {name : String} : operation.DropsZone name →
      Piece locale cfg operation [.delete (zoneBase name)]
  | dropPair {zone : FirewallZone} {pair : ZonePair} :
      operation = .removeZone zone → pair ∈ cfg.zonePairs →
      pair.src = zone.name →
      Piece locale cfg operation [.delete (bindingPath pair.src pair.dst)]
  | dropRuleset {zone : FirewallZone} {pair : ZonePair} :
      operation = .removeZone zone → pair ∈ cfg.zonePairs →
      pair.src = zone.name ∨ pair.dst = zone.name →
      Piece locale cfg operation
        [.delete (filterBase (.name pair.ruleset))]
  | elsewhere {command : VyosCommand} {head : String} {more : Path} :
      head ≠ "firewall" → command.path = head :: more →
      Piece locale cfg operation [command]

/-! ## Where the parts of a change write -/

section Parts

theorem below_leafDiff (path : Path) (live desired : Option String) :
    Below path (leafDiff path live desired) := by
  refine .ite (fun _ => .nil) fun _ => ?_
  cases desired with
  | none => exact .single (List.prefix_refl _)
  | some text => exact .single (List.prefix_append _ _)

theorem below_flagDiff (path : Path) (live desired : Bool) :
    Below path (flagDiff path live desired) :=
  .ite (fun _ => .nil) fun _ => .ite
    (fun _ => .single (List.prefix_refl _))
    fun _ => .single (List.prefix_refl _)

theorem below_diffLeaf (path : Path) (live desired : List String) :
    Below path (diffLeaf path live desired) :=
  .append (.map fun _ _ => List.prefix_append _ _)
    (.map fun _ _ => List.prefix_append _ _)

/-- A leaf of a zone other than its bindings. -/
def ZoneLeaf (name : String) (path : Path) : Prop :=
  ∃ leaf more, leaf ≠ "from" ∧ path = zoneBase name ++ leaf :: more

theorem zoneLeaf_of_below {name leaf : String} {rest : Path}
    {commands : List VyosCommand} (other : leaf ≠ "from")
    (below : Below (zoneBase name ++ leaf :: rest) commands) :
    Along (ZoneLeaf name) commands :=
  below.mono fun _ leads => by
    obtain ⟨more, rfl⟩ := leads
    exact ⟨leaf, rest ++ more, other, by simp⟩

theorem zoneLeaves_zoneWrites (live : Option FirewallZone)
    (update : ZoneUpdate) :
    Along (ZoneLeaf update.name) (zoneWrites live update) := by
  have leaf : ∀ leaf more, leaf ≠ "from" →
      ZoneLeaf update.name (zoneBase update.name ++ leaf :: more) :=
    fun leaf more other => ⟨leaf, more, other, rfl⟩
  refine .append (.append (.append (.append (.append ?_ ?_) ?_) ?_) ?_)
    (.ite (fun _ => .nil) fun _ => ?_)
  · exact zoneLeaf_of_below (by decide) (below_leafDiff _ _ _)
  · exact zoneLeaf_of_below (by decide) (below_flagDiff _ _ _)
  · exact zoneLeaf_of_below (by decide) (below_diffLeaf _ _ _)
  · exact zoneLeaf_of_below (by decide) (below_leafDiff _ _ _)
  · exact zoneLeaf_of_below (by decide) (below_flagDiff _ _ _)
  · cases update.intraZone with
    | none => exact .single (leaf _ _ (by decide))
    | some action => exact .single (leaf _ _ (by decide))

mutual

theorem below_cfgToCommands (base : Path) :
    (cfg : Cfg) → Below base (cfgToCommands base cfg)
  | .node (entry :: entries) => by
      rw [cfgToCommands]
      exact below_entriesToCommands base (entry :: entries)
  | .node [] | .value _ | .values _ | .scalar _ | .null => by
      rw [cfgToCommands]
      · exact .single (List.prefix_refl _)
      · simp

theorem below_entriesToCommands (base : Path) :
    (entries : List (String × Cfg)) →
      Below base (entriesToCommands base entries)
  | [] => by
      rw [entriesToCommands]
      exact .nil
  | (key, .value text) :: rest => by
      rw [entriesToCommands]
      refine .cons ?_ (below_entriesToCommands base rest)
      split <;> exact List.prefix_append _ _
  | (key, .scalar text) :: rest => by
      rw [entriesToCommands]
      exact .cons (List.prefix_append _ _) (below_entriesToCommands base rest)
  | (key, .values texts) :: rest => by
      rw [entriesToCommands]
      exact .append (.map fun _ _ => List.prefix_append _ _)
        (below_entriesToCommands base rest)
  | (key, .node entries) :: rest => by
      rw [entriesToCommands]
      refine .append ?_ (below_entriesToCommands base rest)
      exact Below.shorten (below_cfgToCommands (base ++ [key]) (.node entries))
  | (key, .null) :: rest => by
      rw [entriesToCommands]
      exact .cons (List.prefix_append _ _) (below_entriesToCommands base rest)

end

end Parts

/-- A rule's representative scope is one of its scopes. -/
theorem chain_mem_scopes {locale : Locale} {root : Cfg} {rule : FirewallRule}
    (member : rule ∈ (fetchFirewall locale root).rules) :
    rule.chain ∈ rule.scopes.map RuleScope.chain := by
  have single : ∀ (filter : Cfg) (chain : RuleChain),
      rule ∈ chainRules filter chain →
        rule.chain ∈ rule.scopes.map RuleScope.chain := by
    intro filter chain inChain
    have scopes := single_chainRules rule inChain
    rw [FirewallRule.Single] at scopes
    simp [scopes]
  simp only [fetchFirewall, parseChain, List.mem_insertionSort,
    List.mem_append] at member
  rcases member with ((inChain | inChain) | inChain) | inZones
  · exact single _ _ inChain
  · exact single _ _ inChain
  · exact single _ _ inChain
  · obtain ⟨head, rest, _, rfl⟩ := mem_groupZoneRules inZones
    simp

/-! ## Every batch is made of pieces -/

section Composing

variable {locale : Locale} {cfg : FirewallConfig} {operation : Operation}

theorem composed_groups {node name : String} {more : Path}
    {commands : List VyosCommand}
    (below : Below (groupPath node name ++ more) commands) :
    Composed (Piece locale cfg operation) commands := by
  refine .ofAlong (fun command leads => ?_) below
  obtain ⟨rest, leads⟩ := leads
  exact .group leads.symm

theorem composed_copyPaths {live : Option FirewallRule} {update : RuleUpdate}
    {place : RulePlacement} {commands : List VyosCommand}
    (placed : placeRule locale live update cfg = .ok place)
    (copies : Along (CopyPath place) commands) :
    Composed (Piece locale cfg (.saveRule live update)) commands := by
  refine .ofAlong (fun command written => ?_) copies
  generalize same : command.path = path at written
  cases written with
  | body member other => exact .copy ⟨place, placed, member, rfl⟩ other same
  | group more => exact .group same

theorem composed_ensureForwardBaseline :
    Composed (Piece locale cfg operation) (ensureForwardBaseline cfg) :=
  .ite (fun _ => .nil) fun _ =>
    .append (.one .flow) (.one (.replies .forward (.inr rfl)))

theorem composed_ensureIpsFlowBaseline (out : List VyosCommand) :
    Composed (Piece locale cfg operation) (ensureIpsFlowBaseline out cfg) :=
  .ite (fun _ => .nil) fun _ => .ite (fun _ => .nil) fun _ => .ite
    (fun _ => composed_ensureForwardBaseline)
    fun _ => .ite (fun _ => .nil) fun _ =>
      .append (.one .freshFlow) (.one (.replies .forward (.inr rfl)))

theorem composed_ensureChainSetup (chain : BaseChain)
    (other : chain ≠ .forward) :
    Composed (Piece locale cfg operation) (ensureChainSetup chain cfg) :=
  .append (.ite (fun _ => .nil) fun _ =>
    .append (.one (.replies chain (.inl rfl))) (.one (.loopback chain)))
    (.ite (fun _ => .one (.seed other)) fun _ => .nil)

theorem composed_autoGroupDeletes (rule : FirewallRule)
    (autoGroups : List AutoGroup) :
    Composed (Piece locale cfg operation)
      (autoGroupDeletes rule autoGroups) := by
  have groups : Along (fun path => ∃ more,
      path = "firewall" :: "group" :: more)
      (autoGroupDeletes rule autoGroups) := by
    refine .flatMap fun side _ => ?_
    intro command member
    obtain ⟨⟨type, name⟩, _, made⟩ := List.mem_filterMap.mp member
    obtain ⟨_, same⟩ := Option.ite_none_right_eq_some.mp made
    cases same
    exact ⟨_, rfl⟩
  refine .ofAlong ?_ groups
  rintro command ⟨more, path⟩
  exact .group path

theorem composed_emptyPairCleanup {chain : RuleChain} {number : Nat}
    (vacates : operation.Vacates locale cfg chain number) :
    Composed (Piece locale cfg operation)
      (emptyPairCleanup cfg chain [number]) := by
  unfold emptyPairCleanup
  split
  · exact .nil
  · rename_i pair found
    refine .ite (fun _ => .nil) fun last => .one (.cleanup vacates found ?_)
    intro rule member inScopes
    by_contra other
    refine last (List.any_eq_true.mpr ⟨rule, member, ?_⟩)
    obtain ⟨scope, member, same⟩ := List.mem_map.mp inScopes
    simpa [other] using ⟨scope, member, same⟩

theorem composed_clears {rule : FirewallRule}
    (vacates : ∀ chain ∈ rule.scopes.map RuleScope.chain,
      operation.Vacates locale cfg chain rule.rule) :
    Composed (Piece locale cfg operation) (rule.scopes.flatMap fun scope =>
      .delete (ruleBase scope.chain rule.rule) ::
        emptyPairCleanup cfg scope.chain [rule.rule]) := by
  refine .flatMap fun scope member => ?_
  have vacates := vacates scope.chain (List.mem_map_of_mem member)
  exact .cons (.drop vacates) (composed_emptyPairCleanup vacates)

theorem composed_ensureZonePair {live : Option FirewallRule}
    {update : RuleUpdate} {place : RulePlacement} {pair : ZonePair}
    (placed : placeRule locale live update cfg = .ok place)
    (member : pair ∈ place.pairs) :
    Composed (Piece locale cfg (.saveRule live update))
      (ensureZonePair cfg pair) :=
  .ite (fun _ => .nil) fun unbound => .one (.bind ⟨place, placed, member,
    Bool.not_eq_true _ ▸ unbound⟩)

theorem composed_diffScopes {live : Option FirewallRule} {update : RuleUpdate}
    {place : RulePlacement}
    (placed : placeRule locale live update cfg = .ok place) :
    Composed (Piece locale cfg (.saveRule live update))
      (diffScopes live place cfg) := by
  refine .append (.append (.ite (fun moved => ?_) fun _ => .nil) ?_)
    (.ite (fun _ => .append (.one .state) (.flatMap fun pair member =>
      composed_ensureZonePair placed member)) fun _ => ?_)
  · cases live with
    | none => exact .nil
    | some live =>
        refine .append ?_ (composed_autoGroupDeletes _ _)
        exact composed_clears fun chain member =>
          ⟨place, placed, member, .inl ⟨moved, rfl⟩⟩
  · refine .flatMap fun chain member => .ite (fun _ => .nil) fun dropped => ?_
    split at member
    · cases member
    · rename_i stays
      cases live with
      | none => cases member
      | some live =>
          have vacates : Operation.Vacates locale cfg chain place.rule
              (.saveRule (some live) update) :=
            ⟨place, placed, member, .inr ⟨Bool.not_eq_true _ ▸ stays,
              dropped, rfl⟩⟩
          exact .cons (.drop vacates) (composed_emptyPairCleanup vacates)
  · split
    · exact .nil
    · exact .nil
    · exact composed_ensureChainSetup _ (by assumption)

theorem composed_diffRule {live : Option FirewallRule} {update : RuleUpdate}
    {commands : List VyosCommand}
    (saved : diffRule locale live update cfg = .ok commands) :
    Composed (Piece locale cfg (.saveRule live update)) commands := by
  obtain ⟨parts, rfl⟩ := diffRule_parts saved
  have flow : Composed (Piece locale cfg (.saveRule live update))
      parts.flow := by
    rcases parts.flow_eq with none | ⟨out, some⟩
    · exact none ▸ .nil
    · exact some ▸ composed_ensureIpsFlowBaseline out
  have baseline : Composed (Piece locale cfg (.saveRule live update))
      parts.baseline := by
    rcases parts.baseline_eq with none | some
    · exact none ▸ .nil
    · exact some ▸ composed_ensureForwardBaseline
  have names : Composed (Piece locale cfg (.saveRule live update))
      parts.names := by
    rw [parts.names_eq]
    refine .flatMap fun chain member => .ite (fun _ => .nil) fun _ => ?_
    split
    · rename_i text named
      rw [List.append_assoc]
      exact .one (.name rfl parts.placed member named)
    · exact .one (.unname rfl parts.placed member)
  exact .append (composed_diffScopes parts.placed) <|
    .append (composed_copyPaths parts.placed (copyPaths_diffAction _ _)) <|
    .append flow <| .append names <|
    .append (composed_copyPaths parts.placed parts.body_paths) baseline

theorem composed_ipsRuleCommands {changes : List (FirewallRule × Bool)}
    {rule : FirewallRule} (member : rule ∈ cfg.rules) (enabled : Bool) :
    Composed (Piece locale cfg (.inspect changes))
      (ipsRuleCommands rule enabled cfg) := by
  refine .ite (fun _ => .nil) fun _ => .append (.flatMap fun scope inScopes =>
    ?_) (.ite (fun _ => composed_ensureIpsFlowBaseline _) fun _ => .nil)
  have lands : Operation.Lands locale cfg scope.chain (toString rule.rule)
      (.inspect changes) :=
    ⟨rule, member, List.mem_map_of_mem inScopes, rfl⟩
  refine .ite (fun _ => ?_) fun _ => ?_
  all_goals
    exact .cons (.copy lands (by decide) rfl) <|
      .cons (.copy lands (by decide) rfl) <|
      .cons (.copy lands (by decide) rfl) <|
      .one (.copy lands (by decide) rfl)

theorem composed_reorderCommands (order : List FirewallRule) :
    Composed (Piece locale cfg (.reorder order)) (reorderCommands order) :=
  .append
    (.flatMap fun entry member => .map fun _ inScopes =>
      .drop ⟨entry, member, List.mem_map_of_mem inScopes, rfl⟩)
    (.flatMap fun _ member => .flatMap fun _ inScopes =>
      .one (.rebuild rfl member inScopes))

theorem composed_diffZone {update : ZoneUpdate} {commands : List VyosCommand}
    (saved : diffZone cfg update = .ok commands) :
    Composed (Piece locale cfg (.saveZone update)) commands := by
  simp only [diffZone] at saved
  split at saved
  · cases saved
  · cases saved
    refine .append (.append (.map fun name moved => ?_)
      (.ite (fun _ => .one (.zoneNode rfl)) fun _ => ?_))
      (.ite (fun _ => .nil) fun _ => .one .state)
    · exact .dropZone (Option.mem_toList.mp moved)
    · refine .ofAlong ?_ (zoneLeaves_zoneWrites _ update)
      rintro command ⟨leaf, more, other, path⟩
      exact .zone rfl other path

theorem composed_deleteZone (zone : FirewallZone) :
    Composed (Piece locale cfg (.removeZone zone)) (deleteZone cfg zone) := by
  refine .append (.flatMap fun pair member => .ite (fun _ => .nil)
    fun part => .append (.ite (fun _ => .nil) fun other => .one ?_) (.one ?_))
    (.one (.dropZone rfl))
  · refine .dropPair rfl member ?_
    by_contra different
    exact part ⟨different, other⟩
  · refine .dropRuleset rfl member ?_
    by_contra neither
    exact part (not_or.mp neither)

/-- Every batch of an offered operation is a sequence of pieces. -/
theorem composed_commands {root : Cfg} {commands : List VyosCommand}
    (offered : operation.Offered (fetchFirewall locale root))
    (made : operation.commands locale (fetchFirewall locale root) =
      .ok commands) :
    Composed (Piece locale (fetchFirewall locale root) operation)
      commands := by
  cases operation with
  | saveAlias update =>
      cases made
      exact .append (.map fun _ _ => .group rfl) <| .ite
        (fun _ => .one (.group rfl)) fun _ => .append
        (composed_groups (below_leafDiff _ _ _))
        (composed_groups (below_diffLeaf _ _ _))
  | removeAlias existing =>
      cases made
      exact .one (.group rfl)
  | savePolicy update =>
      cases made
      refine .append (.append (.append (.map fun _ _ => .group rfl)
        (composed_groups (below_leafDiff _ _ _)))
        (composed_groups (below_diffLeaf _ _ _)))
        (.ite (fun _ => .map fun rule member => ?_) fun _ => .nil)
      have member := List.mem_of_mem_filter member
      exact .copy ⟨rule, member, chain_mem_scopes member, rfl⟩ (by decide) rfl
  | removePolicy name =>
      cases made
      exact .one (.group rfl)
  | saveZone update => exact composed_diffZone made
  | removeZone zone =>
      cases made
      exact composed_deleteZone zone
  | saveRule live update => exact composed_diffRule made
  | removeRule rule =>
      cases made
      exact .append (.append (composed_clears fun _ member => ⟨member, rfl⟩)
        (composed_autoGroupDeletes _ _)) .nil
  | inspect changes =>
      cases made
      exact .flatMap fun change member =>
        composed_ipsRuleCommands (offered change member) _
  | reorder order =>
      cases made
      exact composed_reorderCommands order
  | changeDefault action =>
      obtain ⟨_, rfl⟩ := setDefaultAction_eq_ok.mp made
      exact .append (.ite (fun _ => composed_ensureForwardBaseline)
        fun _ => .nil) (.one (.default rfl))
  | enableLogging =>
      cases made
      refine .append (.append (.append (.append composed_ensureForwardBaseline
        (composed_ensureChainSetup .input (by decide)))
        (composed_ensureChainSetup .output (by decide)))
        (.flatMap fun chain _ => .ite (fun _ => .nil)
          fun _ => .one (.logging chain)))
        (.map fun rule member => ?_)
      have member := List.mem_of_mem_filter member
      exact .copy ⟨rule, member, chain_mem_scopes member, rfl⟩ (by decide) rfl
  | elsewhere commands =>
      cases made
      have apart : Along (fun path => ∃ head more,
        path = head :: more ∧ head ≠ "firewall") commands := offered
      refine .ofAlong ?_ apart
      rintro command ⟨head, more, path, other⟩
      exact .elsewhere other path

end Composing

/-! ## Paths that few pieces write -/

/-- A path of the firewall's part that no rule, ruleset or group is above or
below, and that an operation has no cause to write otherwise, unless as part of
the global state match. -/
structure Quiet (locale : Locale) (cfg : FirewallConfig)
    (operation : Operation) (probe : Path) : Prop where
  inside : probe.head? = some "firewall"
  group : ∀ more, Diverges ("firewall" :: "group" :: more) probe
  rule : ∀ chain more, Diverges (filterBase chain ++ "rule" :: more) probe
  ruleset : ∀ more,
    Diverges ("firewall" :: "ipv4" :: "name" :: more) probe
  seed : ∀ chain ≠ .forward,
    Diverges (filterBase (.base chain) ++ ["default-action", "accept"]) probe
  logging : ∀ chain,
    Diverges (filterBase (.base chain) ++ ["default-log"]) probe
  default : ∀ action, operation = .changeDefault action → Diverges
    (filterBase (.base .forward) ++ ["default-action", action.text]) probe
  zone : cfg.zonePairs ≠ [] ∨ (∃ pair, operation.Binds locale cfg pair) ∨
      (∃ name, operation.DropsZone name) ∨
      (∃ update, operation = .saveZone update) →
    ∀ more, Diverges ("firewall" :: "zone" :: more) probe

theorem spares_ensureStatePolicy {probe : Path} (cfg : FirewallConfig)
    (apart : ∀ more, Diverges ("firewall" :: "global-options" :: more) probe) :
    Spares probe (ensureStatePolicy cfg) :=
  .ite (fun _ => .nil) fun _ => .cons (apart _) (.single (apart _))

namespace Quiet

variable {locale : Locale} {cfg : FirewallConfig} {operation : Operation}
  {probe : Path} (quiet : Quiet locale cfg operation probe)
include quiet

theorem copy (chain : RuleChain) (number : Nat) :
    Diverges (ruleBase chain number) probe :=
  quiet.rule chain _

theorem below (chain : RuleChain) (number : Nat) (more : Path) :
    Diverges (ruleBase chain number ++ more) probe := by
  rw [ruleBase, List.append_assoc]
  exact quiet.rule chain _

theorem path (chain : RuleChain) (key : String) (more : Path) :
    Diverges (rulePath chain key ++ more) probe := by
  rw [List.append_assoc]
  exact quiet.rule chain _

theorem flow :
    Spares probe (ipsFlowRuleCommands (filterBase (.base .forward))) := by
  refine baselinePaths_ipsFlowRuleCommands.mono fun path written => ?_
  cases written with
  | rule more _ => exact quiet.rule _ _

/-- Of a piece nothing but the global state match touches a quiet path. -/
theorem touches {chunk : List VyosCommand}
    (piece : Piece locale cfg operation chunk) :
    Each (fun command => Diverges command.path probe ∨
      command ∈ ensureStatePolicy cfg) chunk := by
  have apart : ∀ {commands : List VyosCommand}, Spares probe commands →
      Each (fun command => Diverges command.path probe ∨
        command ∈ ensureStatePolicy cfg) commands :=
    fun spared => spared.imp fun _ => .inl
  cases piece with
  | group path => exact apart (.single (path ▸ quiet.group _))
  | copy _ _ path => exact apart (.single (path ▸ quiet.path _ _ _))
  | name _ _ _ _ => exact apart (.single (quiet.below _ _ _))
  | unname _ _ _ => exact apart (.single (quiet.below _ _ _))
  | rebuild _ _ _ =>
      exact apart ((below_cfgToCommands _ _).spares (quiet.below _ _))
  | drop _ => exact apart (.single (quiet.copy _ _))
  | cleanup _ found _ =>
      obtain ⟨_, _, found⟩ := Option.bind_eq_some_iff.mp found
      have paired := List.ne_nil_of_mem (List.mem_of_find?_eq_some found)
      exact apart (.cons (quiet.zone (.inl paired) _)
        (.single (quiet.ruleset _)))
  | flow => exact apart quiet.flow
  | freshFlow => exact apart (.cons (quiet.rule _ _) quiet.flow)
  | replies chain _ =>
      exact apart (.cons (quiet.path _ _ _) (.cons (quiet.path _ _ _)
        (.cons (quiet.path _ _ _) (.single (quiet.path _ _ _)))))
  | loopback chain =>
      exact apart (.cons (quiet.path _ "2" _) (.cons (quiet.path _ "2" _)
        (.single (quiet.path _ "2" _))))
  | bind binds =>
      exact apart (.cons (quiet.ruleset _)
        (.single (quiet.zone (.inr (.inl ⟨_, binds⟩)) _)))
  | state => exact fun _ => .inr
  | seed other => exact apart (.single (quiet.seed _ other))
  | logging chain => exact apart (.single (quiet.logging chain))
  | default same => exact apart (.single (quiet.default _ same))
  | zone same _ path =>
      exact apart
        (.single (path ▸ quiet.zone (.inr (.inr (.inr ⟨_, same⟩))) _))
  | zoneNode same =>
      exact apart (.single (quiet.zone (.inr (.inr (.inr ⟨_, same⟩))) _))
  | dropZone drops =>
      exact apart (.single (quiet.zone (.inr (.inr (.inl ⟨_, drops⟩))) _))
  | dropPair _ member _ =>
      exact apart
        (.single (quiet.zone (.inl (List.ne_nil_of_mem member)) _))
  | dropRuleset _ _ _ => exact apart (.single (quiet.ruleset _))
  | elsewhere other path =>
      obtain ⟨rest, inside⟩ := List.head?_eq_some_iff.mp quiet.inside
      refine apart (.single ?_)
      rw [path, inside]
      exact diverges_cons.mpr fun same => absurd same other

/-- A batch leaves a quiet path alone if the global state match does. -/
theorem commands {commands : List VyosCommand}
    (composed : Composed (Piece locale cfg operation) commands)
    (state : Spares probe (ensureStatePolicy cfg)) : Spares probe commands :=
  (composed.each fun _ piece => quiet.touches piece).imp
    fun command touch => touch.elim id (state command)

end Quiet

end QuartzFire.Firewall
