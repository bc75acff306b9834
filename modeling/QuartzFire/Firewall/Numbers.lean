import QuartzFire.Firewall.Effects

/-!
# Rule numbers

A number identifies a rule across all scopes: two config rules of one number
are shown as one rule, the copies of a rule of several zone pairs.  Numbers
are handed out over all scopes at once and move with their rule, and stay
distinct so long as no pair is bound to a ruleset that holds rules already.
-/

namespace QuartzFire.Firewall

open ConfigTree TransitionSystem

/-- Distinct rules have distinct numbers. -/
def DistinctNumbers (cfg : FirewallConfig) : Prop :=
  (cfg.rules.map FirewallRule.rule).Nodup

instance (cfg : FirewallConfig) : Decidable (DistinctNumbers cfg) := by
  unfold DistinctNumbers
  infer_instance

/-- Scopes that one rule may be in. -/
def Shares (chain other : RuleChain) : Prop :=
  chain = other ∨ chain.isBaseChain = false ∧ other.isBaseChain = false

theorem Shares.symm {chain other : RuleChain} (shares : Shares chain other) :
    Shares other chain :=
  shares.imp Eq.symm And.symm

variable {schema : CommandSchema} {locale : Locale} {root : Cfg}

theorem shares_of_rule {rule : FirewallRule}
    (member : rule ∈ (fetchFirewall locale root).rules)
    {chain other : RuleChain}
    (first : chain ∈ rule.scopes.map RuleScope.chain)
    (second : other ∈ rule.scopes.map RuleScope.chain) :
    Shares chain other := by
  rcases scopes_fetchFirewall member with ⟨base, _, one⟩ | ⟨_, _, named⟩
  · simp only [one, List.map_cons, List.map_nil, List.mem_singleton]
      at first second
    exact .inl (first.trans second.symm)
  · obtain ⟨scope, inScopes, rfl⟩ := List.mem_map.mp first
    obtain ⟨another, others, rfl⟩ := List.mem_map.mp second
    obtain ⟨ruleset, same⟩ := named scope inScopes
    obtain ⟨probe, equal⟩ := named another others
    exact .inr ⟨by rw [same]; rfl, by rw [equal]; rfl⟩

/-! ## Numbers as read -/

/-- Grouping gives one rule for each number. -/
theorem rule_groupZoneRules (locale : Locale) (rules : List FirewallRule) :
    (groupZoneRules locale rules).map FirewallRule.rule =
      distinct (rules.map FirewallRule.rule) := by
  have group : ∀ number ∈ distinct (rules.map FirewallRule.rule),
      (mergeCopies (locale.sortBy (fun copy => copy.chain.text)
        (rules.filter fun rule => rule.rule = number))).map
        FirewallRule.rule = [number] := by
    intro number member
    rw [mem_distinct, List.mem_map] at member
    obtain ⟨rule, inRules, rfl⟩ := member
    have sorted := sortBy_perm locale (fun copy => copy.chain.text)
      (rules.filter fun other => other.rule = rule.rule)
    have inside := sorted.mem_iff.mpr
      (List.mem_filter.mpr ⟨inRules, by simp⟩)
    have numbered : ∀ copy ∈ locale.sortBy (fun copy => copy.chain.text)
        (rules.filter fun other => other.rule = rule.rule),
        copy.rule = rule.rule := by
      intro copy inCopies
      simpa using (List.mem_filter.mp (sorted.mem_iff.mp inCopies)).2
    cases copies : locale.sortBy (fun copy => copy.chain.text)
        (rules.filter fun other => other.rule = rule.rule) with
    | nil =>
        rw [copies] at inside
        cases inside
    | cons head rest =>
        rw [copies] at numbered
        simp [mergeCopies, numbered head (by simp)]
  rw [groupZoneRules, List.map_flatMap, List.flatMap_congr group]
  simp

theorem nodup_rule_chainRules (rendered : Rendered schema.toSchema root)
    (chain : RuleChain) :
    ((chainRules (chainFilter (childNode (fetchFirewallConfig root) "ipv4")
      chain) chain).map FirewallRule.rule).Nodup := by
  have proper : filterBase chain ++ ["rule"] ≠ [] := by simp
  have decimal : ∀ entry ∈ (nodeAt (filterBase chain ++ ["rule"])
      root).entries, entry.1 = toString (ruleNumber entry.1) := by
    intro entry member
    refine rendered.decimal chain entry.1 entry.2 ?_
    simpa using (mem_nodeAt_entries rendered.conforms proper).mp member
  have keys := (sublist_keys chain decimal).nodup
    (nodup_nodeAt_entries rendered.conforms proper)
  rw [chainFilter_eq_nodeAt, chainRules, childNode_nodeAt]
  refine List.Nodup.of_map (fun number : Nat => toString number) ?_
  rw [List.map_map]
  exact keys

theorem occupied_of_chainRules (rendered : Rendered schema.toSchema root)
    {chain : RuleChain} (read : chain ∈ readChains root) {rule : FirewallRule}
    (member : rule ∈ chainRules
      (chainFilter (childNode (fetchFirewallConfig root) "ipv4") chain)
      chain) : Occupied root chain rule.rule := by
  have placed : (⟨rule.chain, rule.rule, rule.raw⟩ : Placement) ∈
      placements (chainRules (chainFilter
        (childNode (fetchFirewallConfig root) "ipv4") chain) chain) := by
    rw [placements_of_single single_chainRules]
    exact List.mem_map_of_mem member
  obtain ⟨same, found, shown⟩ := (mem_chainRules rendered).mp placed
  cases same
  exact ⟨rule.raw, read, found, shown⟩

/-- Numbers are distinct when config rules of one number are copies of one
rule. -/
theorem distinctNumbers_iff (rendered : Rendered schema.toSchema root)
    (locale : Locale) :
    DistinctNumbers (fetchFirewall locale root) ↔
      ∀ chain other number, Occupied root chain number →
        Occupied root other number → Shares chain other := by
  constructor
  · intro distinct chain other number first second
    rw [occupied_iff rendered locale] at first second
    obtain ⟨rule, member, inScopes, rfl⟩ := first
    obtain ⟨another, others, within, same⟩ := second
    have one : another = rule :=
      List.inj_on_of_nodup_map distinct others member same
    subst one
    exact shares_of_rule others inScopes within
  · intro shares
    let numbers := fun chain => (chainRules (chainFilter
      (childNode (fetchFirewallConfig root) "ipv4") chain) chain).map
      FirewallRule.rule
    have apart : ∀ {chain other}, chain ∈ readChains root →
        other ∈ readChains root → ¬ Shares chain other →
        ∀ left ∈ numbers chain, ∀ right ∈ numbers other, left ≠ right := by
      rintro chain other read reads unlike left inLeft right inRight rfl
      obtain ⟨rule, member, rfl⟩ := List.mem_map.mp inLeft
      obtain ⟨another, others, same⟩ := List.mem_map.mp inRight
      exact unlike (shares _ _ _ (occupied_of_chainRules rendered read member)
        (same ▸ occupied_of_chainRules rendered reads others))
    have bases : ∀ {chain other : BaseChain}, chain ≠ other →
        ∀ left ∈ numbers (.base chain), ∀ right ∈ numbers (.base other),
          left ≠ right := by
      intro chain other different
      refine apart (mem_readChains_base _) (mem_readChains_base _) ?_
      rintro (same | ⟨base, _⟩)
      · cases same
        exact different rfl
      · cases base
    have zones : ∀ (chain : BaseChain), ∀ left ∈ numbers (.base chain),
        ∀ right ∈ distinct (((distinct ((parseZonePairs
          (fetchFirewallConfig root)).map ZonePair.ruleset)).flatMap
          fun ruleset => chainRules (chainFilter
            (childNode (fetchFirewallConfig root) "ipv4") (.name ruleset))
            (.name ruleset)).map FirewallRule.rule), left ≠ right := by
      intro chain left inLeft right inRight
      rw [mem_distinct, List.map_flatMap, List.mem_flatMap] at inRight
      obtain ⟨ruleset, bound, inRight⟩ := inRight
      refine apart (mem_readChains_base chain)
        (by simpa [readChains] using bound) ?_ left inLeft right inRight
      rintro (same | ⟨base, _⟩)
      · cases same
      · cases base
    simp only [DistinctNumbers, fetchFirewall, parseChain]
    rw [((List.perm_insertionSort _ _).map _).nodup_iff]
    simp only [List.map_append, rule_groupZoneRules, List.nodup_append,
      List.mem_append]
    refine ⟨⟨⟨nodup_rule_chainRules rendered _,
      nodup_rule_chainRules rendered _, bases (by decide)⟩,
      nodup_rule_chainRules rendered _, ?_⟩, nodup_distinct _, ?_⟩
    · rintro left (inForward | inInput)
      · exact bases (by decide) left inForward
      · exact bases (by decide) left inInput
    · rintro left ((inForward | inInput) | inOutput)
      · exact zones _ left inForward
      · exact zones _ left inInput
      · exact zones _ left inOutput

/-! ## Where a saved rule lands -/

section Landing

variable {live : Option FirewallRule} {update : RuleUpdate}
  {cfg : FirewallConfig} {place : RulePlacement}

theorem lt_nextRuleNumber {rules : List FirewallRule} {rule : FirewallRule}
    (member : rule ∈ rules) : rule.rule < nextRuleNumber rules := by
  have bounded : ∀ (rules : List FirewallRule) (start : Nat),
      start ≤ rules.foldl (fun most rule => max most rule.rule) start ∧
        ∀ rule ∈ rules, rule.rule ≤
          rules.foldl (fun most rule => max most rule.rule) start := by
    intro rules
    induction rules with
    | nil => simp
    | cons head rest ih =>
        intro start
        obtain ⟨least, each⟩ := ih (max start head.rule)
        rw [List.foldl_cons, List.forall_mem_cons]
        exact ⟨by omega, by omega, each⟩
  have within := (bounded rules 0).2 rule member
  rw [nextRuleNumber]
  omega

/-- Where a rule is saved there is no rule of its number but itself. -/
theorem landed_rule (numbers : DistinctNumbers (fetchFirewall locale root))
    (offered : Operation.Offered (fetchFirewall locale root)
      (.saveRule live update))
    (placed : placeRule locale live update (fetchFirewall locale root) =
      .ok place) {rule : FirewallRule}
    (member : rule ∈ (fetchFirewall locale root).rules)
    (same : rule.rule = place.rule) :
    live = some rule ∧ place.moved = false := by
  have below := lt_nextRuleNumber member
  rw [placed_rule placed] at same
  split at same
  · omega
  · rename_i stays
    cases live with
    | none =>
        have fresh := offered.1
        omega
    | some known =>
        refine ⟨?_, Bool.not_eq_true _ ▸ stays⟩
        obtain ⟨inRules, kept, _⟩ := offered
        rw [List.inj_on_of_nodup_map numbers member inRules
          (same.trans kept)]

/-- The scopes a rule is saved to go with those it has. -/
theorem shares_of_landed
    (placed : placeRule locale live update (fetchFirewall locale root) =
      .ok place) {rule : FirewallRule}
    (member : rule ∈ (fetchFirewall locale root).rules)
    (landed : live = some rule ∧ place.moved = false) {chain other : RuleChain}
    (lands : chain ∈ place.chains)
    (inScopes : other ∈ rule.scopes.map RuleScope.chain) :
    Shares chain other := by
  obtain ⟨rfl, stays⟩ := landed
  obtain ⟨kind, base⟩ := placed_stays placed stays
  have representative := chain_mem_scopes member
  have together := shares_of_rule member representative inScopes
  rcases placed_chains placed with ⟨some, chains⟩ | ⟨none, at_, only⟩
  · obtain ⟨pair, _, rfl⟩ := (chains chain).mp lands
    rw [decide_eq_true some, FirewallRule.isZone, Bool.not_eq_true'] at kind
    rcases together with same | ⟨_, named⟩
    · exact .inr ⟨rfl, same ▸ kind⟩
    · exact .inr ⟨rfl, named⟩
  · rw [only, List.mem_singleton] at lands
    have same := base none
    rw [RulePlacement.chain, only, List.headD_cons] at same
    rw [same, ← lands] at together
    exact together

/-- The scopes of a saved rule are of one kind. -/
theorem shares_of_placed
    (placed : placeRule locale live update cfg = .ok place)
    {chain other : RuleChain} (lands : chain ∈ place.chains)
    (also : other ∈ place.chains) : Shares chain other := by
  rcases placed_chains placed with ⟨_, chains⟩ | ⟨_, base, only⟩
  · obtain ⟨_, _, rfl⟩ := (chains chain).mp lands
    obtain ⟨_, _, rfl⟩ := (chains other).mp also
    exact .inr ⟨rfl, rfl⟩
  · rw [only, List.mem_singleton] at lands also
    exact .inl (lands.trans also.symm)

end Landing

/-! ## Steps -/

/-- No pair is bound to a ruleset that holds rules already. -/
def Operation.BindsEmpty (locale : Locale) (root : Cfg)
    (operation : Operation) : Prop :=
  ∀ pair, operation.Binds locale (fetchFirewall locale root) pair →
    ruleEntries root (.name pair.ruleset) = []

instance (locale : Locale) (root : Cfg) :
    (operation : Operation) → Decidable (operation.BindsEmpty locale root)
  | .saveRule live update =>
      match placed : placeRule locale live update
          (fetchFirewall locale root) with
      | .error _ => .isTrue (by
          rintro pair ⟨place, same, _⟩
          rw [placed] at same
          cases same)
      | .ok place => decidable_of_iff (∀ pair ∈ place.pairs,
          ((fetchFirewall locale root).zonePairs.any fun bound =>
            bound.ruleset = pair.ruleset) = false →
          ruleEntries root (.name pair.ruleset) = []) <| by
            simp [Operation.BindsEmpty, Operation.Binds, placed]
  | .saveAlias _ | .removeAlias _ | .savePolicy _ | .removePolicy _
  | .saveZone _ | .removeZone _ | .removeRule _ | .inspect _ | .reorder _
  | .changeDefault _ | .enableLogging | .elsewhere _ =>
      .isTrue fun _ binds => binds.elim

/-- A saved rule lands on no rule that is shown but its own copies. -/
def LandsOnOwn (locale : Locale) (root : Cfg) (live : Option FirewallRule)
    (update : RuleUpdate) : Prop :=
  ∀ place,
    placeRule locale live update (fetchFirewall locale root) = .ok place →
    ∀ chain ∈ place.chains, ∀ raw,
      subtree (ruleBase chain place.rule) root = some raw →
      isSystem raw = false →
      ∃ rule, live = some rule ∧ rule.rule = place.rule ∧
        chain ∈ rule.scopes.map RuleScope.chain

section Steps

variable {device : Device} {locale : Locale} {root : Cfg}
  {operation : Operation} {commands : List VyosCommand}
  (accepted : device.accepts root = true)
  (numbers : DistinctNumbers (fetchFirewall locale root))
include accepted numbers

theorem shares_before {chain other : RuleChain} {number : Nat}
    (first : Occupied root chain number)
    (second : Occupied root other number) : Shares chain other :=
  (distinctNumbers_iff (device.rendered _ accepted) locale).mp numbers _ _ _
    first second

theorem landsOnOwn {live : Option FirewallRule} {update : RuleUpdate}
    (offered : Operation.Offered (fetchFirewall locale root)
      (.saveRule live update))
    (fresh : Operation.BindsEmpty locale root (.saveRule live update)) :
    LandsOnOwn locale root live update := by
  intro place placed chain lands raw found shown
  have read : chain ∈ readChains root := by
    rcases placed_chains placed with ⟨_, chains⟩ | ⟨_, base, only⟩
    · obtain ⟨pair, inPairs, rfl⟩ := (chains chain).mp lands
      by_cases bound : ((fetchFirewall locale root).zonePairs.any
          fun bound => bound.ruleset = pair.ruleset) = true
      · rw [List.any_eq_true] at bound
        obtain ⟨other, inBound, same⟩ := bound
        exact (mem_readChains_name locale).mpr
          ⟨other, inBound, of_decide_eq_true same⟩
      · have empty := fresh pair
          ⟨place, placed, inPairs, Bool.not_eq_true _ ▸ bound⟩
        have member := mem_ruleEntries found
        rw [empty] at member
        cases member
    · rw [only, List.mem_singleton] at lands
      exact lands ▸ mem_readChains_base base
  have occupied : Occupied root chain place.rule := ⟨raw, read, found, shown⟩
  rw [occupied_iff (device.rendered _ accepted) locale] at occupied
  obtain ⟨rule, member, inScopes, same⟩ := occupied
  exact ⟨rule, (landed_rule numbers offered placed member same).1, same,
    inScopes⟩

/-- A save lands beside nothing but the rule that is saved. -/
theorem shares_saved {live : Option FirewallRule} {update : RuleUpdate}
    (offered : Operation.Offered (fetchFirewall locale root)
      (.saveRule live update)) {chain other : RuleChain} {number : Nat}
    (lands : Operation.Lands locale (fetchFirewall locale root) chain
      (toString number) (.saveRule live update))
    (before : Occupied root other number) : Shares chain other := by
  obtain ⟨place, placed, inChains, same⟩ := lands
  cases toString_injective same
  rw [occupied_iff (device.rendered _ accepted) locale] at before
  obtain ⟨rule, member, inScopes, same⟩ := before
  exact shares_of_landed placed member
    (landed_rule numbers offered placed member same) inChains inScopes

omit accepted numbers in
theorem shares_of_position {order : List FirewallRule}
    (permutation : order.Perm (fetchFirewall locale root).rules)
    {first second : Nat} {rule another : FirewallRule}
    (present : order[first]? = some rule)
    (found : order[second]? = some another)
    (same : orderNumber first = orderNumber second) {chain other : RuleChain}
    (inScopes : chain ∈ rule.scopes.map RuleScope.chain)
    (within : other ∈ another.scopes.map RuleScope.chain) :
    Shares chain other := by
  cases orderNumber_injective same
  rw [present] at found
  cases found
  exact shares_of_rule
    (permutation.mem_iff.mp (List.mem_of_getElem? present)) inScopes within

omit numbers in
/-- A moved rule lands beside nothing that a reorder leaves in place. -/
theorem shares_reordered {order : List FirewallRule}
    (permutation : order.Perm (fetchFirewall locale root).rules)
    {chain other : RuleChain} {number : Nat}
    (lands : Operation.Lands locale (fetchFirewall locale root) chain
      (toString number) (.reorder order))
    (before : Occupied root other number)
    (after : Occupied (executeAll device.schema.kinds (reorderCommands order)
      root) other number) : Shares chain other := by
  have rendered := device.rendered _ accepted
  have ordering : Ordering device.schema.toSchema locale root order :=
    ⟨rendered, permutation⟩
  obtain ⟨⟨rule, target⟩, moved, inScopes, same⟩ := lands
  obtain ⟨index, present, rfl, moves⟩ := mem_renumberTargets.mp moved
  cases toString_injective same
  by_cases also : Operation.Lands locale (fetchFirewall locale root) other
      (toString (orderNumber index)) (.reorder order)
  · obtain ⟨⟨another, target⟩, entry, within, same⟩ := also
    obtain ⟨second, found, rfl, _⟩ := mem_renumberTargets.mp entry
    exact shares_of_position permutation present found
      (toString_injective same) inScopes within
  · obtain ⟨raw, _, here, _⟩ := after
    rw [ruleBase, ordering.subtree_kept, Option.ite_none_left_eq_some] at here
    · obtain ⟨kept, _⟩ := here
      obtain ⟨body, visible⟩ := before
      rcases ordering.vacated_or_stays _ visible with gone | stays
      · exact absurd gone kept
      · obtain ⟨second, another, scope, found, member, rfl, same, _⟩ := stays
        exact shares_of_position permutation present found same inScopes
          (List.mem_map_of_mem member)
    · intro second another scope found moves member atChain same
      exact also ⟨(another, orderNumber second),
        mem_renumberTargets.mpr ⟨second, found, rfl, moves⟩,
        List.mem_map.mpr ⟨scope, member, atChain⟩, same⟩

omit accepted numbers in
/-- Rules that are written where they are. -/
theorem occupied_of_written (rendered : Rendered device.schema.toSchema root)
    {chain : RuleChain} {number : Nat}
    (written : ∃ rule ∈ (fetchFirewall locale root).rules,
      chain ∈ rule.scopes.map RuleScope.chain ∧
        toString number = toString rule.rule) :
    Occupied root chain number := by
  obtain ⟨rule, member, inScopes, same⟩ := written
  cases toString_injective same
  exact (occupied_iff rendered locale).mpr ⟨rule, member, inScopes, rfl⟩

/-- An operation lands on the copies of one rule, at one number. -/
theorem shares_of_lands
    (offered : operation.Offered (fetchFirewall locale root))
    {chain other : RuleChain} {number : Nat}
    (lands : operation.Lands locale (fetchFirewall locale root) chain
      (toString number))
    (also : operation.Lands locale (fetchFirewall locale root) other
      (toString number)) : Shares chain other := by
  have rendered := device.rendered _ accepted
  cases operation with
  | saveRule live update =>
      obtain ⟨place, placed, inChains, _⟩ := lands
      obtain ⟨_, same, within, _⟩ := also
      rw [placed] at same
      cases same
      exact shares_of_placed placed inChains within
  | reorder order =>
      obtain ⟨⟨rule, target⟩, entry, inScopes, same⟩ := lands
      obtain ⟨⟨another, _⟩, further, within, equal⟩ := also
      obtain ⟨first, present, rfl, _⟩ := mem_renumberTargets.mp entry
      obtain ⟨second, found, rfl, _⟩ := mem_renumberTargets.mp further
      exact shares_of_position offered present found
        (toString_injective (same.symm.trans equal)) inScopes within
  | savePolicy _ | inspect _ | enableLogging =>
      exact shares_before accepted numbers (occupied_of_written rendered lands)
        (occupied_of_written rendered also)
  | _ => cases lands

/-- An operation lands beside nothing that was there and stays. -/
theorem shares_of_lands_before
    (offered : operation.Offered (fetchFirewall locale root))
    (made : operation.commands locale (fetchFirewall locale root) =
      .ok commands) {chain other : RuleChain} {number : Nat}
    (lands : operation.Lands locale (fetchFirewall locale root) chain
      (toString number))
    (before : Occupied root other number)
    (after : Occupied (executeAll device.schema.kinds commands root) other
      number) : Shares chain other := by
  have rendered := device.rendered _ accepted
  cases operation with
  | saveRule live update =>
      exact shares_saved accepted numbers offered lands before
  | reorder order =>
      cases made
      exact shares_reordered accepted offered lands before after
  | savePolicy _ | inspect _ | enableLogging =>
      exact shares_before accepted numbers (occupied_of_written rendered lands)
        before
  | _ => cases lands

omit numbers in
/-- Nothing is shown after an operation that binds no ruleset holding rules but
where it lands and what was shown before. -/
theorem origin (offered : operation.Offered (fetchFirewall locale root))
    (made : operation.commands locale (fetchFirewall locale root) =
      .ok commands) (fresh : operation.BindsEmpty locale root)
    {chain : RuleChain} {number : Nat}
    (occupied : Occupied (executeAll device.schema.kinds commands root) chain
      number) :
    operation.Lands locale (fetchFirewall locale root) chain
      (toString number) ∨ Occupied root chain number := by
  have rendered := device.rendered _ accepted
  rcases occupied_after rendered.conforms (composed_commands offered made)
    occupied with lands | before | ⟨src, dst, _, binds, reads, rfl, raw, found⟩
  · exact .inl lands
  · exact .inr before
  · have empty := fresh _ binds
    cases operation with
    | saveRule live update =>
        obtain ⟨place, placed, member, _⟩ := binds
        rw [trimmed_ruleset accepted offered placed member] at reads
        cases reads
        have inside := mem_ruleEntries found
        rw [empty] at inside
        cases inside
    | _ => cases binds

/-- A step that binds no ruleset holding rules keeps numbers distinct. -/
theorem distinctNumbers_step
    (offered : operation.Offered (fetchFirewall locale root))
    (fresh : operation.BindsEmpty locale root)
    (made : operation.commands locale (fetchFirewall locale root) =
      .ok commands)
    (taken : device.accepts
      (executeAll device.schema.kinds commands root) = true) :
    DistinctNumbers (fetchFirewall locale
      (executeAll device.schema.kinds commands root)) := by
  rw [distinctNumbers_iff (device.rendered _ taken)]
  intro chain other number first second
  rcases origin accepted offered made fresh first with lands | before
  · rcases origin accepted offered made fresh second with also | stays
    · exact shares_of_lands accepted numbers offered lands also
    · exact shares_of_lands_before accepted numbers offered made lands stays
        second
  · rcases origin accepted offered made fresh second with lands | stays
    · exact (shares_of_lands_before accepted numbers offered made lands before
        first).symm
    · exact shares_before accepted numbers before stays

end Steps

/-- In every run that binds no ruleset holding rules, distinct rules have
distinct numbers, and a saved rule lands on no rule but itself. -/
theorem numbers_identify {device : Device} {locale : Locale} {root : Cfg}
    (reached : ReachableUnder
      (console device locale fun root => device.accepts root = true ∧
        DistinctNumbers (fetchFirewall locale root))
      (fun root operation =>
        operation.Offered (fetchFirewall locale root) ∧
          operation.BindsEmpty locale root) root) :
    DistinctNumbers (fetchFirewall locale root) ∧
      ∀ live update,
        (Operation.saveRule live update).Offered (fetchFirewall locale root) →
        (Operation.saveRule live update).BindsEmpty locale root →
        LandsOnOwn locale root live update := by
  have holds : device.accepts root = true ∧
      DistinctNumbers (fetchFirewall locale root) := by
    refine reached.invariant (fun _ initial => initial) ?_
    rintro root operation after ⟨accepted, numbers⟩ ⟨offered, fresh⟩ stepped
    obtain ⟨commands, made, rfl, taken⟩ := console_next.mp stepped
    exact ⟨taken,
      distinctNumbers_step accepted numbers offered fresh made taken⟩
  exact ⟨holds.2, fun _ _ => landsOnOwn holds.1 holds.2⟩

/-! ## A run that merges two rules -/

/-- The console from any configuration of distinct numbers. -/
abbrev numberedConsole : TransitionSystem Cfg Operation :=
  console vyosDevice codepoints fun root =>
    vyosDevice.accepts root = true ∧
      DistinctNumbers (fetchFirewall codepoints root)

theorem empty_numbered : numberedConsole.Initial (.node []) :=
  ⟨by decide +kernel, by decide +kernel⟩

/-- Three zones, and a rule from the one to the two others. -/
def spanningSteps : List Operation :=
  [.saveZone (plainZone "LAN" "eth1"), .saveZone (plainZone "WAN" "eth0"),
    .saveZone (plainZone "DMZ" "eth2"),
    .saveRule none (allowRule 10 [.zone "LAN"] [.zone "WAN", .zone "DMZ"])]

def spanningRun : Option Cfg := numberedConsole.run (.node []) spanningSteps

theorem spanningRun_taken : spanningRun.isSome = true := by
  decide +kernel

theorem spanningRun_identified :
    DistinctNumbers (fetchFirewall codepoints
      (spanningRun.get spanningRun_taken)) ∧
    LandsOnOwn codepoints (spanningRun.get spanningRun_taken) none
      (allowRule 20 [.zone "DMZ"] [.zone "WAN"]) := by
  have reached : ReachableUnder numberedConsole
      (fun root operation =>
        operation.Offered (fetchFirewall codepoints root) ∧
          operation.BindsEmpty codepoints root)
      (spanningRun.get spanningRun_taken) :=
    ReachableUnder.run (.initial empty_numbered) spanningSteps
      (by decide +kernel) (Option.some_get _).symm
  obtain ⟨numbers, lands⟩ := @numbers_identify vyosDevice _ _ reached
  exact ⟨numbers, lands _ _ (by decide +kernel) (by decide +kernel)⟩

/-- The copy between the first two zones, as the console sees it alone. -/
def remainingRule : FirewallRule :=
  parseRule (.name "QZ-Z-LAN-TO-DMZ") "10"
    (.node [("action", .value "accept")])

/-- Renaming a zone leaves a copy of the rule in a ruleset no pair is bound to;
its number is given to another rule, and the zone of the old name binds the
ruleset again. -/
def rebindingSteps : List Operation :=
  spanningSteps ++
    [.saveZone (renamedZone "WAN" "INET" "eth0"), .removeRule remainingRule,
      .saveRule none (allowRule 10 [] []),
      .saveZone (renamedZone "INET" "WAN" "eth0"),
      .saveRule none (allowRule 20 [.zone "LAN"] [.zone "WAN"])]

def rebindingRun : Option Cfg := numberedConsole.run (.node []) rebindingSteps

theorem rebindingRun_taken : rebindingRun.isSome = true := by
  decide +kernel

theorem rebinding_shares_number :
    ∃ root, ReachableUnder numberedConsole
      (fun root operation =>
        operation.Offered (fetchFirewall codepoints root)) root ∧
      ¬ DistinctNumbers (fetchFirewall codepoints root) := by
  refine ⟨rebindingRun.get rebindingRun_taken, ?_, by decide +kernel⟩
  exact ReachableUnder.run (.initial empty_numbered) rebindingSteps
    (by decide +kernel) (Option.some_get _).symm

end QuartzFire.Firewall
