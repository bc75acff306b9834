import Mathlib.Data.List.Perm.Basic
import QuartzFire.Foundation.ConfigRebuild
import QuartzFire.Firewall.Parse

/-!
# Where the rules of a parsed configuration are

Each config rule that backs a rule of the console has a scope, a number and a
body.  Parsing finds exactly the visible bodies of the base chains and of the
rulesets some zone pair is bound to, each of them once.
-/

namespace QuartzFire.Firewall

open ConfigTree

/-- What the code relies on of the device's command schema: rules and policies
are numbered nodes, and what a rule may hold does not depend on its number. -/
structure Schema where
  kinds : Kinds String
  ruleNode : ∀ chain number,
    NodePath kinds (filterBase chain ++ ["rule", number])
  ruleUniform : ∀ chain number other path,
    kinds (filterBase chain ++ "rule" :: number :: path) =
      kinds (filterBase chain ++ "rule" :: other :: path)
  geoNode : ∀ id, NodePath kinds (geoBase ++ [id])
  geoRule : ∀ id, kinds (geoBase ++ [id, "rule"]) = .single

/-- No leaf of the tree is empty. -/
def Filled (cfg : Cfg) : Prop := ∀ path, subtree path cfg ≠ some (.value "")

/-- A configuration as the device renders it: it fits the schema, leaves are
not empty, and rules and policies are numbered in decimal. -/
structure Rendered (schema : Schema) (root : Cfg) : Prop where
  conforms : Conforms schema.kinds root
  filled : Filled root
  decimal : ∀ chain key body,
    subtree (filterBase chain ++ ["rule", key]) root = some body →
      key = toString (ruleNumber key)
  policies : ∀ base ∈ [geoBase, sslBase], ∀ key body,
    subtree (base ++ [key]) root = some body → key = toString (ruleNumber key)

/-- Where a config rule is, and its body. -/
structure Placement where
  chain : RuleChain
  number : Nat
  raw : Cfg

/-- The scope and number alone. -/
def Placement.place (placement : Placement) : RuleChain × Nat :=
  (placement.chain, placement.number)

/-- The config rules backing a rule. -/
def FirewallRule.placements (rule : FirewallRule) : List Placement :=
  rule.scopes.map fun scope => ⟨scope.chain, rule.rule, scope.raw⟩

def placements (rules : List FirewallRule) : List Placement :=
  rules.flatMap FirewallRule.placements

/-- The scopes rules are read from. -/
def readChains (root : Cfg) : List RuleChain :=
  [.base .forward, .base .input, .base .output] ++
    (distinct ((parseZonePairs (fetchFirewallConfig root)).map
      ZonePair.ruleset)).map .name

/-! ## Lists -/

section Lists

variable {Item Key : Type} [DecidableEq Item] [DecidableEq Key]

@[simp] theorem mem_distinct (item : Item) (items : List Item) :
    item ∈ distinct items ↔ item ∈ items := by
  induction items with
  | nil => simp [distinct]
  | cons first items ih =>
      rw [distinct, List.mem_cons, List.mem_cons, List.mem_filter, ih]
      by_cases same : item = first <;> simp [same]

theorem nodup_distinct (items : List Item) : (distinct items).Nodup := by
  induction items with
  | nil => exact List.nodup_nil
  | cons first items ih =>
      rw [distinct, List.nodup_cons]
      exact ⟨by simp, ih.filter _⟩

/-- Splitting a list by the value of a key permutes it. -/
theorem flatMap_filter_perm {Item : Type} (key : Item → Key)
    (keys : List Key) (unique : keys.Nodup) (items : List Item)
    (covered : ∀ item ∈ items, key item ∈ keys) :
    (keys.flatMap fun value => items.filter fun item => key item = value).Perm
      items := by
  induction keys generalizing items with
  | nil =>
      cases items with
      | nil => exact .refl _
      | cons item items => simpa using covered item (by simp)
  | cons value keys ih =>
      rw [List.nodup_cons] at unique
      rw [List.flatMap_cons]
      have others : ∀ other ∈ keys,
          (items.filter fun item => key item = other) =
            (items.filter fun item => ¬ key item = value).filter
              fun item => key item = other := by
        intro other member
        rw [List.filter_filter]
        apply List.filter_congr
        intro item _
        by_cases same : key item = other
        · have different : ¬ other = value := by
            rintro rfl
            exact unique.1 member
          simp [same, different]
        · simp [same]
      have split := ih unique.2
        (items.filter fun item => ¬ key item = value) (by
          intro item member
          rw [List.mem_filter] at member
          rcases List.mem_cons.mp (covered item member.1) with same | rest
          · simp [same] at member
          · exact rest)
      have rewritten : (keys.flatMap fun other =>
          items.filter fun item => key item = other) =
          keys.flatMap fun other =>
            (items.filter fun item => ¬ key item = value).filter
              fun item => key item = other :=
        List.flatMap_congr others
      rw [rewritten]
      refine (split.append_left _).trans ?_
      simpa only [decide_not] using
        List.filter_append_perm (fun item => decide (key item = value)) items

end Lists

/-! ## Reading -/

theorem sortBy_perm {Item : Type} (locale : Locale) (key : Item → String)
    (items : List Item) : (locale.sortBy key items).Perm items :=
  List.perm_insertionSort _ items

theorem placements_append (first second : List FirewallRule) :
    placements (first ++ second) = placements first ++ placements second :=
  List.flatMap_append

theorem placements_perm {rules others : List FirewallRule}
    (same : rules.Perm others) : (placements rules).Perm (placements others) :=
  same.flatMap_right _

/-- A config rule as parsed, before zone copies are grouped. -/
def FirewallRule.Single (rule : FirewallRule) : Prop :=
  rule.scopes = [⟨rule.chain, rule.raw⟩]

theorem placements_of_single {rules : List FirewallRule}
    (single : ∀ rule ∈ rules, rule.Single) :
    placements rules =
      rules.map fun rule => ⟨rule.chain, rule.rule, rule.raw⟩ := by
  induction rules with
  | nil => rfl
  | cons rule rules ih =>
      have first := single rule (by simp)
      rw [FirewallRule.Single] at first
      rw [placements, List.flatMap_cons, FirewallRule.placements, first,
        List.map_cons]
      exact congrArg _ (ih fun other member => single other (by simp [member]))

theorem placements_mergeCopies {number : Nat} {copies : List FirewallRule}
    (numbered : ∀ copy ∈ copies, copy.rule = number) :
    placements (mergeCopies copies) =
      copies.map fun copy => ⟨copy.chain, copy.rule, copy.raw⟩ := by
  cases copies with
  | nil => rfl
  | cons head rest =>
      simp only [mergeCopies, placements, FirewallRule.placements,
        List.flatMap_cons, List.flatMap_nil, List.append_nil, List.map_map]
      apply List.map_congr_left
      intro copy member
      simp [numbered copy member, numbered head (by simp)]

/-- Grouping moves no copy. -/
theorem placements_groupZoneRules (locale : Locale)
    {rules : List FirewallRule} (single : ∀ rule ∈ rules, rule.Single) :
    (placements (groupZoneRules locale rules)).Perm (placements rules) := by
  have group : ∀ number, (placements (mergeCopies (locale.sortBy
      (fun copy => copy.chain.text)
      (rules.filter fun rule => rule.rule = number)))).Perm
      ((rules.filter fun rule => rule.rule = number).map
        fun copy => ⟨copy.chain, copy.rule, copy.raw⟩) := by
    intro number
    have sorted := sortBy_perm locale (fun copy => copy.chain.text)
      (rules.filter fun rule => rule.rule = number)
    have numbered : ∀ copy ∈ locale.sortBy (fun copy => copy.chain.text)
        (rules.filter fun rule => rule.rule = number), copy.rule = number := by
      intro copy member
      simpa using (List.mem_filter.mp (sorted.mem_iff.mp member)).2
    rw [placements_mergeCopies numbered]
    exact sorted.map _
  rw [groupZoneRules, placements, List.flatMap_assoc,
    placements_of_single single]
  refine (List.Perm.flatMap_left _ fun number _ => group number).trans ?_
  rw [← List.map_flatMap]
  refine (flatMap_filter_perm FirewallRule.rule _ (nodup_distinct _) rules
    ?_).map _
  intro rule member
  simpa using ⟨rule, member, rfl⟩

theorem single_chainRules {filter : Cfg} {chain : RuleChain} :
    ∀ rule ∈ chainRules filter chain, rule.Single := by
  intro rule member
  simp only [chainRules, List.mem_filterMap, Option.ite_none_left_eq_some,
    Option.some.injEq] at member
  obtain ⟨entry, _, _, rfl⟩ := member
  rfl

theorem mem_groupZoneRules {locale : Locale} {rules : List FirewallRule}
    {rule : FirewallRule} (member : rule ∈ groupZoneRules locale rules) :
    ∃ head rest, (∀ copy ∈ head :: rest, copy ∈ rules ∧
        copy.rule = head.rule) ∧
      rule = { head with
        scopes := (head :: rest).map fun copy => ⟨copy.chain, copy.raw⟩ } := by
  rw [groupZoneRules, List.mem_flatMap] at member
  obtain ⟨number, _, member⟩ := member
  have sorted := sortBy_perm locale (fun copy => copy.chain.text)
    (rules.filter fun rule => rule.rule = number)
  generalize locale.sortBy _ _ = copies at member sorted
  cases copies with
  | nil => simp [mergeCopies] at member
  | cons head rest =>
      have numbered : ∀ copy ∈ head :: rest,
          copy ∈ rules ∧ copy.rule = number := by
        intro copy inCopies
        simpa using sorted.mem_iff.mp inCopies
      refine ⟨head, rest, fun copy inCopies => ⟨(numbered copy inCopies).1,
        ?_⟩, by simpa [mergeCopies] using member⟩
      rw [(numbered copy inCopies).2, (numbered head (by simp)).2]

theorem exists_parseRule_chainRules {filter : Cfg} {chain : RuleChain}
    {rule : FirewallRule} (member : rule ∈ chainRules filter chain) :
    ∃ key cfg, rule = parseRule chain key cfg := by
  simp only [chainRules, List.mem_filterMap, Option.ite_none_left_eq_some,
    Option.some.injEq] at member
  obtain ⟨entry, _, _, rfl⟩ := member
  exact ⟨_, _, rfl⟩

/-- But for its scopes a rule is one config rule as parsed. -/
theorem exists_parseRule {locale : Locale} {root : Cfg} {rule : FirewallRule}
    (member : rule ∈ (fetchFirewall locale root).rules) :
    ∃ chain key cfg,
      rule = { parseRule chain key cfg with scopes := rule.scopes } := by
  simp only [fetchFirewall, parseChain, List.mem_insertionSort,
    List.mem_append] at member
  rcases member with ((inChain | inChain) | inChain) | inZones
  · obtain ⟨key, cfg, rfl⟩ := exists_parseRule_chainRules inChain
    exact ⟨_, key, cfg, rfl⟩
  · obtain ⟨key, cfg, rfl⟩ := exists_parseRule_chainRules inChain
    exact ⟨_, key, cfg, rfl⟩
  · obtain ⟨key, cfg, rfl⟩ := exists_parseRule_chainRules inChain
    exact ⟨_, key, cfg, rfl⟩
  · obtain ⟨head, rest, copies, rfl⟩ := mem_groupZoneRules inZones
    obtain ⟨ruleset, _, inChain⟩ :=
      List.mem_flatMap.mp (copies head (by simp)).1
    obtain ⟨key, cfg, rfl⟩ := exists_parseRule_chainRules inChain
    exact ⟨_, key, cfg, rfl⟩

/-- The scopes of a zone rule are rulesets some pair is bound to. -/
theorem bound_scope {locale : Locale} {root : Cfg} {rule : FirewallRule}
    (member : rule ∈ (fetchFirewall locale root).rules) {scope : RuleScope}
    (inScopes : scope ∈ rule.scopes) {ruleset : String}
    (named : scope.chain = .name ruleset) :
    ∃ pair ∈ (fetchFirewall locale root).zonePairs,
      pair.ruleset = ruleset := by
  have single : ∀ {filter : Cfg} {chain : BaseChain},
      rule ∈ chainRules filter (.base chain) → False := by
    intro filter chain inChain
    obtain ⟨key, cfg, rfl⟩ := exists_parseRule_chainRules inChain
    simp only [parseRule, List.mem_singleton] at inScopes
    rw [inScopes] at named
    cases named
  simp only [fetchFirewall, parseChain, List.mem_insertionSort,
    List.mem_append] at member
  rcases member with ((inChain | inChain) | inChain) | inZones
  · exact (single inChain).elim
  · exact (single inChain).elim
  · exact (single inChain).elim
  · obtain ⟨head, rest, copies, rfl⟩ := mem_groupZoneRules inZones
    obtain ⟨copy, inCopies, rfl⟩ := List.mem_map.mp inScopes
    obtain ⟨bound, inBound, inChain⟩ :=
      List.mem_flatMap.mp (copies copy inCopies).1
    obtain ⟨key, cfg, rfl⟩ := exists_parseRule_chainRules inChain
    rw [mem_distinct, List.mem_map] at inBound
    obtain ⟨pair, inPairs, rfl⟩ := inBound
    cases named
    exact ⟨pair, inPairs, rfl⟩

/-- A rule lives in one base chain, or in rulesets alone. -/
theorem scopes_fetchFirewall {locale : Locale} {root : Cfg}
    {rule : FirewallRule} (member : rule ∈ (fetchFirewall locale root).rules) :
    (∃ chain, rule.chain = .base chain ∧
        rule.scopes = [⟨.base chain, rule.raw⟩]) ∨
      (∃ ruleset, rule.chain = .name ruleset) ∧ rule.scopes ≠ [] ∧
        ∀ scope ∈ rule.scopes, ∃ ruleset, scope.chain = .name ruleset := by
  have inChain : ∀ (filter : Cfg) (chain : RuleChain) (rule : FirewallRule),
      rule ∈ chainRules filter chain → rule.chain = chain := by
    intro filter chain rule member
    simp only [chainRules, List.mem_filterMap, Option.ite_none_left_eq_some,
      Option.some.injEq] at member
    obtain ⟨entry, _, _, rfl⟩ := member
    rfl
  simp only [fetchFirewall, parseChain, List.mem_insertionSort,
    List.mem_append] at member
  rcases member with inBase | inZones
  · have base : ∃ chain, rule.chain = .base chain ∧ rule.Single := by
      rcases inBase with (inForward | inInput) | inOutput
      · exact ⟨_, inChain _ _ _ inForward, single_chainRules _ inForward⟩
      · exact ⟨_, inChain _ _ _ inInput, single_chainRules _ inInput⟩
      · exact ⟨_, inChain _ _ _ inOutput, single_chainRules _ inOutput⟩
    obtain ⟨chain, atChain, single⟩ := base
    exact .inl ⟨chain, atChain, atChain ▸ single⟩
  · obtain ⟨head, rest, copies, rfl⟩ := mem_groupZoneRules inZones
    have named : ∀ copy ∈ head :: rest,
        ∃ ruleset, copy.chain = .name ruleset := by
      intro copy inCopies
      obtain ⟨ruleset, _, member⟩ :=
        List.mem_flatMap.mp (copies copy inCopies).1
      exact ⟨ruleset, inChain _ _ _ member⟩
    refine .inr ⟨named head (by simp), by simp, ?_⟩
    intro scope inScopes
    obtain ⟨copy, inCopies, rfl⟩ := List.mem_map.mp inScopes
    exact named copy inCopies

/-- A parsed configuration's rules are backed by exactly the rules of the
scopes it reads. -/
theorem placements_fetchFirewall (locale : Locale) (root : Cfg) :
    (placements (fetchFirewall locale root).rules).Perm
      ((readChains root).flatMap fun chain => placements (chainRules
        (chainFilter (childNode (fetchFirewallConfig root) "ipv4") chain)
        chain)) := by
  simp only [fetchFirewall, parseChain]
  refine (placements_perm (List.perm_insertionSort _ _)).trans ?_
  rw [placements_append, placements_append, placements_append, readChains,
    List.flatMap_append]
  simp only [List.flatMap_cons, List.flatMap_nil, List.append_nil,
    List.append_assoc]
  refine List.Perm.append_left _ (List.Perm.append_left _
    (List.Perm.append_left _ ?_))
  refine (placements_groupZoneRules locale ?_).trans ?_
  · intro rule member
    obtain ⟨ruleset, _, member⟩ := List.mem_flatMap.mp member
    exact single_chainRules rule member
  · rw [placements, List.flatMap_assoc, List.flatMap_map]
    exact .refl _

/-! ## Reading by path -/

/-- The node at a path, empty when there is none. -/
def nodeAt (path : Path) (root : Cfg) : Cfg :=
  match subtree path root with
  | some (.node entries) => .node entries
  | _ => .node []

theorem childNode_eq_nodeAt (cfg : Cfg) (key : String) :
    childNode cfg key = nodeAt [key] cfg := by
  rw [nodeAt, subtree_singleton, childNode, childCfg]
  cases cfg.child key with
  | none => rfl
  | some child => cases child <;> rfl

theorem subtree_nodeAt {path rest : Path} (proper : rest ≠ []) (root : Cfg) :
    subtree rest (nodeAt path root) = subtree (path ++ rest) root := by
  rw [subtree_append, nodeAt]
  split
  · rename_i found
    rw [found, Option.bind_some]
  · rename_i notNode
    rw [subtree_of_leaf rfl proper]
    cases found : subtree path root with
    | none => rfl
    | some tree =>
        have leaf : ∀ entries, tree = .node entries → False := by
          rintro entries rfl
          exact notNode entries found
        rw [Option.bind_some, subtree_of_leaf (entries_of_not_node leaf) proper]

theorem childNode_nodeAt (path : Path) (key : String) (root : Cfg) :
    childNode (nodeAt path root) key = nodeAt (path ++ [key]) root := by
  rw [childNode_eq_nodeAt, nodeAt, subtree_nodeAt (by simp), nodeAt]

/-- The text of the leaf at a path. -/
def textAt (path : Path) (root : Cfg) : Option String :=
  match subtree path root with
  | some (.value text) => trimmed text
  | _ => none

theorem textAt_congr {path other : Path} {root after : Cfg}
    (same : subtree path after = subtree other root) :
    textAt path after = textAt other root := by
  rw [textAt, textAt, same]

theorem textAt_of_value {path : Path} {root : Cfg} {text : String}
    (found : subtree path root = some (.value text)) :
    textAt path root = trimmed text := by
  rw [textAt, found]

theorem childStr_eq_textAt (cfg : Cfg) (key : String) :
    childStr cfg key = textAt [key] cfg := by
  cases found : cfg.child key with
  | none => simp only [childStr, textAt, subtree_singleton, found]
  | some child =>
      cases child <;> simp only [childStr, textAt, subtree_singleton, found]

theorem childStr_nodeAt (path : Path) (key : String) (root : Cfg) :
    childStr (nodeAt path root) key = textAt (path ++ [key]) root := by
  rw [childStr_eq_textAt]
  exact textAt_congr (subtree_nodeAt (by simp) root)

theorem chainFilter_eq_nodeAt (root : Cfg) (chain : RuleChain) :
    chainFilter (childNode (fetchFirewallConfig root) "ipv4") chain =
      nodeAt (filterBase chain) root := by
  rw [fetchFirewallConfig, childNode_eq_nodeAt root, childNode_nodeAt]
  cases chain <;>
    simp only [chainFilter, childNode_nodeAt, filterBase, List.cons_append,
      List.nil_append]

theorem fits_at {kinds : Kinds String} {root tree : Cfg}
    (conforms : Conforms kinds root) {path : Path} (proper : path ≠ [])
    (found : subtree path root = some tree) :
    Fits (kinds.below path.dropLast) (path.getLast proper) tree := by
  rw [← List.dropLast_concat_getLast proper] at found
  exact conforms.fits_subtree found

theorem mem_nodeAt_entries {kinds : Kinds String} {root : Cfg}
    (conforms : Conforms kinds root) {path : Path} {key : String} {cfg : Cfg}
    (proper : path ≠ []) :
    (key, cfg) ∈ (nodeAt path root).entries ↔
      subtree (path ++ [key]) root = some cfg := by
  rw [subtree_append, nodeAt]
  split
  · rename_i entries found
    have fits := fits_at conforms proper found
    rw [found, Option.bind_some, fits.conforms.mem_entries, subtree_singleton]
  · rename_i notNode
    simp only [entries_node, List.not_mem_nil, false_iff]
    cases found : subtree path root with
    | none => simp
    | some tree =>
        have leaf : ∀ entries, tree = .node entries → False := by
          rintro entries rfl
          exact notNode entries found
        rw [Option.bind_some, subtree_of_leaf (entries_of_not_node leaf) (by simp)]
        simp

theorem nodup_nodeAt_entries {kinds : Kinds String} {root : Cfg}
    (conforms : Conforms kinds root) {path : Path} (proper : path ≠ []) :
    ((nodeAt path root).entries.map Prod.fst).Nodup := by
  rw [nodeAt]
  split
  · rename_i entries found
    have fits := fits_at conforms proper found
    exact fits.conforms.distinct
  · exact List.nodup_nil

/-- The node of an entry, by its path from the root. -/
theorem childNode_of_subtree {path : Path} {root cfg : Cfg}
    (found : subtree path root = some cfg) (key : String) :
    childNode cfg key = nodeAt (path ++ [key]) root := by
  rw [childNode_eq_nodeAt, nodeAt, nodeAt, subtree_append, found,
    Option.bind_some]

/-- Where the binding of a zone pair is. -/
def bindingPath (src dst : String) : Path :=
  ["firewall", "zone", dst, "from", src]

/-- Zone pairs are read off their bindings. -/
theorem mem_parseZonePairs {kinds : Kinds String} {root : Cfg}
    (conforms : Conforms kinds root) {pair : ZonePair} :
    pair ∈ parseZonePairs (fetchFirewallConfig root) ↔
      ∃ binding, subtree (bindingPath pair.src pair.dst) root = some binding ∧
        childStr (childNode binding "firewall") "name" = some pair.ruleset := by
  have zones : childNode (fetchFirewallConfig root) "zone" =
      nodeAt ["firewall", "zone"] root := by
    rw [fetchFirewallConfig, childNode_eq_nodeAt root, childNode_nodeAt]
    rfl
  simp only [parseZonePairs, zones, List.mem_flatMap, List.mem_filterMap,
    Prod.exists, Option.map_eq_some_iff]
  constructor
  · rintro ⟨dst, cfg, inZones, src, binding, inFrom, ruleset, named, rfl⟩
    rw [mem_nodeAt_entries conforms (by simp)] at inZones
    rw [childNode_of_subtree inZones, mem_nodeAt_entries conforms (by simp)]
      at inFrom
    exact ⟨binding, inFrom, named⟩
  · rintro ⟨binding, found, named⟩
    have split : bindingPath pair.src pair.dst =
        ["firewall", "zone", pair.dst] ++ ["from", pair.src] := rfl
    have above := found
    rw [split, subtree_append, Option.bind_eq_some_iff] at above
    obtain ⟨cfg, inZones, _⟩ := above
    refine ⟨pair.dst, cfg, (mem_nodeAt_entries conforms (by simp)).mpr inZones,
      pair.src, binding, ?_, pair.ruleset, named, rfl⟩
    rw [childNode_of_subtree inZones, mem_nodeAt_entries conforms (by simp)]
    exact found

/-! ## The rules of a configuration -/

theorem rulePath_injective {chain other : RuleChain} {key probe : String}
    (same : filterBase chain ++ ["rule", key] =
      filterBase other ++ ["rule", probe]) : chain = other ∧ key = probe := by
  cases chain with
  | base chain =>
      cases other with
      | base other => cases chain <;> cases other <;> simp_all [filterBase,
          BaseChain.text]
      | name ruleset => cases chain <;> simp [filterBase, BaseChain.text] at same
  | name ruleset =>
      cases other with
      | base other => cases other <;> simp [filterBase, BaseChain.text] at same
      | name other => simpa [filterBase] using same

/-- Distinct rules are kept at diverging paths. -/
theorem diverges_rulePath {chain other : RuleChain} {key probe : String}
    (different : (chain, key) ≠ (other, probe)) :
    Diverges (filterBase chain ++ ["rule", key])
      (filterBase other ++ ["rule", probe]) := by
  refine diverges_of_length ?_ ?_
  · cases chain <;> cases other <;> rfl
  · intro same
    obtain ⟨chains, keys⟩ := rulePath_injective same
    exact different (by rw [chains, keys])

theorem diverges_ruleBase {chain other : RuleChain} {number probe : Nat}
    (different : (chain, number) ≠ (other, probe)) :
    Diverges (ruleBase chain number) (ruleBase other probe) := by
  refine diverges_rulePath fun same => different ?_
  rw [Prod.mk.injEq] at same ⊢
  exact ⟨same.1, toString_injective same.2⟩

/-- A body the console shows: it is in a scope that is read, and it is not a
hidden one. -/
def Visible (root : Cfg) (placement : Placement) : Prop :=
  placement.chain ∈ readChains root ∧
    subtree (ruleBase placement.chain placement.number) root =
      some placement.raw ∧
    isSystem placement.raw = false

theorem nodup_readChains (root : Cfg) : (readChains root).Nodup := by
  rw [readChains, List.nodup_append]
  refine ⟨by decide, ?_, ?_⟩
  · refine (nodup_distinct _).map ?_
    intro left right same
    cases same
    rfl
  · intro left base right named same
    obtain ⟨ruleset, _, rfl⟩ := List.mem_map.mp named
    subst same
    simp at base

variable {schema : Schema} {root : Cfg}

theorem mem_chainRules (rendered : Rendered schema root) {chain : RuleChain}
    {placement : Placement} :
    placement ∈ placements (chainRules
        (chainFilter (childNode (fetchFirewallConfig root) "ipv4") chain)
        chain) ↔
      placement.chain = chain ∧
        subtree (ruleBase chain placement.number) root = some placement.raw ∧
        isSystem placement.raw = false := by
  rw [placements_of_single single_chainRules, chainRules,
    chainFilter_eq_nodeAt, childNode_nodeAt, List.mem_map]
  have proper : filterBase chain ++ ["rule"] ≠ [] := by simp
  have atKey : ∀ key, filterBase chain ++ ["rule"] ++ [key] =
      filterBase chain ++ ["rule", key] := by simp
  constructor
  · rintro ⟨rule, member, rfl⟩
    obtain ⟨⟨key, cfg⟩, entry, made⟩ := List.mem_filterMap.mp member
    rw [Option.ite_none_left_eq_some, Option.some.injEq] at made
    obtain ⟨shown, rfl⟩ := made
    rw [mem_nodeAt_entries rendered.conforms proper, atKey] at entry
    refine ⟨rfl, ?_, Bool.not_eq_true _ ▸ shown⟩
    rw [ruleBase]
    simp only [parseRule]
    rw [← rendered.decimal chain key cfg entry]
    exact entry
  · rintro ⟨rfl, found, shown⟩
    refine ⟨parseRule placement.chain (toString placement.number)
      placement.raw, ?_, ?_⟩
    · refine List.mem_filterMap.mpr ⟨(toString placement.number,
        placement.raw), ?_, by simp [shown]⟩
      rw [mem_nodeAt_entries rendered.conforms proper, atKey]
      exact found
    · simp only [parseRule, ruleNumber_toString]

/-- What a config rule may hold is the same under every number. -/
theorem ruleKinds (schema : Schema) (chain : RuleChain) (key other : String) :
    schema.kinds.below (filterBase chain ++ ["rule", other]) =
      (schema.kinds.below (filterBase chain ++ ["rule"])).below [key] := by
  funext path
  simp only [Kinds.below, List.append_assoc, List.cons_append,
    List.nil_append]
  exact schema.ruleUniform chain other key path

/-- The body of a config rule fits the schema and has no empty leaf. -/
theorem body_fits (rendered : Rendered schema root) {chain : RuleChain}
    {key : String} {body : Cfg}
    (found : subtree (filterBase chain ++ ["rule", key]) root = some body) :
    ∃ entries, body = .node entries ∧
      Fits (schema.kinds.below (filterBase chain ++ ["rule"])) key body ∧
      schema.kinds.below (filterBase chain ++ ["rule"]) [key] = .node ∧
      Filled body := by
  have split : filterBase chain ++ ["rule", key] =
      filterBase chain ++ ["rule"] ++ [key] := by simp
  have isNode := (split ▸ schema.ruleNode chain key).last
  have fits := rendered.conforms.fits_subtree (split ▸ found)
  have filled : Filled body := by
    intro path
    have whole := rendered.filled (filterBase chain ++ ["rule", key] ++ path)
    rwa [subtree_append, found, Option.bind_some] at whole
  cases body with
  | node entries => exact ⟨entries, rfl, fits, isNode, filled⟩
  | _ => cases fits <;> simp_all

/-- Parsing finds exactly the visible bodies. -/
theorem mem_placements (rendered : Rendered schema root) (locale : Locale)
    {placement : Placement} :
    placement ∈ placements (fetchFirewall locale root).rules ↔
      Visible root placement := by
  rw [(placements_fetchFirewall locale root).mem_iff, List.mem_flatMap]
  constructor
  · rintro ⟨chain, read, member⟩
    obtain ⟨rfl, found⟩ := (mem_chainRules rendered).mp member
    exact ⟨read, found⟩
  · rintro ⟨read, found⟩
    exact ⟨placement.chain, read, (mem_chainRules rendered).mpr ⟨rfl, found⟩⟩

/-- Rule numbers come from keys, and distinct keys give distinct numbers. -/
theorem sublist_keys (chain : RuleChain) {entries : List (String × Cfg)}
    (decimal : ∀ entry ∈ entries, entry.1 = toString (ruleNumber entry.1)) :
    ((entries.filterMap fun (number, cfg) =>
      if isSystem cfg then none else some (parseRule chain number cfg)).map
      fun rule => toString rule.rule).Sublist (entries.map Prod.fst) := by
  induction entries with
  | nil => exact .slnil
  | cons entry entries ih =>
      have rest := ih fun other member => decimal other (by simp [member])
      rw [List.filterMap_cons, List.map_cons]
      dsimp only
      split
      · exact rest.cons _
      · rename_i rule shown
        rw [Option.ite_none_left_eq_some, Option.some.injEq] at shown
        obtain ⟨_, rfl⟩ := shown
        rw [List.map_cons, show (parseRule chain entry.1 entry.2).rule =
          ruleNumber entry.1 from rfl, ← decimal entry (by simp)]
        exact rest.cons_cons _

/-- No two config rules have one scope and number. -/
theorem nodup_places (rendered : Rendered schema root) (locale : Locale) :
    ((placements (fetchFirewall locale root).rules).map
      Placement.place).Nodup := by
  refine ((placements_fetchFirewall locale root).map _).nodup_iff.mpr ?_
  rw [List.map_flatMap, List.nodup_flatMap]
  constructor
  · intro chain _
    have proper : filterBase chain ++ ["rule"] ≠ [] := by simp
    have decimal : ∀ entry ∈ (nodeAt (filterBase chain ++ ["rule"])
        root).entries, entry.1 = toString (ruleNumber entry.1) := by
      intro entry member
      refine rendered.decimal chain entry.1 entry.2 ?_
      simpa using (mem_nodeAt_entries rendered.conforms proper).mp member
    have keys := (sublist_keys chain decimal).nodup
      (nodup_nodeAt_entries rendered.conforms proper)
    rw [placements_of_single single_chainRules, chainFilter_eq_nodeAt,
      chainRules, childNode_nodeAt, List.map_map]
    refine List.Nodup.of_map (fun place : RuleChain × Nat =>
      toString place.2) ?_
    rw [List.map_map]
    exact keys
  · refine (nodup_readChains root).imp ?_
    intro left right different place inLeft inRight
    obtain ⟨first, firstMember, rfl⟩ := List.mem_map.mp inLeft
    obtain ⟨second, secondMember, same⟩ := List.mem_map.mp inRight
    have firstChain := ((mem_chainRules rendered).mp firstMember).1
    have secondChain := ((mem_chainRules rendered).mp secondMember).1
    have chains : second.chain = first.chain := congrArg Prod.fst same
    exact different (by rw [← firstChain, ← secondChain, chains])

end QuartzFire.Firewall
